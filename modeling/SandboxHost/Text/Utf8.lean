namespace SandboxHost.Utf8

def encodeChars (text : List Char) : List UInt8 := text.flatMap String.utf8EncodeChar

def encode (text : String) : List UInt8 := encodeChars text.toList

/-- How many bytes follow a first byte, and the bounds of the second one. -/
structure Lead where
  following : Nat
  low : UInt8
  high : UInt8

def lead? (b : UInt8) : Option Lead :=
  if b < 0xc2 then none
  else if b < 0xe0 then some ⟨1, 0x80, 0xbf⟩
  else if b = 0xe0 then some ⟨2, 0xa0, 0xbf⟩
  else if b = 0xed then some ⟨2, 0x80, 0x9f⟩
  else if b < 0xf0 then some ⟨2, 0x80, 0xbf⟩
  else if b = 0xf0 then some ⟨3, 0x90, 0xbf⟩
  else if b < 0xf4 then some ⟨3, 0x80, 0xbf⟩
  else if b = 0xf4 then some ⟨3, 0x80, 0x8f⟩
  else none

def continues (b : UInt8) : Bool := 0x80 ≤ b && b ≤ 0xbf

def payload (b : UInt8) : Nat := b.toNat % 64

def char2 (a b : UInt8) : Char := .ofNat (a.toNat % 32 * 64 + payload b)

def char3 (a b c : UInt8) : Char := .ofNat (a.toNat % 16 * 4096 + payload b * 64 + payload c)

def char4 (a b c d : UInt8) : Char :=
  .ofNat (a.toNat % 8 * 262144 + payload b * 4096 + payload c * 64 + payload d)

/-- `done` holds the parts read so far, last first. -/
def scan : List UInt8 → List (Option Char) → List (Option Char)
  | [], done => done.reverse
  | a :: rest, done =>
    if a < 0x80 then scan rest (some (.ofNat a.toNat) :: done)
    else match lead? a with
      | none => scan rest (none :: done)
      | some l =>
        match rest with
        | [] => (none :: done).reverse
        | b :: rest' =>
          if !(l.low ≤ b && b ≤ l.high) then scan (b :: rest') (none :: done)
          else if l.following = 1 then scan rest' (some (char2 a b) :: done)
          else match rest' with
            | [] => (none :: done).reverse
            | c :: rest'' =>
              if !continues c then scan (c :: rest'') (none :: done)
              else if l.following = 2 then scan rest'' (some (char3 a b c) :: done)
              else match rest'' with
                | [] => (none :: done).reverse
                | d :: rest''' =>
                  if !continues d then scan (d :: rest''') (none :: done)
                  else scan rest''' (some (char4 a b c d) :: done)

def decodeParts (bytes : List UInt8) : List (Option Char) := scan bytes []

/-- Every ill-formed part becomes one replacement character. -/
def decodeLossy (bytes : List UInt8) : String :=
  .ofList ((decodeParts bytes).map (·.getD '\ufffd'))

def decode? (bytes : List UInt8) : Option (List Char) := (decodeParts bytes).mapM id

/-- How many leading characters fit into `room` bytes, on top of `count`. -/
def fitting : Nat → List Char → Nat → Nat
  | _, [], count => count
  | room, c :: rest, count =>
    if c.utf8Size ≤ room then fitting (room - c.utf8Size) rest (count + 1) else count

/-- The longest run of whole leading characters that fits into `room` bytes. -/
def truncate (room : Nat) (text : String) : String :=
  if text.utf8ByteSize ≤ room then text
  else .ofList (text.toList.take (fitting room text.toList 0))

end SandboxHost.Utf8

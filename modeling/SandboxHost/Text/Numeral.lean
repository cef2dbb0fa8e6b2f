namespace SandboxHost.Numeral

def digit? (c : Char) : Option Nat :=
  if '0' ≤ c ∧ c ≤ '9' then some (c.toNat - 48) else none

def digits? (value : Nat) : List Char → Option Nat
  | [] => some value
  | c :: rest => (digit? c).bind fun d => digits? (value * 10 + d) rest

def natural? (cs : List Char) : Option Nat := if cs.isEmpty then none else digits? 0 cs

def unsigned? : List Char → Option Nat
  | '+' :: rest => natural? rest
  | cs => natural? cs

def signed? : List Char → Option Int
  | '-' :: rest => (natural? rest).map fun n => -n
  | cs => (unsigned? cs).map Int.ofNat

/-- A number of 64 bits without a sign of its own; a plus sign may stand before it. -/
def uint64? (text : String) : Option UInt64 :=
  (unsigned? text.toList).bind fun n => if n < 0x10000000000000000 then some n.toUInt64 else none

def int64? (text : String) : Option Int64 :=
  (signed? text.toList).bind fun n =>
    if -0x8000000000000000 ≤ n ∧ n < 0x8000000000000000 then some (Int64.ofInt n) else none

end SandboxHost.Numeral

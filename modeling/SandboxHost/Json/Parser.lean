import SandboxHost.Json.Grammar
import SandboxHost.Json.Number

namespace SandboxHost.Json

/-- What is wanted of a value: all of it, or the fields of a record, each in a shape of its own. -/
inductive Shape where
  | any
  | record (fields : List (String × Shape))

namespace Shape

def ofFields (names : List String) (records : List (String × Shape) := []) : Shape :=
  .record (names.map fun name => (name, (records.lookup name).getD .any))

def member? : Shape → String → Option Shape
  | .any, _ => some .any
  | .record fields, name => fields.lookup name

/-- The shapes of the first items of a list; others are wanted whole. -/
def items : Shape → List Shape
  | .any => []
  | .record fields => fields.map (·.2)

end Shape

def isHigh (n : Nat) : Bool := 0xd800 ≤ n && n < 0xdc00

def isLow (n : Nat) : Bool := 0xdc00 ≤ n && n < 0xe000

/-- Reads up to the closing quote; `done` holds the characters so far, last first. -/
def readString : List Char → List Char → Option (String × List Char)
  | '"' :: rest, done => some (.ofList done.reverse, rest)
  | '\\' :: 'u' :: a :: b :: c :: d :: rest, done =>
    match hex4? a b c d with
    | none => none
    | some n =>
      if isLow n then none
      else if isHigh n then
        match rest with
        | '\\' :: 'u' :: a' :: b' :: c' :: d' :: rest' =>
          match hex4? a' b' c' d' with
          | none => none
          | some m =>
            if isLow m then
              readString rest' (.ofNat (0x10000 + (n - 0xd800) * 0x400 + (m - 0xdc00)) :: done)
            else none
        | _ => none
      else readString rest (.ofNat n :: done)
  | '\\' :: c :: rest, done =>
    match escaped? c with
    | none => none
    | some e => readString rest (e :: done)
  | c :: rest, done => if c.toNat < 0x20 then none else readString rest (c :: done)
  | [], _ => none

abbrev Reader := Shape → List Char → Option (Json × List Char)

def readItems (item : Reader) :
    Nat → List Shape → List Char → List Json → Option (List Json × List Char)
  | 0, _, _, _ => none
  | fuel + 1, shapes, cs, done =>
    match item (shapes.headD .any) cs with
    | none => none
    | some (j, rest) =>
      match skipSpace rest with
      | ',' :: rest => readItems item fuel shapes.tail rest (j :: done)
      | ']' :: rest => some ((j :: done).reverse, rest)
      | _ => none

def readMember (item : Reader) (length : Nat) (shape : Option Shape) (name : String)
    (cs : List Char) : Option (Option (String × Json) × List Char) :=
  match shape with
  | some shape => (item shape cs).map fun (j, rest) => (some (name, j), rest)
  | none => (skipValue length [] cs).map (none, ·)

def readMembers (item : Reader) (length : Nat) (shape : Shape) :
    Nat → List Char → List (String × Json) → Option (List (String × Json) × List Char)
  | 0, _, _ => none
  | fuel + 1, cs, done =>
    match skipSpace cs with
    | '"' :: rest =>
      match readString rest [] with
      | none => none
      | some (name, rest) =>
        match skipSpace rest with
        | ':' :: rest =>
          match readMember item length (shape.member? name) name rest with
          | none => none
          | some (found, rest) =>
            let done := found.toList ++ done
            match skipSpace rest with
            | ',' :: rest => readMembers item length shape fuel rest done
            | '\x7d' :: rest => some (done.reverse, rest)
            | _ => none
        | _ => none
    | _ => none

/-- Reads one value and leaves the text after it. No value has more than `length` parts. -/
def readValue (length : Nat) : Nat → Reader
  | depth, shape, cs =>
    match skipSpace cs with
    | '"' :: rest => (readString rest []).map fun (s, rest) => (.str s, rest)
    | 'n' :: rest => (skipWord ['u', 'l', 'l'] rest).map (.null, ·)
    | 't' :: rest => (skipWord ['r', 'u', 'e'] rest).map (.bool true, ·)
    | 'f' :: rest => (skipWord ['a', 'l', 's', 'e'] rest).map (.bool false, ·)
    | '[' :: rest =>
      match depth with
      | 0 => none
      | depth + 1 =>
        match skipSpace rest with
        | ']' :: rest => some (.arr [], rest)
        | _ =>
          (readItems (readValue length depth) length shape.items rest []).map fun (items, rest) =>
            (.arr items, rest)
    | '\x7b' :: rest =>
      match depth with
      | 0 => none
      | depth + 1 =>
        match skipSpace rest with
        | '\x7d' :: rest => some (.obj [], rest)
        | _ =>
          (readMembers (readValue length depth) length shape length rest []).map
            fun (members, rest) => (.obj members, rest)
    | cs => readNumber cs

def maxDepth : Nat := 127

def parseWithin (depth : Nat) (shape : Shape) (cs : List Char) : Option Json :=
  match readValue cs.length depth shape cs with
  | some (j, rest) => if (skipSpace rest).isEmpty then some j else none
  | none => none

/-- What is wanted of a text, members as written. -/
def parseAs? (shape : Shape) (text : String) : Option Json := parseWithin maxDepth shape text.toList

def parse? (text : String) : Option Json := parseAs? .any text

end SandboxHost.Json

import SandboxHost.Text.Numeral

namespace SandboxHost.Json

def isSpace (c : Char) : Bool := c == ' ' || c == '\n' || c == '\t' || c == '\r'

def skipSpace (cs : List Char) : List Char := cs.dropWhile isSpace

def hexValue? (c : Char) : Option Nat :=
  if 'a' ≤ c ∧ c ≤ 'f' then some (c.toNat - 87)
  else if 'A' ≤ c ∧ c ≤ 'F' then some (c.toNat - 55)
  else Numeral.digit? c

def hex4? (a b c d : Char) : Option Nat := do
  return (((← hexValue? a) * 16 + (← hexValue? b)) * 16 + (← hexValue? c)) * 16 + (← hexValue? d)

def escaped? : Char → Option Char
  | '"' => some '"'
  | '\\' => some '\\'
  | '/' => some '/'
  | 'b' => some '\x08'
  | 'f' => some '\x0c'
  | 'n' => some '\n'
  | 'r' => some '\r'
  | 't' => some '\t'
  | _ => none

def skipWord (word cs : List Char) : Option (List Char) :=
  if word.isPrefixOf cs then some (cs.drop word.length) else none

/-- Skips a text up to its closing quote. An escape by number needs four digits of any value. -/
def skipText : List Char → Option (List Char)
  | '"' :: rest => some rest
  | '\\' :: 'u' :: a :: b :: c :: d :: rest => if (hex4? a b c d).isSome then skipText rest else none
  | '\\' :: c :: rest => if (escaped? c).isSome then skipText rest else none
  | c :: rest => if c.toNat < 0x20 then none else skipText rest
  | [] => none

def skipDigits : List Char → Option (List Char)
  | [] => none
  | c :: rest =>
    if (Numeral.digit? c).isSome then some (rest.dropWhile fun c => (Numeral.digit? c).isSome) else none

def skipExponent : List Char → Option (List Char)
  | '+' :: rest | '-' :: rest => skipDigits rest
  | cs => skipDigits cs

def skipExponentPart : List Char → Option (List Char)
  | 'e' :: rest | 'E' :: rest => skipExponent rest
  | cs => some cs

/-- Skips a number after its sign. No digit follows a zero in front. -/
def skipMagnitude (cs : List Char) : Option (List Char) :=
  let whole := match cs with
    | '0' :: rest => if (rest.head?.bind Numeral.digit?).isSome then none else some rest
    | cs => skipDigits cs
  match whole with
  | some ('.' :: rest) => (skipDigits rest).bind skipExponentPart
  | some rest => skipExponentPart rest
  | none => none

def skipName (cs : List Char) : Option (List Char) :=
  match skipSpace cs with
  | '"' :: rest =>
    match (skipText rest).map skipSpace with
    | some (':' :: rest) => some rest
    | _ => none
  | _ => none

inductive Bracket where
  | list
  | object

/-- Skips a value that holds no other, or the beginning of one that does, up to the first in it. -/
def skipStart (cs : List Char) : Option (Option Bracket × List Char) :=
  match skipSpace cs with
  | '"' :: rest => (skipText rest).map (none, ·)
  | 'n' :: rest => (skipWord ['u', 'l', 'l'] rest).map (none, ·)
  | 't' :: rest => (skipWord ['r', 'u', 'e'] rest).map (none, ·)
  | 'f' :: rest => (skipWord ['a', 'l', 's', 'e'] rest).map (none, ·)
  | '-' :: rest => (skipMagnitude rest).map (none, ·)
  | '[' :: rest =>
    match skipSpace rest with
    | ']' :: rest => some (none, rest)
    | rest => some (some .list, rest)
  | '\x7b' :: rest =>
    match skipSpace rest with
    | '\x7d' :: rest => some (none, rest)
    | rest => (skipName rest).map (some .object, ·)
  | cs => (skipMagnitude cs).map (none, ·)

/-- Skips from the end of a value to the next one in the brackets that enclose it, innermost first, and
gives those that are still open there. -/
def skipEnd : List Bracket → List Char → Option (List Bracket × List Char)
  | [], cs => some ([], cs)
  | b :: outer, cs =>
    match b, skipSpace cs with
    | .list, ',' :: rest => some (b :: outer, rest)
    | .object, ',' :: rest => (skipName rest).map (b :: outer, ·)
    | .list, ']' :: rest => skipEnd outer rest
    | .object, '\x7d' :: rest => skipEnd outer rest
    | _, _ => none

/-- Skips a value in brackets and all that follows up to the last of them. Each round takes at least one
character. -/
def skipValue : Nat → List Bracket → List Char → Option (List Char)
  | 0, _, _ => none
  | fuel + 1, enclosing, cs =>
    match skipStart cs with
    | none => none
    | some (some b, rest) => skipValue fuel (b :: enclosing) rest
    | some (none, rest) =>
      match skipEnd enclosing rest with
      | none => none
      | some ([], rest) => some rest
      | some (enclosing, rest) => skipValue fuel enclosing rest

end SandboxHost.Json

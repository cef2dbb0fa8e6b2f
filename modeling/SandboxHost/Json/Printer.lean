import SandboxHost.Json.Basic
import SandboxHost.Number.Shortest

namespace SandboxHost.Json

def hexDigit (n : Nat) : Char := Nat.digitChar (n % 16)

def escapeChar (c : Char) : List Char :=
  if c = '"' then ['\\', '"']
  else if c = '\\' then ['\\', '\\']
  else if c = '\n' then ['\\', 'n']
  else if c = '\r' then ['\\', 'r']
  else if c = '\t' then ['\\', 't']
  else if c = '\x08' then ['\\', 'b']
  else if c = '\x0c' then ['\\', 'f']
  else if c.toNat < 0x20 then ['\\', 'u', '0', '0', hexDigit (c.toNat / 16), hexDigit c.toNat]
  else [c]

def quote (text : String) : String := .ofList ('"' :: text.toList.flatMap escapeChar ++ ['"'])

/-- Floats have a point or an exponent, positional below 10 ^ 16 and from 10 ^ -5 on. -/
def floatStyle : Decimal.Style := ⟨16, 4⟩

def renderFloat (x : Binary64) : String :=
  (if binary64.isNegative x.bits.toNat then "-" else "") ++
    if x.isZero then "0.0" else (Decimal.shortest ⟨x.bits &&& 0x7fffffffffffffff⟩).render floatStyle

def renderScalar : Json → String
  | .null => "null"
  | .bool true => "true"
  | .bool false => "false"
  | .int n => toString n
  | .float x => renderFloat x
  | .str s => quote s
  | _ => ""

mutual

def render : Json → String
  | .arr items => "[" ++ ",".intercalate (renderItems items) ++ "]"
  | .obj members => "\x7b" ++ ",".intercalate (renderMembers members) ++ "\x7d"
  | .null => renderScalar .null
  | .bool b => renderScalar (.bool b)
  | .int n => renderScalar (.int n)
  | .float x => renderScalar (.float x)
  | .str s => renderScalar (.str s)

def renderItems : List Json → List String
  | [] => []
  | j :: rest => render j :: renderItems rest

def renderMembers : List (String × Json) → List String
  | [] => []
  | (k, v) :: rest => (quote k ++ ":" ++ render v) :: renderMembers rest

end

def bracketed (opening closing : String) (indent : String) (lines : List String) : String :=
  if lines.isEmpty then opening ++ closing
  else
    let inner := indent ++ "  "
    opening ++ "\n" ++ (",\n".intercalate (lines.map (inner ++ ·))) ++ "\n" ++ indent ++ closing

mutual

def pretty (indent : String) : Json → String
  | .arr items => bracketed "[" "]" indent (prettyItems (indent ++ "  ") items)
  | .obj members => bracketed "\x7b" "\x7d" indent (prettyMembers (indent ++ "  ") members)
  | .null => renderScalar .null
  | .bool b => renderScalar (.bool b)
  | .int n => renderScalar (.int n)
  | .float x => renderScalar (.float x)
  | .str s => renderScalar (.str s)

def prettyItems (indent : String) : List Json → List String
  | [] => []
  | j :: rest => pretty indent j :: prettyItems indent rest

def prettyMembers (indent : String) : List (String × Json) → List String
  | [] => []
  | (k, v) :: rest => (quote k ++ ": " ++ pretty indent v) :: prettyMembers indent rest

end

end SandboxHost.Json

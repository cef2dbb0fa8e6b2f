import SandboxHost.Text.Printable

namespace SandboxHost.Quoted

def hexDigits (n : Nat) : String := .ofList (Nat.toDigits 16 n)

def escapeChar (c : Char) : String :=
  if c = '"' then "\\\""
  else if c = '\\' then "\\\\"
  else if c = '\n' then "\\n"
  else if c = '\r' then "\\r"
  else if c = '\t' then "\\t"
  else if c = '\x00' then "\\0"
  else if isPrintable c then c.toString
  else "\\u\x7b" ++ hexDigits c.toNat ++ "\x7d"

def render (text : String) : String := "\"" ++ String.join (text.toList.map escapeChar) ++ "\""

end SandboxHost.Quoted

import SandboxHost.Json.Basic
import SandboxHost.Text.Numeral

namespace SandboxHost.Json

/-- A run of digits: the leading ones that fit into 64 bits as one number, how many those are, how
many are left out after them, and the rest of the text. -/
structure DigitRun where
  value : Nat
  kept : Nat
  dropped : Nat
  rest : List Char

def readDigits : List Char → Nat → Nat → Nat → DigitRun
  | [], value, kept, dropped => ⟨value, kept, dropped, []⟩
  | c :: rest, value, kept, dropped =>
    match Numeral.digit? c with
    | none => ⟨value, kept, dropped, c :: rest⟩
    | some d =>
      if dropped = 0 ∧ value * 10 + d ≤ 0xffffffffffffffff then
        readDigits rest (value * 10 + d) (kept + 1) 0
      else readDigits rest value kept (dropped + 1)

/-- The largest power of ten below infinity, as an exponent. -/
def lastPower : Nat := 308

/-- Multiplies or divides by a power of ten, in steps of 10 ^ 308 when dividing by more than that.
Going beyond the largest number is an error. -/
def scale (x : Binary64) : Int → Nat → Option Binary64
  | .ofNat k, _ =>
    if x.isZero then some x
    else if k ≤ lastPower then
      let y := x.mul (Binary64.powerOfTen k)
      if y.isFinite then some y else none
    else none
  | .negSucc k, 0 => if k < lastPower then some (x.div (Binary64.powerOfTen (k + 1))) else some x
  | .negSucc k, steps + 1 =>
    if k < lastPower then some (x.div (Binary64.powerOfTen (k + 1)))
    else if x.isZero then some x
    else scale (x.div (Binary64.powerOfTen lastPower)) (.negSucc k + lastPower) steps

/-- The number `digits * 10 ^ exponent`. Three divisions by 10 ^ 308 leave nothing of any digits. -/
def ofDigits (negative : Bool) (digits : Nat) (exponent : Int) : Option Json := do
  let x ← scale (Binary64.ofInt digits) exponent 3
  return .float (if negative then x.negate else x)

def readExponent (cs : List Char) : Option (Int × List Char) :=
  let (down, cs) := match cs with
    | '+' :: rest => (false, rest)
    | '-' :: rest => (true, rest)
    | _ => (false, cs)
  match cs with
  | [] => none
  | c :: _ =>
    if (Numeral.digit? c).isNone then none
    else
      let run := readDigits cs 0 0 0
      let size : Int := if run.dropped = 0 then run.value else 0xffffffffffffffff
      some (if down then -size else size, run.rest)

def readScaled (negative : Bool) (digits : Nat) (exponent : Int) :
    List Char → Option (Json × List Char)
  | c :: rest =>
    if c = 'e' ∨ c = 'E' then do
      let (power, rest) ← readExponent rest
      return (← ofDigits negative digits (exponent + power), rest)
    else do return (← ofDigits negative digits exponent, c :: rest)
  | [] => do return (← ofDigits negative digits exponent, [])

/-- The digits after the point. A digit that no longer fits ends the digits that count. -/
def readFraction (negative : Bool) (whole : DigitRun) (cs : List Char) : Option (Json × List Char) :=
  match cs with
  | [] => none
  | c :: _ =>
    if (Numeral.digit? c).isNone then none
    else
      let run := readDigits cs whole.value 0 0
      readScaled negative run.value (whole.dropped - run.kept) run.rest

def readMagnitude (negative : Bool) (cs : List Char) : Option (Json × List Char) :=
  match cs with
  | [] => none
  | c :: after =>
    if (Numeral.digit? c).isNone then none
    else
      let run := if c = '0' then ⟨0, 1, 0, after⟩ else readDigits cs 0 0 0
      match run.rest with
      | '.' :: rest => readFraction negative run rest
      | rest =>
        if c = '0' ∧ (rest.head?.bind Numeral.digit?).isSome then none
        else if run.dropped ≠ 0 ∨ rest.head? = some 'e' ∨ rest.head? = some 'E' then
          readScaled negative run.value run.dropped rest
        else if !negative then some (.int run.value, rest)
        else if 0 < run.value ∧ run.value ≤ 0x8000000000000000 then some (.int (-run.value), rest)
        else some (.float (Binary64.ofInt run.value).negate, rest)

def readNumber : List Char → Option (Json × List Char)
  | '-' :: rest => readMagnitude true rest
  | cs => readMagnitude false cs

end SandboxHost.Json

import SandboxHost.Number.Binary

namespace SandboxHost

structure Decimal where
  digits : Nat
  exponent : Int

namespace Decimal

def powerOfTen : Int → Fraction
  | .ofNat k => ⟨Nat.pow 10 k, 1⟩
  | .negSucc k => ⟨1, Nat.pow 10 (k + 1)⟩

/-- The numbers that round to a value: the closed or open stretch between two fractions over one
denominator. -/
structure Stretch where
  value : Fraction
  low : Nat
  high : Nat
  closed : Bool

def Stretch.of (x : Binary64) : Stretch :=
  let (m, e) := binary64.decode x.bits.toNat
  let below := if m = 0x10000000000000 ∧ e ≠ binary64.least then 1 else 2
  let unit := Fraction.scaled 1 (e - 2)
  ⟨⟨4 * m * unit.num, unit.den⟩, (4 * m - below) * unit.num, (4 * m + 2) * unit.num, m % 2 = 0⟩

def Stretch.contains (s : Stretch) (d : Decimal) : Bool :=
  let p := powerOfTen d.exponent
  let point := d.digits * p.num * s.value.den
  let low := s.low * p.den
  let high := s.high * p.den
  if s.closed then low ≤ point && point ≤ high else low < point && point < high

/-- The nearer of two neighbours on the grid of `10 ^ k`, given their quotient and remainder. -/
def Stretch.neighbour? (s : Stretch) (k : Int) : Option Decimal :=
  let p := powerOfTen k
  let num := s.value.num * p.den
  let den := s.value.den * p.num
  let lower : Decimal := ⟨num / den, k⟩
  let upper : Decimal := ⟨num / den + 1, k⟩
  let r := num % den
  let preferLower := 2 * r < den || (2 * r == den && num / den % 2 == 0)
  match s.contains lower, s.contains upper with
  | true, true => some (if preferLower then lower else upper)
  | true, false => some lower
  | false, true => some upper
  | false, false => none

def Stretch.search (s : Stretch) : Int → Nat → Option Decimal
  | _, 0 => none
  | k, tries + 1 => match s.neighbour? k with
    | some d => some d
    | none => search s (k - 1) tries

def trim : Nat → Decimal → Decimal
  | 0, d => d
  | fuel + 1, d =>
    if d.digits % 10 = 0 && d.digits != 0 then trim fuel ⟨d.digits / 10, d.exponent + 1⟩ else d

/-- The shortest decimal of a finite, positive number. The first grid is coarser than the number
itself, and nineteen places below it every stretch holds a point. -/
def shortest (x : Binary64) : Decimal :=
  let s := Stretch.of x
  let size : Int := (s.value.num.log2 : Int) - s.value.den.log2
  let top : Int := (size * 30103).fdiv 100000 + 2
  match s.search top 24 with
  | some d => trim 24 d
  | none => ⟨0, 0⟩

/-- Where positional writing ends: the decimal point may stand after at most `whole` digits, and at
most `zeros` zeros may follow it. -/
structure Style where
  whole : Int
  zeros : Int

def renderPower (power : Int) : String := (if power < 0 then "e" else "e+") ++ toString power

def render (style : Style) (d : Decimal) : String :=
  let ds := (toString d.digits).toList
  let point : Int := ds.length + d.exponent
  if 0 ≤ d.exponent ∧ point ≤ style.whole then
    .ofList (ds ++ List.replicate d.exponent.toNat '0') ++ ".0"
  else if 0 < point ∧ point ≤ style.whole then
    .ofList (ds.take point.toNat) ++ "." ++ .ofList (ds.drop point.toNat)
  else if -style.zeros ≤ point ∧ point ≤ 0 then
    "0." ++ .ofList (List.replicate (-point).toNat '0' ++ ds)
  else
    let power := renderPower (point - 1)
    match ds with
    | [] => "0" ++ power
    | [c] => .ofList [c] ++ power
    | c :: rest => .ofList (c :: '.' :: rest) ++ power

end Decimal

end SandboxHost

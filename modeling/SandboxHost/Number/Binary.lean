namespace SandboxHost

/-- A binary format: `precision` counts the hidden bit, and `least` is the exponent of the last place
of the smallest numbers. -/
structure BinaryFormat where
  precision : Nat
  exponentBits : Nat
  least : Int

def binary32 : BinaryFormat := ⟨24, 8, -149⟩

def binary64 : BinaryFormat := ⟨53, 11, -1074⟩

structure Fraction where
  num : Nat
  den : Nat

namespace Fraction

def scaled (m : Nat) : Int → Fraction
  | .ofNat e => ⟨m * Nat.pow 2 e, 1⟩
  | .negSucc e => ⟨m, Nat.pow 2 (e + 1)⟩

def mul (x y : Fraction) : Fraction := ⟨x.num * y.num, x.den * y.den⟩

def div (x y : Fraction) : Fraction := ⟨x.num * y.den, x.den * y.num⟩

end Fraction

/-- The nearest natural to `num / den`, a half going to the even neighbour. -/
def roundHalfEven (num den : Nat) : Nat :=
  let q := num / den
  let r := num % den
  if 2 * r < den then q
  else if den < 2 * r then q + 1
  else if q % 2 = 0 then q else q + 1

namespace BinaryFormat

def signWeight (f : BinaryFormat) : Nat := Nat.pow 2 (f.precision - 1 + f.exponentBits)

def infinity (f : BinaryFormat) : Nat := (Nat.pow 2 f.exponentBits - 1) * Nat.pow 2 (f.precision - 1)

def magnitude (f : BinaryFormat) (bits : Nat) : Nat := bits % f.signWeight

def isNegative (f : BinaryFormat) (bits : Nat) : Bool := f.signWeight ≤ bits

def isFinite (f : BinaryFormat) (bits : Nat) : Bool := f.magnitude bits < f.infinity

/-- The digits `m` and exponent `e` with magnitude `m * 2 ^ e`. -/
def decode (f : BinaryFormat) (bits : Nat) : Nat × Int :=
  let hidden := Nat.pow 2 (f.precision - 1)
  let m := f.magnitude bits
  let stored := m / hidden
  if stored = 0 then (m, f.least) else (m % hidden + hidden, f.least + (stored - 1 : Nat))

def toFraction (f : BinaryFormat) (bits : Nat) : Fraction :=
  Fraction.scaled (f.decode bits).1 (f.decode bits).2

/-- The pattern of `m * 2 ^ e`, where `m` has at most `precision` digits or is the next power of two,
and all of them if `e` is above the least exponent. -/
def assemble (f : BinaryFormat) (m : Nat) (e : Int) : Nat :=
  let hidden := Nat.pow 2 (f.precision - 1)
  let pattern := if m < hidden then m else (e - f.least).toNat * hidden + m
  min pattern f.infinity

/-- The nearest pattern to a fraction; what lies beyond the largest number becomes infinity. -/
def round (f : BinaryFormat) (x : Fraction) : Nat :=
  if x.num = 0 then 0 else
  let guess : Int := (x.num.log2 : Int) - x.den.log2 - f.precision
  let digits (e : Int) : Fraction := x.div (Fraction.scaled 1 e)
  let low := max guess f.least
  let e := if (digits low).num / (digits low).den < Nat.pow 2 f.precision then low else low + 1
  f.assemble (roundHalfEven (digits e).num (digits e).den) e

def ofInt (f : BinaryFormat) (n : Int) : Nat :=
  f.round ⟨n.natAbs, 1⟩ + if n < 0 then f.signWeight else 0

end BinaryFormat

/-- A double-precision number is told apart from others by its bit pattern. -/
structure Binary64 where
  bits : UInt64
  deriving DecidableEq, Inhabited

namespace Binary64

def ofNat (n : Nat) : Binary64 := ⟨n.toUInt64⟩

def isFinite (x : Binary64) : Bool := binary64.isFinite x.bits.toNat

def isZero (x : Binary64) : Bool := binary64.magnitude x.bits.toNat == 0

def negate (x : Binary64) : Binary64 := ⟨x.bits ^^^ 0x8000000000000000⟩

def ofInt (n : Int) : Binary64 := ofNat (binary64.ofInt n)

/-- The number a single-precision pattern stands for, unless it is infinite or no number. -/
def ofSingle? (bits : UInt32) : Option Binary64 :=
  if binary32.isFinite bits.toNat then
    let sign := if binary32.isNegative bits.toNat then binary64.signWeight else 0
    some (ofNat (binary64.round (binary32.toFraction bits.toNat) + sign))
  else none

def mul (x y : Binary64) : Binary64 :=
  ofNat (binary64.round ((binary64.toFraction x.bits.toNat).mul (binary64.toFraction y.bits.toNat)))

def div (x y : Binary64) : Binary64 :=
  ofNat (binary64.round ((binary64.toFraction x.bits.toNat).div (binary64.toFraction y.bits.toNat)))

def powerOfTen (k : Nat) : Binary64 := ofNat (binary64.round ⟨Nat.pow 10 k, 1⟩)

end Binary64

end SandboxHost

/-
# Words and binary floating-point numbers of 64 bits

A word holds the whole numbers of so many binary digits, with or without a sign. A `Binary64` is a
64-bit word read as sign, exponent and fraction. Arithmetic is exact arithmetic on fractions of natural
numbers, rounded once to the nearest word, a tie to the even one. The order is that of the integer
`rank`, so it is total, and on finite numbers it is the order of the values.

`Binary64.text` writes the fewest digits that read back as the same word.

Key definitions: `twoTo`, `tenTo`, `Word.isSigned`, `Word.isUnsigned`, `Binary64`,
`Binary64.ofRatio`, `Binary64.rank`, `Binary64.shortest`, `Binary64.text`.
Key theorems: `Binary64.lt_trans`, `Binary64.le_total`.
-/
namespace CodeAtlas

/-- A power of two. -/
def twoTo (n : Nat) : Nat := Nat.pow 2 n

/-- A power of ten. -/
def tenTo (n : Nat) : Nat := Nat.pow 10 n

namespace Word

/-- Whether a number fits into a signed word of sixty-four digits. -/
def isSigned (n : Int) : Bool := -(twoTo 63 : Int) ≤ n && n < (twoTo 63 : Int)

/-- Whether a number fits into an unsigned word of so many digits. -/
def isUnsigned (width : Nat) (n : Int) : Bool := 0 ≤ n && n < (twoTo width : Int)

end Word

/-- A floating-point number by its 64 bits. -/
structure Binary64 where
  bits : UInt64
  deriving DecidableEq, Inhabited

namespace Binary64

/-- The bits without the sign. -/
def magnitude (x : Binary64) : Nat := x.bits.toNat % twoTo 63

/-- Whether the sign bit is set. -/
def negative (x : Binary64) : Bool := twoTo 63 ≤ x.bits.toNat

/-- The exponent field, all ones for infinities and what is not a number. -/
def exponentField (x : Binary64) : Nat := x.magnitude / twoTo 52

/-- The fraction field. -/
def fractionField (x : Binary64) : Nat := x.magnitude % twoTo 52

/-- Whether the word stands for a number. -/
def isFinite (x : Binary64) : Bool := x.exponentField < 2047

/-- Position in the order of the numbers: both zeros are at `0`. -/
def rank (x : Binary64) : Int := if x.negative then -(x.magnitude : Int) else x.magnitude

instance : LT Binary64 := ⟨fun x y => x.rank < y.rank⟩
instance : LE Binary64 := ⟨fun x y => x.rank ≤ y.rank⟩
instance (x y : Binary64) : Decidable (x < y) := inferInstanceAs (Decidable (x.rank < y.rank))
instance (x y : Binary64) : Decidable (x ≤ y) := inferInstanceAs (Decidable (x.rank ≤ y.rank))

theorem lt_def {x y : Binary64} : x < y ↔ x.rank < y.rank := Iff.rfl
theorem le_def {x y : Binary64} : x ≤ y ↔ x.rank ≤ y.rank := Iff.rfl

theorem lt_trans {x y z : Binary64} (h : x < y) (h' : y < z) : x < z := Int.lt_trans h h'
theorem le_total (x y : Binary64) : x ≤ y ∨ y ≤ x := Int.le_total _ _

/-- The whole number `m` and the power of two `e` with `|x| = m · 2 ^ e`. -/
def decode (x : Binary64) : Nat × Int :=
  if x.exponentField = 0 then (x.fractionField, -1074)
  else (twoTo 52 + x.fractionField, (x.exponentField : Int) - 1075)

/-- The size of a finite number as a fraction of natural numbers. -/
def ratio (x : Binary64) : Nat × Nat :=
  let (m, e) := x.decode
  if 0 ≤ e then (m * twoTo e.toNat, 1) else (m, twoTo (-e).toNat)

/-- The word of a magnitude with a sign. -/
def ofMagnitude (negative : Bool) (magnitude : Nat) : Binary64 :=
  ⟨UInt64.ofNat (if negative then twoTo 63 + magnitude else magnitude)⟩

/-- The quotient rounded to the nearest whole number, a tie to the even one. -/
def roundDiv (num den : Nat) : Nat :=
  let q := num / den
  let r := num % den
  if 2 * r < den then q
  else if den < 2 * r then q + 1
  else if q % 2 = 0 then q else q + 1

/-- The quotient of `num / den` by `2 ^ e`, rounded. -/
def roundScaled (num den : Nat) (e : Int) : Nat :=
  if 0 ≤ e then roundDiv num (den * twoTo e.toNat) else roundDiv (num * twoTo (-e).toNat) den

/-- Whether `num / den` is below `2 ^ (52 + e)`. -/
def isBelow (num den : Nat) (e : Int) : Bool :=
  if 0 ≤ e then num < den * twoTo (52 + e.toNat) else num * twoTo (-e).toNat < den * twoTo 52

/-- The exponent at which `num / den` has 53 binary digits before the point, but no smaller than that
of the smallest number. -/
def scale (num den : Nat) : Int :=
  let e : Int := (num.log2 : Int) - den.log2 - 52
  let e := if isBelow num den e then e - 1 else e
  if e < -1074 then -1074 else e

/-- The magnitude of infinity. -/
def infinite : Nat := 2047 * twoTo 52

/-- The number nearest to `num / den`, a tie to the even word, infinity where it is too large. -/
def ofRatio (negative : Bool) (num den : Nat) : Binary64 :=
  if num = 0 then ofMagnitude negative 0
  else
    let e := scale num den
    ofMagnitude negative (min infinite ((e + 1074).toNat * twoTo 52 + roundScaled num den e))

/-- The number nearest to a whole number. -/
def ofInt (n : Int) : Binary64 := ofRatio (n < 0) n.natAbs 1

/-- The number nearest to `m · 10 ^ e`. -/
def ofDecimal (m : Nat) (e : Int) : Binary64 :=
  if 0 ≤ e then ofRatio false (m * tenTo e.toNat) 1 else ofRatio false m (tenTo (-e).toNat)

/-- The opposite number. -/
def neg (x : Binary64) : Binary64 := ofMagnitude (!x.negative) x.magnitude

/-- The product of two finite numbers, rounded. -/
def mul (x y : Binary64) : Binary64 :=
  ofRatio (x.negative != y.negative) (x.ratio.1 * y.ratio.1) (x.ratio.2 * y.ratio.2)

/-- The quotient of two finite numbers, rounded; the divisor is not zero. -/
def div (x y : Binary64) : Binary64 :=
  ofRatio (x.negative != y.negative) (x.ratio.1 * y.ratio.2) (x.ratio.2 * y.ratio.1)

/-- The sum of two finite numbers, rounded. -/
def add (x y : Binary64) : Binary64 :=
  let a := x.ratio
  let b := y.ratio
  let signed (neg : Bool) (n : Nat) : Int := if neg then -(n : Int) else n
  let sum := signed x.negative (a.1 * b.2) + signed y.negative (b.1 * a.2)
  ofRatio (if sum = 0 then x.negative && y.negative else sum < 0) sum.natAbs (a.2 * b.2)

/-- The smaller of two numbers. -/
def min (x y : Binary64) : Binary64 := if y < x then y else x

/-- The number brought into the range from `low` to `high`. -/
def clamp (x low high : Binary64) : Binary64 :=
  if x < low then low else if high < x then high else x

/-! ## The shortest decimal -/

/-- The number of decimal digits of `n`, none for zero. -/
def digitCount (n : Nat) : Nat := if n = 0 then 0 else (Nat.toDigits 10 n).length

/-- The exponent of the first decimal digit of `num / den`, which is not zero. -/
def leadingExponent (num den : Nat) : Int :=
  if den ≤ num then (digitCount (num / den) : Int) - 1
  else -(digitCount ((den - 1) / num) : Int)

/-- A decimal `digits · 10 ^ exponent`. -/
structure Decimal where
  digits : Nat
  exponent : Int
  deriving DecidableEq

/-- The number a decimal reads back as. -/
def Decimal.value (d : Decimal) : Binary64 := ofDecimal d.digits d.exponent

/-- Of the two decimals next to `num / den` at the given exponent, those that read back as `x`, the
nearer one first. -/
def readBack? (x : Binary64) (num den : Nat) (exponent : Int) : Option Decimal :=
  let (a, b) :=
    if 0 ≤ exponent then (num, den * tenTo exponent.toNat) else (num * tenTo (-exponent).toNat, den)
  let low : Decimal := ⟨a / b, exponent⟩
  let high : Decimal := ⟨a / b + 1, exponent⟩
  let order := if 2 * (a % b) < b || (2 * (a % b) == b && a / b % 2 == 0) then [low, high] else [high, low]
  order.find? fun d => d.value == x

/-- The decimal with the fewest digits that reads back as the finite positive number `x`, tried for
`count` digits more than `done`. -/
def shortestFrom (x : Binary64) (num den : Nat) (lead : Int) : Nat → Nat → Decimal
  | 0, _ => ⟨num / den, 0⟩
  | count + 1, done =>
    match readBack? x num den (lead - done) with
    | some d => d
    | none => shortestFrom x num den lead count (done + 1)

/-- The decimal with the fewest digits that reads back as the size of `x`, the nearest of those. -/
def shortest (x : Binary64) : Decimal :=
  let x := ofMagnitude false x.magnitude
  let (num, den) := x.ratio
  if num = 0 then ⟨0, 0⟩ else shortestFrom x num den (leadingExponent num den) 17 0

/-- How a number is laid out: the exponents of the first digit written without an exponent mark, and
the texts of the mark for large and for small numbers. -/
structure Layout where
  lowest : Int
  highest : Int
  largeMark : String
  smallMark : String

/-- From `0.00001` to `9999999999999999.0` all places are written out; beyond, the first digit is
followed by the others and the exponent with its sign. -/
def layout : Layout := ⟨-5, 15, "e+", "e-"⟩

/-- The digits of a whole number in base ten. -/
def decimalText (n : Nat) : String := String.ofList (Nat.toDigits 10 n)

/-- The text of a decimal whose first digit has the exponent `lead`. -/
def Layout.write (l : Layout) (digits : List Char) (lead : Int) : String :=
  if lead < l.lowest || l.highest < lead then
    let fraction := digits.drop 1
    String.ofList (digits.take 1 ++ (if fraction.isEmpty then [] else '.' :: fraction)) ++
      (if lead < 0 then l.smallMark else l.largeMark) ++ decimalText lead.natAbs
  else if lead < 0 then
    "0." ++ String.ofList (List.replicate (lead.natAbs - 1) '0' ++ digits)
  else
    let places := lead.toNat + 1
    let whole := digits.take places ++ List.replicate (places - digits.length) '0'
    let fraction := digits.drop places
    String.ofList (whole ++ '.' :: (if fraction.isEmpty then ['0'] else fraction))

/-- The digits of the decimal without zeros at the end. -/
def Decimal.significant (d : Decimal) : List Char :=
  let digits := Nat.toDigits 10 d.digits
  let kept := (digits.reverse.dropWhile (· == '0')).reverse
  if kept.isEmpty then ['0'] else kept

/-- The text of a finite number: the fewest digits that read back as the same word. -/
def text (x : Binary64) : String :=
  let d := x.shortest
  let lead : Int := if d.digits = 0 then 0 else ((Nat.toDigits 10 d.digits).length : Int) - 1 + d.exponent
  (if x.negative then "-" else "") ++ layout.write d.significant lead

end Binary64

end CodeAtlas

/-
# Numbers as they are written

A numeral is a number as its digits stand in a JSON text. Its value is a whole number where it has
neither fraction nor exponent and fits 64 bits. Otherwise it is computed in floating point: as many
leading digits as fit an unsigned 64-bit integer, times or divided by a power of ten. A value beyond
the largest number is refused.

Key definitions: `Numeral`, `Numeral.ofChars?`, `Numeral.value?`.
-/
import CodeAtlas.Binary64
import CodeAtlas.Json

namespace CodeAtlas

/-- A number as its digits are written. -/
structure Numeral where
  negative : Bool
  whole : List Nat
  fraction : Option (List Nat)
  exponent : Option (Bool × List Nat)
  deriving DecidableEq

namespace Numeral

/-- The value of a decimal digit. -/
def digit? (c : Char) : Option Nat := if c.isDigit then some (c.toNat - 48) else none

/-- The digits at the start of the characters, and what follows them. -/
def digits : List Char → List Nat × List Char
  | [] => ([], [])
  | c :: cs =>
    match digit? c with
    | some d => let (ds, rest) := digits cs; (d :: ds, rest)
    | none => ([], c :: cs)

/-- The sign and digits of an exponent that make up all the characters. -/
def exponent? : List Char → Option (Bool × List Nat)
  | '-' :: cs => finish true (digits cs)
  | '+' :: cs => finish false (digits cs)
  | cs => finish false (digits cs)
where
  /-- At least one digit, and nothing after the digits. -/
  finish (negative : Bool) : List Nat × List Char → Option (Bool × List Nat)
    | (d :: ds, []) => some (negative, d :: ds)
    | _ => none

/-- Whether the whole part may be written so: no zero before another digit. -/
def wholeOk : List Nat → Bool
  | [] => false
  | [_] => true
  | d :: _ => d != 0

/-- The exponent after a mark, or the end. -/
def tail? (negative : Bool) (whole : List Nat) (fraction : Option (List Nat)) :
    List Char → Option Numeral
  | [] => some ⟨negative, whole, fraction, none⟩
  | c :: cs =>
    if c == 'e' || c == 'E' then
      (exponent? cs).map fun e => ⟨negative, whole, fraction, some e⟩
    else none

/-- The numeral without its sign. -/
def unsigned? (negative : Bool) (cs : List Char) : Option Numeral :=
  let (whole, rest) := digits cs
  if !wholeOk whole then none
  else match rest with
    | '.' :: rest =>
      match digits rest with
      | ([], _) => none
      | (fraction, rest) => tail? negative whole (some fraction) rest
    | rest => tail? negative whole none rest

/-- The numeral that all the characters make up. -/
def ofChars? : List Char → Option Numeral
  | '-' :: cs => unsigned? true cs
  | cs => unsigned? false cs

/-- The largest unsigned 64-bit integer. -/
def wordMax : Nat := twoTo 64 - 1

/-- The largest exponent that is read digit by digit. -/
def exponentMax : Nat := twoTo 31 - 1

/-- Takes in digits while the number stays within `limit`: the number, how many digits it took, and
the digits left. -/
def absorb (limit : Nat) : Nat → List Nat → Nat × Nat × List Nat
  | n, [] => (n, 0, [])
  | n, d :: ds =>
    if limit < n * 10 + d then (n, 0, d :: ds)
    else
      let (m, count, rest) := absorb limit (n * 10 + d) ds
      (m, count + 1, rest)

/-- `f · 10 ^ e` in floating point, by one multiplication or division where the power is a number of
its own, and by dividing by the largest power before that. Nothing where it is too large. -/
def scale? : Nat → Binary64 → Int → Option Binary64
  | 0, f, _ => some f
  | fuel + 1, f, e =>
    if e.natAbs ≤ 308 then
      let power := Binary64.ofDecimal 1 e.natAbs
      if 0 ≤ e then
        let product := f.mul power
        if product.isFinite then some product else none
      else some (f.div power)
    else if f.magnitude = 0 then some f
    else if 0 ≤ e then none
    else scale? fuel (f.div (Binary64.ofDecimal 1 308)) (e + 308)

/-- The floating-point number with the given sign, leading digits and power of ten. -/
def ofParts? (negative : Bool) (significand : Nat) (e : Int) : Option Number :=
  (scale? 4 (Binary64.ofInt significand) e).map fun f =>
    .float (if negative then f.neg else f)

/-- The value of a numeral. -/
def value? (n : Numeral) : Option Number :=
  let (significand, _, rest) := absorb wordMax 0 n.whole
  match n.fraction, n.exponent, rest with
  | none, none, [] =>
    if !n.negative then some (.whole significand)
    else if significand = 0 || twoTo 63 < significand then
      some (.float (Binary64.ofInt significand).neg)
    else some (.whole (-significand))
  | fraction, exponent, rest =>
    let (significand, taken, _) := absorb wordMax significand (fraction.getD [])
    let start : Int := rest.length - taken
    match exponent with
    | none => ofParts? n.negative significand start
    | some (below, ds) =>
      let (e, _, more) := absorb exponentMax 0 ds
      if more.isEmpty then ofParts? n.negative significand (if below then start - e else start + e)
      else if significand != 0 && !below then none
      else some (.float (Binary64.ofMagnitude n.negative 0))

end Numeral

end CodeAtlas

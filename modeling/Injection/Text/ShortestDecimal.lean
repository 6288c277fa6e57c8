/-
  The shortest decimal text of a binary floating-point number.

  A number is read from its bits as `mantissa * 2 ^ exponent`.  The reals
  nearer to it than to its neighbours form an interval around it; among the
  decimals in that interval the text takes one with the fewest significant
  digits, and of those the one nearest to the number.  All comparisons are of
  exact integers.

  * `NumberFormat.read` decodes bits, `shortest` finds the decimal;
  * `Decimal.plain` writes a decimal without an exponent and without a point
    where none is needed.
-/

namespace Injection.Text

/-! ## Binary numbers -/

/-- The widths of the fraction and exponent fields of a binary interchange format. -/
structure NumberFormat where
  fractionBits : Nat
  exponentBits : Nat

def single : NumberFormat := ⟨23, 8⟩

def double : NumberFormat := ⟨52, 11⟩

/-- A positive number `mantissa * 2 ^ exponent`. -/
structure Binary where
  mantissa : Nat
  exponent : Int
  /-- The next number below is only half as far away as the next one above. -/
  closerBelow : Bool

/-- What the bits without the sign stand for. -/
inductive Magnitude where
  | zero
  | finite (value : Binary)
  | infinite
  | notANumber

/-- The largest value of the exponent field, kept for infinities and what is no number. -/
def NumberFormat.topExponent (format : NumberFormat) : Nat := Nat.pow 2 format.exponentBits - 1

/-- The exponent of the smallest numbers. -/
def NumberFormat.leastExponent (format : NumberFormat) : Int :=
  2 - (Nat.pow 2 (format.exponentBits - 1) : Int) - format.fractionBits

/-- Decodes the bits below the sign bit. -/
def NumberFormat.read (format : NumberFormat) (bits : Nat) : Magnitude :=
  let fraction := bits % Nat.pow 2 format.fractionBits
  let exponent := bits / Nat.pow 2 format.fractionBits % Nat.pow 2 format.exponentBits
  if exponent = format.topExponent then
    if fraction = 0 then .infinite else .notANumber
  else if exponent = 0 then
    if fraction = 0 then .zero else .finite ⟨fraction, format.leastExponent, false⟩
  else
    .finite ⟨Nat.pow 2 format.fractionBits + fraction,
      format.leastExponent + (exponent - 1 : Nat), fraction = 0 && exponent != 1⟩

def NumberFormat.isNegative (format : NumberFormat) (bits : Nat) : Bool :=
  bits / Nat.pow 2 (format.fractionBits + format.exponentBits) % 2 == 1

/-! ## Decimals -/

/-- The number `digits * 10 ^ exponent`. -/
structure Decimal where
  digits : Nat
  exponent : Int

/-- Moves trailing zeros of the digits into the exponent. -/
def Decimal.trimZeros (d : Decimal) : Decimal :=
  if h : d.digits ≠ 0 ∧ d.digits % 10 = 0 then
    (Decimal.mk (d.digits / 10) (d.exponent + 1)).trimZeros
  else d
termination_by d.digits
decreasing_by exact Nat.div_lt_self (Nat.pos_of_ne_zero h.1) (by decide)

/-- The digits, with zeros up to the point or a point among them, as the exponent asks. -/
def Decimal.plain (d : Decimal) : String :=
  let digits := Nat.toDigits 10 d.digits
  match d.exponent with
  | .ofNat zeros => String.ofList (digits ++ List.replicate zeros '0')
  | .negSucc n =>
    let places := n + 1
    let padded := List.replicate (places + 1 - digits.length) '0' ++ digits
    let whole := padded.length - places
    String.ofList (padded.take whole ++ '.' :: padded.drop whole)

/-! ## The shortest decimal -/

def decimalLength (n : Nat) : Nat := (Nat.toDigits 10 n).length

/-- A power with an integer exponent as a numerator and a denominator. -/
def powerRatio (base : Nat) : Int → Nat × Nat
  | .ofNat n => (Nat.pow base n, 1)
  | .negSucc n => (1, Nat.pow base (n + 1))

/-- The interval of the reals that read back as a number, in quarters of the number's unit. -/
structure Interval where
  low : Nat
  centre : Nat
  high : Nat
  /-- Whether the ends read back as the number too. -/
  closed : Bool

/-- The interval of a number: half a unit on both sides, a quarter below where the numbers there
    are closer together; its ends belong to it when the mantissa is even. -/
def Binary.interval (b : Binary) : Interval :=
  ⟨4 * b.mantissa - (if b.closerBelow then 1 else 2), 4 * b.mantissa, 4 * b.mantissa + 2,
    b.mantissa % 2 = 0⟩

/-- The exponent of the leading decimal digit of `num / den`. -/
def leadingExponent (num den : Nat) : Int :=
  if den ≤ num then decimalLength (num / den) - 1
  else -(decimalLength ((den - 1) / num) : Int)

/-- The multiple of `10 ^ exponent` nearest to the number, the larger one of two, provided it
    reads back as the number. -/
def Binary.nearestOn (b : Binary) (exponent : Int) : Option Decimal :=
  let around := b.interval
  let (unitNum, unitDen) := powerRatio 2 (b.exponent - 2)
  let (gridNum, gridDen) := powerRatio 10 exponent
  let grid := gridNum * unitDen
  let unit := unitNum * gridDen
  let centre := around.centre * unit
  let below := centre / grid
  let reads (digits : Nat) : Bool :=
    let point := digits * grid
    if around.closed then around.low * unit ≤ point && point ≤ around.high * unit
    else around.low * unit < point && point < around.high * unit
  let above := if below * grid = centre then below else below + 1
  if reads below && (!reads above || 2 * centre < (below + above) * grid || below = above) then
    some ⟨below, exponent⟩
  else if reads above then some ⟨above, exponent⟩
  else none

/-- The shortest decimal that reads back as the number: the coarsest grid of decimals that has
    one, from one digit on.  Seventeen digits are always enough. -/
def Binary.shortest (b : Binary) : Decimal :=
  let (unitNum, unitDen) := powerRatio 2 b.exponent
  let leading := leadingExponent (b.mantissa * unitNum) unitDen
  match (List.range 17).findSome? fun (places : Nat) => b.nearestOn (leading - places) with
  | some d => d.trimZeros
  | none => ⟨0, 0⟩

/-- The text of a floating-point number given by its bits: no exponent, no point after a whole
    number, a sign also before zero. -/
def NumberFormat.render (format : NumberFormat) (bits : Nat) : String :=
  let sign := if format.isNegative bits then "-" else ""
  match format.read bits with
  | .zero => sign ++ "0"
  | .finite value => sign ++ value.shortest.plain
  | .infinite => sign ++ "inf"
  | .notANumber => "NaN"

end Injection.Text

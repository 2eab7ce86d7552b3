/-!
# Shortest decimals

Every finite number of single precision is written with the fewest decimal digits that read back as
the same number. A finite number is `m · 2^q`; the reals that round to it form an interval around
it. `shortest` looks for the coarsest power of ten that has a multiple in that interval: a coarser
grid means fewer digits, so the first hit is the shortest decimal, and of two hits on one grid the
nearer is taken, the larger on a tie.

The written form of the digits is a `Style`, of which the library uses two: `plainText` never has an
exponent, `parameterText` shows that the value is a fraction (`1.0`) and has an exponent for very
small and very large magnitudes.
-/

set_option autoImplicit false

namespace InferenceGraph.Scalar

/-- A decimal `digits · 10^exponent`. -/
structure Decimal where
  digits : Nat
  exponent : Int
  deriving DecidableEq, Repr

/-- A positive finite number `mantissa · 2^exponent`. `narrowBelow` holds where the next smaller
number is only half as far away as the next larger one. -/
structure Finite where
  mantissa : Nat
  exponent : Int
  narrowBelow : Bool
  deriving DecidableEq, Repr

inductive Parts where
  | notANumber
  | infinite (negative : Bool)
  | zero (negative : Bool)
  | finite (negative : Bool) (value : Finite)
  deriving DecidableEq, Repr

def partsOfBits (bits : Nat) : Parts :=
  let negative := decide (0x80000000 ≤ bits)
  let field : Nat := bits / 0x800000 % 0x100
  let fraction : Nat := bits % 0x800000
  if field = 255 then
    if fraction = 0 then .infinite negative else .notANumber
  else if field = 0 then
    if fraction = 0 then .zero negative else .finite negative ⟨fraction, -149, false⟩
  else
    .finite negative ⟨0x800000 + fraction, (field : Int) - 150, fraction = 0 && 1 < field⟩

def parts (x : Float32) : Parts := partsOfBits x.toBits.toNat

/-- A number and the ends of the interval of reals that round to it, all in units of one quarter
of its last binary place, measured in steps of `10^place`: `value / unit` steps. -/
structure Scaled where
  low : Nat
  value : Nat
  high : Nat
  unit : Nat
  closed : Bool

/-- Steps of `10^place`. The ends belong to the interval if the mantissa is even, because a tie is
rounded to the even neighbour. -/
def Finite.scaled (x : Finite) (place : Int) : Scaled :=
  let up := Nat.pow 2 (x.exponent - 2).toNat * Nat.pow 10 (-place).toNat
  let down := Nat.pow 2 (2 - x.exponent).toNat * Nat.pow 10 place.toNat
  { low := (4 * x.mantissa - if x.narrowBelow then 1 else 2) * up
    value := 4 * x.mantissa * up
    high := (4 * x.mantissa + 2) * up
    unit := down
    closed := x.mantissa % 2 = 0 }

def Scaled.contains (s : Scaled) (steps : Nat) : Bool :=
  if s.closed then s.low ≤ steps * s.unit && steps * s.unit ≤ s.high
  else s.low < steps * s.unit && steps * s.unit < s.high

/-- The neighbour on the grid that rounds to the number, the nearer one if both do, the larger if
both are as near. -/
def Scaled.nearest? (s : Scaled) : Option Nat :=
  let below := s.value / s.unit
  let belowFits := 0 < below && s.contains below
  let aboveFits := s.contains (below + 1)
  if belowFits && aboveFits then
    if 2 * (s.value % s.unit) < s.unit then some below else some (below + 1)
  else if belowFits then some below
  else if aboveFits then some (below + 1)
  else none

theorem Scaled.contains_of_nearest? {s : Scaled} {steps : Nat} (h : s.nearest? = some steps) :
    s.contains steps = true := by
  unfold nearest? at h
  simp only at h
  split at h
  · rename_i both
    simp only [Bool.and_eq_true] at both
    split at h <;> cases h
    · exact both.1.2
    · exact both.2
  · split at h
    · rename_i below
      cases h
      simp only [Bool.and_eq_true] at below
      exact below.2
    · split at h
      · rename_i above
        cases h
        exact above
      · cases h

/-- The powers of ten to try: from above the largest finite number down to `10^-149`, of which every
finite number is a multiple. -/
def places : List Int := (List.range 189).map fun (i : Nat) => 39 - (i : Int)

/-- The shortest decimal that rounds to the number. The last place always has one. -/
def Finite.shortest (x : Finite) : Decimal :=
  match places.findSome? fun place => ((x.scaled place).nearest?).map (⟨·, place⟩) with
  | some d => d
  | none => ⟨0, 0⟩

def digitChars (n : Nat) : List Char := Nat.toDigits 10 n

def zeros (n : Nat) : List Char := List.replicate n '0'

/-- Digits with the point after the first `point` of them, filled up with zeros on either side. -/
def placed (digits : List Char) (point : Int) : List Char × List Char :=
  if point ≤ 0 then (['0'], zeros (-point).toNat ++ digits)
  else
    let whole := point.toNat
    (digits.take whole ++ zeros (whole - digits.length), digits.drop whole)

structure Style where
  /-- A whole number keeps one zero after the point, which is left out otherwise. -/
  marksWhole : Bool
  /-- How many digits may stand before the point where no exponent is used: more than the first
  number and at most the second. Without bounds no exponent is ever used. -/
  positional : Option (Int × Int)
  deriving DecidableEq, Repr

namespace Style

def plain : Style := ⟨false, none⟩

def parameter : Style := ⟨true, some (-4, 16)⟩

def isPositional (s : Style) (point : Int) : Bool :=
  match s.positional with
  | none => true
  | some (above, upTo) => above < point && point ≤ upTo

end Style

def Decimal.positional (d : Decimal) (marksWhole : Bool) : List Char :=
  let digits := digitChars d.digits
  match placed digits (digits.length + d.exponent) with
  | (whole, []) => if marksWhole then whole ++ ['.', '0'] else whole
  | (whole, fraction) => whole ++ '.' :: fraction

def Decimal.scientific (d : Decimal) : List Char :=
  let digits := digitChars d.digits
  let exponent := d.exponent + (digits.length : Int) - 1
  let mantissa :=
    match digits with
    | [] => []
    | [c] => [c]
    | c :: rest => c :: '.' :: rest
  mantissa ++ 'e' :: (toString exponent).toList

def Decimal.text (d : Decimal) (s : Style) : List Char :=
  if s.isPositional ((digitChars d.digits).length + d.exponent) then d.positional s.marksWhole
  else d.scientific

example : Decimal.text ⟨1, 15⟩ .parameter =
    ['1', '0', '0', '0', '0', '0', '0', '0', '0', '0', '0', '0', '0', '0', '0', '0', '.', '0'] := by
  decide

example : Decimal.text ⟨1, 16⟩ .parameter = ['1', 'e', '1', '6'] := by decide

example : Decimal.text ⟨1, 2⟩ .plain = ['1', '0', '0'] := by decide

def signed (negative : Bool) (text : List Char) : List Char :=
  if negative then '-' :: text else text

/-- Zero keeps its sign, what is not a number has none. -/
def Parts.text (s : Style) : Parts → List Char
  | .notANumber => ['N', 'a', 'N']
  | .infinite negative => signed negative ['i', 'n', 'f']
  | .zero negative => signed negative (Decimal.text ⟨0, 0⟩ s)
  | .finite negative x => signed negative (x.shortest.text s)

def text (s : Style) (x : Float32) : String := String.ofList ((parts x).text s)

/-- Running text has `1`, `0.1`, `-0`, `0.0000001`. -/
def plainText (x : Float32) : String := text .plain x

/-- Parameter texts have `1.0`, `0.1`, `-0.0`, `1e-7`, `1e16`. -/
def parameterText (x : Float32) : String := text .parameter x

end InferenceGraph.Scalar

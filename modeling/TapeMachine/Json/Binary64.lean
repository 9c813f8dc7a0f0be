/-!
# Binary floating point numbers of 64 bits

The numbers are kept exactly, as an integer times a power of two, and all arithmetic is on integers.

* `Binary64.ofDecimal`: the number nearest to a decimal one, a tie going to the even neighbour.
* `Binary64.shortest`: the fewest decimal digits that read back as the number.
* `Binary64.render`: those digits, positional from `1e-4` on and below `1e16`.
-/

namespace TapeMachine

/-- A finite number is `mantissa * 2 ^ exponent` with `mantissa < 2 ^ 53` and `-1074 ≤ exponent`. -/
inductive Binary64
  | nan
  | infinite (negative : Bool)
  | finite (negative : Bool) (mantissa : Nat) (exponent : Int)
  deriving DecidableEq, Repr

namespace Binary64

def zero (negative : Bool) : Binary64 := .finite negative 0 (-1074)

def isZero : Binary64 → Bool
  | .finite _ 0 _ => true
  | _ => false

/-- The number of natural numbers below a number; none if it is above them all. -/
def countBelow? : Binary64 → Option Nat
  | .nan => some 0
  | .infinite negative => if negative then some 0 else none
  | .finite true _ _ => some 0
  | .finite false mantissa exponent =>
    if 0 ≤ exponent then some (mantissa * Nat.pow 2 exponent.toNat)
    else
      let unit := Nat.pow 2 (-exponent).toNat
      some ((mantissa + unit - 1) / unit)

/-! ## From decimal -/

/-- `num * base ^ e / den` as a quotient of two natural numbers. -/
def scaled (base num den : Nat) (e : Int) : Nat × Nat :=
  if 0 ≤ e then (num * Nat.pow base e.toNat, den) else (num, den * Nat.pow base (-e).toNat)

/-- The nearest integer to a quotient; a half goes to the even neighbour. -/
def roundHalfEven (num den : Nat) : Nat :=
  let q := num / den
  let r := 2 * (num % den)
  if r < den then q
  else if den < r then q + 1
  else if q % 2 = 0 then q else q + 1

def significandLimit : Nat := Nat.pow 2 53

/-- The exponent at which the integer part of a positive quotient has 53 bits, but at least
`-1074`. -/
def exponentOf (num den : Nat) : Int :=
  let guess := (num.log2 : Int) - den.log2 - 53
  let (n, d) := scaled 2 num den (-guess)
  max (-1074) (if n / d < significandLimit then guess else guess + 1)

def ofQuotient (negative : Bool) (num den : Nat) : Binary64 :=
  if num = 0 then zero negative
  else
    let e := exponentOf num den
    let (n, d) := scaled 2 num den (-e)
    let m := roundHalfEven n d
    let (m, e) := if m = significandLimit then (m / 2, e + 1) else (m, e)
    if 971 < e then .infinite negative else .finite negative m e

/-- The number nearest to `digits * 10 ^ exponent`.  Exponents far outside the range are cut off
before any power is formed. -/
def ofDecimal (negative : Bool) (digits : Nat) (exponent : Int) : Binary64 :=
  let magnitude := (Nat.toDigits 10 digits).length + exponent
  if digits = 0 ∨ magnitude < -330 then zero negative
  else if 310 < magnitude then .infinite negative
  else
    let (num, den) := scaled 10 digits 1 exponent
    ofQuotient negative num den

/-! ## To decimal -/

/-- The decimal exponent of a positive quotient: the `e` with
`10 ^ e ≤ num / den < 10 ^ (e + 1)`. -/
def decimalExponent (num den : Nat) : Int :=
  let guess := ((Nat.toDigits 10 num).length : Int) - (Nat.toDigits 10 den).length
  let (n, d) := scaled 10 num den (-guess)
  if n < d then guess - 1 else guess

/-- The neighbour of a quotient on the grid of `10 ^ unit` that reads back as `x`; if both do, the
nearer one, and halfway between them the even one. -/
def gridPoint? (x : Binary64) (num den : Nat) (unit : Int) : Option Nat :=
  let (n, d) := scaled 10 num den (-unit)
  let low := n / d
  let near := if roundHalfEven n d = low then [low, low + 1] else [low + 1, low]
  near.find? fun c => ofDecimal false c unit = x

/-- The digits and the decimal exponent of the shortest decimal that reads back as a positive
number; seventeen digits always do. -/
def shortest (mantissa : Nat) (exponent : Int) : Nat × Int :=
  let (num, den) := scaled 2 mantissa 1 exponent
  let e := decimalExponent num den
  let found := (List.range 17).findSome? fun (count : Nat) =>
    (gridPoint? (.finite false mantissa exponent) num den (e - count)).map fun c => (c, e - count)
  found.getD (0, 0)

def trimZeros (cs : List Char) : List Char := (cs.reverse.dropWhile (· == '0')).reverse

/-- Writes digits with the decimal point after the first `point` of them. -/
def layout (digits : List Char) (point : Int) : List Char :=
  let count : Int := digits.length
  if point < -3 ∨ 16 < point then
    let e := point - 1
    let tail := if digits.length ≤ 1 then [] else '.' :: digits.drop 1
    let size := Nat.toDigits 10 e.natAbs
    digits.take 1 ++ tail ++ ['e', if e < 0 then '-' else '+'] ++
      (if size.length < 2 then '0' :: size else size)
  else if point ≤ 0 then
    ['0', '.'] ++ List.replicate (-point).toNat '0' ++ digits
  else if count ≤ point then
    digits ++ List.replicate (point - count).toNat '0' ++ ['.', '0']
  else
    digits.take point.toNat ++ '.' :: digits.drop point.toNat

def render : Binary64 → String
  | .nan => "nan"
  | .infinite false => "inf"
  | .infinite true => "-inf"
  | .finite negative mantissa exponent =>
    let text :=
      if mantissa = 0 then "0.0"
      else
        let (c, unit) := shortest mantissa exponent
        let digits := Nat.toDigits 10 c
        String.ofList (layout (trimZeros digits) (digits.length + unit))
    if negative then "-" ++ text else text

end Binary64

end TapeMachine

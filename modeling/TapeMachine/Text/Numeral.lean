import TapeMachine.Text.Blank
import TapeMachine.Text.Digit
import TapeMachine.Text.Quoted

/-!
# Numerals

An integer numeral is a sign (or none) and decimal digits of any scripts, with single underscores
allowed between digits and blanks around the whole.  A numeral of more than 4300 digits is refused.

* `readInt`: reads a numeral.
* `grouped`: writes one with its digits in groups of three.
-/

namespace TapeMachine.Text

inductive NumeralFault
  | malformed (text : String)
  | tooLong (digits : Nat)
  deriving DecidableEq, Repr

def numeralLimit : Nat := 4300

/-- The quotation of a text in a numeral message is cut after this many characters. -/
def numeralQuotation : Nat := 200

def NumeralFault.message : NumeralFault → String
  | .malformed text =>
    "invalid literal for int() with base 10: " ++
      String.ofList ((quotedChars text.toList).take numeralQuotation)
  | .tooLong digits =>
    s!"Exceeds the limit ({numeralLimit} digits) for integer string conversion: " ++
      s!"value has {digits} digits; use sys.set_int_max_str_digits() to increase the limit"

/-! ## Reading -/

def spanDigits (cs : List Char) : List Char × List Char := cs.span fun c => isDecimal c || c == '_'

/-- Whether every underscore stands between two digits. -/
def wellSpaced (cs : List Char) : Bool := !(splitAt '_' cs).any List.isEmpty

/-- The base-ten value of the decimal digits of a text, the first being the most significant. -/
def decimalNumber (cs : List Char) : Nat :=
  cs.foldl (fun n c => 10 * n + (decimalValue? c).getD 0) 0

/-- The magnitude of a numeral without sign and leading blanks.  The length of the digits is checked
before what follows them. -/
def readMagnitude (text : String) (cs : List Char) : Except NumeralFault Nat :=
  let (run, rest) := spanDigits cs
  let digits := run.filter isDecimal
  if !wellSpaced run then .error (.malformed text)
  else if numeralLimit < digits.length then .error (.tooLong digits.length)
  else if rest.all isNumeralBlank then .ok (decimalNumber digits)
  else .error (.malformed text)

def readInt (text : String) : Except NumeralFault Int :=
  match text.toList.dropWhile isNumeralBlank with
  | '-' :: cs => (readMagnitude text cs).map fun n => -(n : Int)
  | '+' :: cs => (readMagnitude text cs).map Int.ofNat
  | cs => (readMagnitude text cs).map Int.ofNat

/-! ## Writing -/

/-- Digits in groups of three, counted from the last, with a comma between two groups. -/
def groupDigits (cs : List Char) : List Char :=
  if _h : 3 < cs.length then
    groupDigits (cs.take (cs.length - 3)) ++ ',' :: cs.drop (cs.length - 3)
  else cs
termination_by cs.length
decreasing_by simp; omega

def grouped (n : Int) : String :=
  let digits := String.ofList (groupDigits (Nat.toDigits 10 n.natAbs))
  if n < 0 then "-" ++ digits else digits

end TapeMachine.Text

import TapeMachine.Json.Basic
import TapeMachine.Text.Numeral

/-!
# Reading JSON

The reader takes standard JSON and the words `NaN`, `Infinity` and `-Infinity`.  A repeated member
name keeps its first place and its last value.  Integers have the length limit of numerals, and only
so many brackets can be open at once.

* `Json.readWithin`: the value of a text.
* `Json.readLimited`: the same with a limit of choice to the digits of integers.

The recursion is bounded by twice the length of the text: every level of nesting takes two steps and
at least one character, every other step takes a character.
-/

namespace TapeMachine.Json

open Text

inductive Container
  | array
  | object
  deriving DecidableEq, Repr

inductive ReadFault
  | malformed
  | numeral (fault : NumeralFault)
  /-- Too many brackets are open, the last one of this kind. -/
  | tooDeep (last : Container)
  deriving DecidableEq, Repr

def Container.name : Container → String
  | .array => "array"
  | .object => "object"

def ReadFault.message : ReadFault → String
  | .malformed => "malformed JSON"
  | .numeral fault => fault.message
  | .tooDeep last =>
    s!"maximum recursion depth exceeded while decoding a JSON {last.name} from a unicode string"

abbrev Scan (α : Type) := Except ReadFault (α × List Char)

def isSpace (c : Char) : Bool := c == ' ' || c == '\t' || c == '\n' || c == '\r'

def skipSpace (cs : List Char) : List Char := cs.dropWhile isSpace

/-! ## Strings -/

def readUnit : List Char → Option (Nat × List Char)
  | a :: b :: c :: d :: rest => do
    let a ← hexValue? a
    let b ← hexValue? b
    let c ← hexValue? c
    let d ← hexValue? d
    some (4096 * a + 256 * b + 16 * c + d, rest)
  | _ => none

def simpleEscape? : Char → Option Char
  | '"' => some '"'
  | '\\' => some '\\'
  | '/' => some '/'
  | 'b' => some '\x08'
  | 'f' => some '\x0c'
  | 'n' => some '\n'
  | 'r' => some '\r'
  | 't' => some '\t'
  | _ => none

/-- The character of a `\u` escape.  Two units of a surrogate pair make one character; a unit
without its partner stands for the replacement character. -/
def readEscapedUnit (cs : List Char) : Option (Char × List Char) := do
  let (high, rest) ← readUnit cs
  if 0xD800 ≤ high ∧ high < 0xDC00 then
    match rest with
    | '\\' :: 'u' :: more =>
      match readUnit more with
      | some (low, rest') =>
        if 0xDC00 ≤ low ∧ low < 0xE000 then
          some (Char.ofNat (0x10000 + 0x400 * (high - 0xD800) + (low - 0xDC00)), rest')
        else some ('\ufffd', rest)
      | none => none
    | _ => some ('\ufffd', rest)
  else if 0xDC00 ≤ high ∧ high < 0xE000 then some ('\ufffd', rest)
  else some (Char.ofNat high, rest)

/-- Reads the rest of a string after its opening quote; `done` is what was read, last first. -/
def readString : Nat → List Char → List Char → Scan String
  | 0, _, _ => .error .malformed
  | _ + 1, _, [] => .error .malformed
  | _ + 1, done, '"' :: rest => .ok (String.ofList done.reverse, rest)
  | fuel + 1, done, '\\' :: 'u' :: rest =>
    match readEscapedUnit rest with
    | some (c, rest) => readString fuel (c :: done) rest
    | none => .error .malformed
  | fuel + 1, done, '\\' :: c :: rest =>
    match simpleEscape? c with
    | some c => readString fuel (c :: done) rest
    | none => .error .malformed
  | fuel + 1, done, c :: rest =>
    if c.toNat < 0x20 ∨ c = '\\' then .error .malformed else readString fuel (c :: done) rest

/-! ## Numbers -/

def isAsciiDigit (c : Char) : Bool := '0' ≤ c && c ≤ '9'

/-- The digits before the point: a zero, or digits that do not start with one. -/
def readWhole : List Char → Option (List Char × List Char)
  | '0' :: rest => some (['0'], rest)
  | cs =>
    match cs.span isAsciiDigit with
    | ([], _) => none
    | whole => some whole

def readFraction : List Char → Option (List Char × List Char)
  | '.' :: cs =>
    match cs.span isAsciiDigit with
    | ([], _) => none
    | fraction => some fraction
  | _ => none

def readExponent : List Char → Option (Int × List Char)
  | c :: cs =>
    if c = 'e' ∨ c = 'E' then
      let (negative, cs) :=
        match cs with
        | '-' :: cs => (true, cs)
        | '+' :: cs => (false, cs)
        | cs => (false, cs)
      match cs.span isAsciiDigit with
      | ([], _) => none
      | (digits, rest) =>
        let e : Int := decimalNumber digits
        some (if negative then -e else e, rest)
    else none
  | [] => none

/-- Reads a number after its sign.  Without fraction and exponent it is an integer, of no more digits
than the limit. -/
def readNumber (limit : Nat) (negative : Bool) (cs : List Char) : Scan Json :=
  match readWhole cs with
  | none => .error .malformed
  | some (whole, rest) =>
    let (fraction, rest', isReal) :=
      match readFraction rest with
      | some (fraction, rest) => (fraction, rest, true)
      | none => ([], rest, false)
    let (exponent, rest', isReal) :=
      match readExponent rest' with
      | some (e, rest) => (e, rest, true)
      | none => (0, rest', isReal)
    if isReal then
      let digits := decimalNumber (whole ++ fraction)
      .ok (.real (Binary64.ofDecimal negative digits (exponent - fraction.length)), rest')
    else if limit < whole.length then .error (.numeral (.tooLong whole.length))
    else
      let n : Int := decimalNumber whole
      .ok (.int (if negative then -n else n), rest')

/-! ## Values -/

mutual

/-- Reads a value; `room` is the number of brackets that may still be opened. -/
def readValue (limit : Nat) : Nat → Nat → List Char → Scan Json
  | 0, _, _ => .error .malformed
  | fuel + 1, room, cs =>
    match cs with
    | '"' :: rest => (readString fuel [] rest).map fun r => (.str r.1, r.2)
    | '[' :: rest =>
      if room = 0 then .error (.tooDeep .array)
      else
        match skipSpace rest with
        | ']' :: rest => .ok (.arr [], rest)
        | rest => readItems limit fuel (room - 1) [] rest
    | '\x7b' :: rest =>
      if room = 0 then .error (.tooDeep .object)
      else
        match skipSpace rest with
        | '\x7d' :: rest => .ok (.obj [], rest)
        | rest => readMembers limit fuel (room - 1) [] rest
    | 'n' :: 'u' :: 'l' :: 'l' :: rest => .ok (.null, rest)
    | 't' :: 'r' :: 'u' :: 'e' :: rest => .ok (.bool true, rest)
    | 'f' :: 'a' :: 'l' :: 's' :: 'e' :: rest => .ok (.bool false, rest)
    | 'N' :: 'a' :: 'N' :: rest => .ok (.real .nan, rest)
    | 'I' :: 'n' :: 'f' :: 'i' :: 'n' :: 'i' :: 't' :: 'y' :: rest =>
      .ok (.real (.infinite false), rest)
    | '-' :: 'I' :: 'n' :: 'f' :: 'i' :: 'n' :: 'i' :: 't' :: 'y' :: rest =>
      .ok (.real (.infinite true), rest)
    | '-' :: rest => readNumber limit true rest
    | rest => readNumber limit false rest

/-- Reads the items of an array from the first one on; `done` holds those read, last first. -/
def readItems (limit : Nat) : Nat → Nat → List Json → List Char → Scan Json
  | 0, _, _, _ => .error .malformed
  | fuel + 1, room, done, cs =>
    match readValue limit fuel room cs with
    | .error fault => .error fault
    | .ok (item, rest) =>
      match skipSpace rest with
      | ']' :: rest => .ok (.arr (item :: done).reverse, rest)
      | ',' :: rest => readItems limit fuel room (item :: done) (skipSpace rest)
      | _ => .error .malformed

/-- Reads the members of an object from the first one on; `done` holds those read, last first. -/
def readMembers (limit : Nat) : Nat → Nat → List (String × Json) → List Char → Scan Json
  | 0, _, _, _ => .error .malformed
  | fuel + 1, room, done, cs =>
    match cs with
    | '"' :: rest =>
      match readString fuel [] rest with
      | .error fault => .error fault
      | .ok (key, rest) =>
        match skipSpace rest with
        | ':' :: rest =>
          match readValue limit fuel room (skipSpace rest) with
          | .error fault => .error fault
          | .ok (value, rest) =>
            match skipSpace rest with
            | '\x7d' :: rest => .ok (ofMembers ((key, value) :: done).reverse, rest)
            | ',' :: rest => readMembers limit fuel room ((key, value) :: done) (skipSpace rest)
            | _ => .error .malformed
        | _ => .error .malformed
    | _ => .error .malformed

end

/-- Reads a text that holds one value and nothing else, with at most `limit` digits in an integer
and at most `nesting` brackets open at once. -/
def readLimited (limit nesting : Nat) (s : String) : Except ReadFault Json :=
  let cs := skipSpace s.toList
  match readValue limit (2 * cs.length + 2) nesting cs with
  | .error fault => .error fault
  | .ok (value, rest) => if (skipSpace rest).isEmpty then .ok value else .error .malformed

/-- Reads a text with integers as long as numerals can be. -/
def readWithin (nesting : Nat) (s : String) : Except ReadFault Json :=
  readLimited numeralLimit nesting s

end TapeMachine.Json

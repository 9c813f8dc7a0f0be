import TapeMachine.Json.Basic
import TapeMachine.Text.Numeral

/-!
# Command lines

A command line is read by a usage: options that start with two dashes, with one value, several or
none, and at most one operand.  An option may be cut short as long as only one option starts so, and
its value may follow after an equals sign.  All words after a lone `--` are values; after an equals
sign, `--` means that the option is given without a value.

* `Usage.read`: what a command line says.
-/

namespace TapeMachine

open Text

/-- How many values an option has. -/
inductive Arity
  | flag
  | one
  | many
  deriving DecidableEq, Repr

structure Opt where
  name : String
  arity : Arity := .one
  /-- Whether the value is a numeral. -/
  numeric : Bool := false
  required : Bool := false
  deriving DecidableEq, Repr

structure Usage where
  options : List Opt
  /-- Whether there is an operand, which is then required. -/
  hasOperand : Bool := false

/-- Why nothing is to be done: help was asked for, or the command line is wrong. -/
inductive Dismissal
  | help
  | misuse
  deriving DecidableEq, Repr

def Dismissal.exitCode : Dismissal → Nat
  | .help => 0
  | .misuse => 2

/-- What a command line says: the values of its options, the last ones first, and its operand. -/
structure Arguments where
  values : List (String × List String)
  operand : Option String
  deriving DecidableEq, Repr

namespace Arguments

def isGiven (a : Arguments) (name : String) : Bool := (a.values.lookup name).isSome

def list (a : Arguments) (name : String) : List String := (a.values.lookup name).getD []

def text? (a : Arguments) (name : String) : Option String := (a.list name).head?

/-- What is handed on for an option: its text, or no text but an empty list if it is given without a
value. -/
def handed? (a : Arguments) (name : String) : Option Json :=
  (a.values.lookup name).map fun
    | text :: _ => .str text
    | [] => .arr []

/-- The text of an option that counts as absent if it is empty. -/
def filled? (a : Arguments) (name : String) : Option String := (a.text? name).filter (· ≠ "")

def number? (a : Arguments) (name : String) : Option Int := do
  match readInt (← a.text? name) with
  | .ok n => some n
  | .error _ => none

end Arguments

/-! ## Words -/

/-- What a word of a command line is. -/
inductive Slot
  | value (word : String)
  | divider
  | unknown
  /-- A word that asks for help, or does so wrongly. -/
  | help (wellFormed : Bool)
  | option (o : Opt) (value : Option String)

/-- Whether a word reads as a negative number: digits, or a point and digits after it. -/
def isNegativeNumber : List Char → Bool
  | '-' :: cs =>
    let cs := if cs.getLast? = some '\n' then cs.dropLast else cs
    match cs.span isDecimal with
    | (whole, []) => !whole.isEmpty
    | (_, '.' :: fraction) => !fraction.isEmpty && fraction.all isDecimal
    | _ => false
  | _ => false

/-- Whether letters after `-h` let it still ask for help: only more of the same do, also after an
equals sign. -/
def helpLetters : List Char → Bool
  | '=' :: cs => !cs.isEmpty && cs.all (· == 'h')
  | cs => cs.all (· == 'h')

def splitValue (word : String) : String × Option String :=
  let cs := word.toList
  match cs.dropWhile (· ≠ '=') with
  | [] => (word, none)
  | _ :: rest => (String.ofList (cs.takeWhile (· ≠ '=')), some (String.ofList rest))

def helpName : String := "--help"

namespace Usage

/-- What the name of an option may be short for; `none` stands for the help option. -/
def candidates (u : Usage) (name : String) : List (Option Opt) :=
  let all := (helpName, none) :: u.options.map fun o => (o.name, some o)
  match all.lookup name with
  | some found => [found]
  | none => (all.filter fun o => o.1.startsWith name).map Prod.snd

/-- A word that starts with a dash and is no option. -/
def stray (word : String) : Slot :=
  if isNegativeNumber word.toList ∨ word.toList.contains ' ' then .value word else .unknown

def slot (u : Usage) (word : String) : Except Dismissal Slot :=
  match word.toList with
  | '-' :: '-' :: _ =>
    let (name, value) := splitValue word
    match u.candidates name with
    | [] => .ok (stray word)
    | [none] => .ok (.help value.isNone)
    | [some o] => .ok (.option o value)
    | _ => .error .misuse
  | '-' :: 'h' :: cs => .ok (.help (helpLetters cs))
  | '-' :: _ :: _ => .ok (stray word)
  | _ => .ok (.value word)

/-- Only the words before the first divider can be options. -/
def slots (u : Usage) : List String → Except Dismissal (List Slot)
  | [] => .ok []
  | word :: words =>
    if word = "--" then .ok (.divider :: words.map .value)
    else do
      let slot ← u.slot word
      let slots ← u.slots words
      return slot :: slots

/-! ## Values -/

def isReadable (o : Opt) (value : String) : Bool :=
  !o.numeric || (readInt value).toBool

def leadingValues : List Slot → List String
  | .value word :: slots => word :: leadingValues slots
  | _ => []

def valuesFor (o : Opt) (slots : List Slot) : List String :=
  match o.arity with
  | .flag => []
  | .one => (leadingValues slots).take 1
  | .many => leadingValues slots

def valuesOf (text : String) : List String := if text = "--" then [] else [text]

def accept (a : Arguments) (o : Opt) (values : List String) : Except Dismissal Arguments :=
  if values.all (isReadable o) then .ok { a with values := (o.name, values) :: a.values }
  else .error .misuse

/-- Reads words up to the end; `spare` says whether one had no place so far. -/
def readFrom (u : Usage) : Nat → List Slot → Arguments → Bool → Except Dismissal (Arguments × Bool)
  | 0, _, a, spare => .ok (a, spare)
  | _ + 1, [], a, spare => .ok (a, spare)
  | fuel + 1, slot :: slots, a, spare =>
    let wanted := u.hasOperand && a.operand.isNone
    match slot with
    | .help true => .error .help
    | .help false => .error .misuse
    | .unknown => u.readFrom fuel slots a true
    | .option o (some text) =>
      if o.arity = .flag then .error .misuse
      else do
        let a ← accept a o (valuesOf text)
        u.readFrom fuel slots a spare
    | .option o none =>
      let values := valuesFor o slots
      if o.arity ≠ .flag ∧ values = [] then .error .misuse
      else do
        let a ← accept a o values
        u.readFrom fuel (slots.drop values.length) a spare
    | .value word =>
      if !wanted then u.readFrom fuel slots a true
      else
        let rest := match slots with
          | .divider :: slots => slots
          | slots => slots
        u.readFrom fuel rest { a with operand := some word } spare
    | .divider =>
      match slots with
      | .value word :: slots =>
        if wanted then u.readFrom fuel slots { a with operand := some word } spare
        else u.readFrom fuel (.value word :: slots) a true
      | slots => u.readFrom fuel slots a true

/-- Whether everything that is required is there. -/
def isComplete (u : Usage) (a : Arguments) : Bool :=
  (!u.hasOperand || a.operand.isSome) && u.options.all fun o => !o.required || a.isGiven o.name

def read (u : Usage) (words : List String) : Except Dismissal Arguments := do
  let slots ← u.slots words
  let (a, spare) ← u.readFrom slots.length slots ⟨[], none⟩ false
  if spare || !u.isComplete a then .error .misuse else .ok a

end Usage

end TapeMachine

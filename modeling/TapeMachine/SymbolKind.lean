import TapeMachine.Atom
import TapeMachine.Text.Numeral

/-!
# Kinds of symbols

The symbols of a program are of one kind, which says how they are written: as truth values, as
numerals or as any text.  Each of these kinds has a name; in their place, a reader of symbols can be
given that is of no kind.
-/

namespace TapeMachine

open Text

inductive SymbolKind
  | truth
  | number
  | text
  deriving DecidableEq, Repr

/-- Why a text is not what it should be.  A reader that is given refuses texts in its own words. -/
inductive AtomFault
  | notTruth (text : String)
  | notState (text : String)
  | refused (message : String)
  | numeral (fault : NumeralFault)
  deriving DecidableEq, Repr

def AtomFault.message : AtomFault → String
  | .notTruth text => s!"not a bool: {quoted text}"
  | .notState text => s!"not a state: {quoted text}"
  | .refused message => message
  | .numeral fault => fault.message

/-- A way to read symbols.  Each kind has one. -/
abbrev SymbolReader := String → Except AtomFault Atom

def readNumber (text : String) : Except AtomFault Atom :=
  match readInt text with
  | .ok n => .ok (.number n)
  | .error fault => .error (.numeral fault)

/-- A state is written in digits only. -/
def readState (text : String) : Except AtomFault Atom :=
  let cs := text.toList
  if !cs.isEmpty && cs.all isDigitSign then readNumber text else .error (.notState text)

namespace SymbolKind

def read (kind : SymbolKind) : SymbolReader := fun text =>
  match kind with
  | .truth =>
    if text = "true" then .ok (.truth true)
    else if text = "false" then .ok (.truth false)
    else .error (.notTruth text)
  | .number => readNumber text
  | .text => .ok (.text text)

/-! ## Names -/

def named : List (String × SymbolKind) := [("bool", .truth), ("int", .number), ("str", .text)]

def names : List String := named.map Prod.fst

def ofName? (name : String) : Option SymbolKind := named.lookup name

def namesLiteral : String := bracketed (names.map quoted)

end SymbolKind

/-- A kind of symbols as it is asked for: a reader of symbols, or a value that should name one. -/
inductive KindSpec
  | given (read : SymbolReader)
  | named (name : Json)

inductive KindFault
  | unknown (name : Json)
  | compound (name : Json)

def KindFault.message : KindFault → String
  | .unknown name =>
    s!"Unknown symbol type '{name.display}', expected one of {SymbolKind.namesLiteral}"
  | .compound name => s!"unhashable type: '{name.kindName}'"

namespace KindSpec

instance : Inhabited KindSpec := ⟨.named (.str "bool")⟩

def resolve : KindSpec → Except KindFault SymbolReader
  | .given read => .ok read
  | .named (.str name) =>
    match SymbolKind.ofName? name with
    | some kind => .ok kind.read
    | none => .error (.unknown (.str name))
  | .named (.arr items) => .error (.compound (.arr items))
  | .named (.obj members) => .error (.compound (.obj members))
  | .named name => .error (.unknown name)

end KindSpec

end TapeMachine

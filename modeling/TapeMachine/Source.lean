import TapeMachine.Machine
import TapeMachine.SymbolKind
import TapeMachine.Token

/-!
# Sources

The source of a machine is a sequence of clauses, each a cause, an arrow and an effect.  The clause
`() -> (state)` gives the starting state, the clause `(state, symbol) -> (state, symbol, move)` a
rule.  Later clauses override earlier ones.

* `Clause.read`: the clause of a cause and an effect.
* `Machine.ofTokens`, `Machine.ofSource`: the machine that a source denotes.
* `Tape.ofText`: the tape that a list of symbols denotes.
-/

namespace TapeMachine

open Text

inductive Clause
  | start (state : Atom)
  | rule (rule : Rule)
  deriving DecidableEq, Repr

inductive Expected
  | state
  | symbol
  | move
  deriving DecidableEq, Repr

def Expected.name : Expected → String
  | .state => "state"
  | .symbol => "symbol"
  | .move => "direction"

/-- Why a source denotes no machine, or a text no tape. -/
inductive SourceFault
  | scan (fault : ScanFault)
  | noClause (found : Token)
  | noEffect (cause : Token)
  | arity (cause effect : Nat)
  | field (text : String) (expected : Expected)
  | noMove
  | noStart
  deriving DecidableEq, Repr

def SourceFault.message : SourceFault → String
  | .scan fault => s!"Syntax error: {fault.message}"
  | .noClause found => s!"Expected '(cause) -> (effect)', found {found.describe}"
  | .noEffect cause => s!"Clause starting with {cause.describe} has no effect"
  | .arity cause effect =>
    s!"Cannot interpret a clause with {cause} cause and {effect} effect fields " ++
      "(expected 0 -> 1 or 2 -> 3)"
  | .field text expected => s!"Could not read {quoted text} as {expected.name}"
  | .noMove => "Transition effect has no direction"
  | .noStart => "Starting state clause must name a state"

/-! ## Fields -/

def stateField : Field → Except SourceFault Atom
  | none => .error (.field Field.absent .state)
  | some text =>
    match readState text with
    | .ok a => .ok a
    | .error _ => .error (.field text .state)

/-- A symbol without text is the blank. -/
def symbolField (read : SymbolReader) : Field → Except SourceFault Atom
  | none => .ok .blank
  | some text =>
    match read text with
    | .ok a => .ok a
    | .error _ => .error (.field text .symbol)

def moveField : Field → Except SourceFault Move
  | none => .error .noMove
  | some text =>
    match Move.read? text with
    | some m => .ok m
    | none => .error (.field text .move)

/-! ## Clauses -/

def Clause.read (read : SymbolReader) : List Field → List Field → Except SourceFault Clause
  | [], [none] => .error .noStart
  | [], [some state] => (stateField (some state)).map start
  | [state, symbol], [newState, newSymbol, move] => do
    let state ← stateField state
    let symbol ← symbolField read symbol
    let newState ← stateField newState
    let newSymbol ← symbolField read newSymbol
    let move ← moveField move
    return .rule ⟨⟨state, symbol⟩, ⟨newState, newSymbol, move⟩⟩
  | cause, effect => .error (.arity cause.length effect.length)

/-- Reads a list of tokens three by three. -/
def Clause.readAll (read : SymbolReader) : List Token → Except SourceFault (List Clause)
  | [] => .ok []
  | .arrow :: _ => .error (.noClause .arrow)
  | [.group cause] => .error (.noEffect (.group cause))
  | .group _ :: .group other :: _ => .error (.noClause (.group other))
  | [.group cause, .arrow] => .error (.noEffect (.group cause))
  | .group _ :: .arrow :: .arrow :: _ => .error (.noClause .arrow)
  | .group cause :: .arrow :: .group effect :: tokens => do
    let clause ← Clause.read read cause effect
    let clauses ← Clause.readAll read tokens
    return clause :: clauses

/-! ## Machines and tapes -/

/-- What the clauses read so far make of a machine. -/
structure Draft where
  start : Atom
  table : Table

namespace Draft

/-- Before any clause the starting state is 0. -/
def empty : Draft := ⟨.number 0, .empty⟩

/-- A clause overrides what earlier clauses said on its matter. -/
def add (d : Draft) : Clause → Draft
  | .start state => { d with start := state }
  | .rule r => { d with table := d.table.insert r.situation r.action }

end Draft

/-- The machine that the clauses denote, with an empty tape. -/
def Machine.ofClauses (clauses : List Clause) : Machine :=
  let d := clauses.foldl Draft.add .empty
  .new .empty d.start d.table

def Machine.ofTokens (read : SymbolReader) (tokens : List Token) : Except SourceFault Machine :=
  (Clause.readAll read tokens).map Machine.ofClauses

def scanSource (source : String) : Except SourceFault (List Token) :=
  match Token.scan source.toList with
  | .ok tokens => .ok tokens
  | .error fault => .error (.scan fault)

def Machine.ofSource (read : SymbolReader) (source : String) : Except SourceFault Machine := do
  Machine.ofTokens read (← scanSource source)

/-- A tape filled with comma-separated symbols from position 0 on; a blank text is the empty
tape. -/
def Tape.ofText (read : SymbolReader) (text : String) : Except SourceFault Tape :=
  if (strip text.toList).isEmpty then .ok .empty
  else ((fields text.toList).mapM (symbolField read)).map Tape.ofList

/-! ## Kinds by name -/

inductive SpecFault
  | kind (fault : KindFault)
  | source (fault : SourceFault)

def SpecFault.message : SpecFault → String
  | .kind fault => fault.message
  | .source fault => fault.message

def resolved (spec : KindSpec) : Except SpecFault SymbolReader :=
  match spec.resolve with
  | .ok read => .ok read
  | .error fault => .error (.kind fault)

def inSource {α : Type} : Except SourceFault α → Except SpecFault α
  | .ok a => .ok a
  | .error fault => .error (.source fault)

def KindSpec.machineOfTokens (spec : KindSpec) (tokens : List Token) :
    Except SpecFault Machine := do
  inSource (Machine.ofTokens (← resolved spec) tokens)

theorem KindSpec.machineOfTokens_of_resolve {spec : KindSpec} {read : SymbolReader}
    (h : spec.resolve = .ok read) (tokens : List Token) :
    spec.machineOfTokens tokens = inSource (Machine.ofTokens read tokens) := by
  rw [machineOfTokens, resolved, h]
  rfl

/-- The source is scanned before the kind is looked at. -/
def KindSpec.machineOfSource (spec : KindSpec) (source : String) : Except SpecFault Machine := do
  spec.machineOfTokens (← inSource (scanSource source))

def KindSpec.tapeOfText (spec : KindSpec) (text : String) : Except SpecFault Tape := do
  inSource (Tape.ofText (← resolved spec) text)

end TapeMachine

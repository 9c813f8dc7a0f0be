import TapeMachine.RunSort
import TapeMachine.Table

/-!
# The order of a table

Listings of a table go by state, and within a state by the text form of the symbol.

* `Table.sorted`: the rules in listing order.
* `Table.states`, `Table.symbols`: what the situations mention, each class of like atoms once.
* `Table.orderFault?`: why rules cannot be listed.
-/

namespace TapeMachine

def Rule.le (r q : Rule) : Bool :=
  if r.situation.state.like q.situation.state then
    r.situation.symbol.render ≤ q.situation.symbol.render
  else r.situation.state.le q.situation.state

/-- The first of each class of like atoms, in order. -/
def firstOfEach : List Atom → List Atom
  | [] => []
  | a :: atoms => a :: (firstOfEach atoms).filter fun b => !a.like b

/-! ## Orders that fail -/

/-- Two states that were compared and have no order between them. -/
structure OrderFault where
  first : Atom
  second : Atom
  deriving DecidableEq, Repr

def OrderFault.message (fault : OrderFault) : String :=
  s!"'<' not supported between instances of '{fault.first.toJson.kindName}' and " ++
    s!"'{fault.second.toJson.kindName}'"

def Atom.before (a b : Atom) : Except OrderFault Bool :=
  if a.comparable b then .ok (!b.le a) else .error ⟨a, b⟩

def Rule.before (r q : Rule) : Except OrderFault Bool :=
  if r.situation.state.like q.situation.state then .ok (!q.le r)
  else r.situation.state.before q.situation.state

def faultOf {α : Type} : Except OrderFault α → Option OrderFault
  | .ok _ => none
  | .error fault => some fault

namespace Table

def sorted (t : Table) : List Rule := t.rules.mergeSort Rule.le

def states (t : Table) : List Atom :=
  (firstOfEach (t.rules.map fun r => r.situation.state)).mergeSort Atom.le

def symbols (t : Table) : List Atom :=
  (firstOfEach (t.rules.map fun r => r.situation.symbol)).mergeSort fun a b => a.render ≤ b.render

/-- Rules with states of several sorts cannot be listed. -/
def orderFault? (t : Table) : Option OrderFault := faultOf (RunSort.sort Rule.before t.rules)

/-- States of several sorts cannot be listed. -/
def statesFault? (t : Table) : Option OrderFault :=
  faultOf (RunSort.sort Atom.before (firstOfEach (t.rules.map fun r => r.situation.state)))

end Table

end TapeMachine

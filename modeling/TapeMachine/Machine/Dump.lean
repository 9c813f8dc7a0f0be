import TapeMachine.Machine
import TapeMachine.Table.Order

/-!
# Dumps

A dump is a text with everything there is to know of a machine: its states, its head, its rules in
listing order and its tape without the blanks at the ends.  The lines of the rules are clauses of a
source again.
-/

namespace TapeMachine

/-- A rule as a clause of a source. -/
def Rule.clause (r : Rule) : String :=
  s!"({r.situation.state.label}, {r.situation.symbol.render}) -> " ++
    s!"({r.action.state.label}, {r.action.symbol.render}, {r.action.move.name})"

def cellsLine (cells : List Atom) : String := ", ".intercalate (cells.map Atom.render)

namespace Machine

def ruleLines (m : Machine) : List String := m.table.sorted.map fun r => "  " ++ r.clause

def dumpLines (m : Machine) : List String :=
  [s!"State: {m.state.label} (starting state {m.start.label})",
    s!"Head: {m.tape.head}",
    "Transitions:"] ++
  m.ruleLines ++
  [s!"Tape: [{cellsLine m.tape.trimmed}]"]

def dump (m : Machine) : String := "\n".intercalate m.dumpLines

end Machine

end TapeMachine

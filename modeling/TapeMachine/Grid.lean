import TapeMachine.Machine.Dump

/-!
# Grids

Rule tables and stretches of tape are shown as grids of texts, with markup such as `[bold]…[/bold]`
on the cells that stand out.

* `Machine.ruleGrid`: a row for each state and a column for each symbol.
* `Machine.rulePlain`: the same cells as plain text.
* `Tape.windowGrid`: the cells around the head under their positions.
-/

namespace TapeMachine

structure Grid where
  title : Option String
  columns : List String
  rows : List (List String)
  deriving DecidableEq, Repr

/-- Puts a text between the opening and the closing mark of a style. -/
def markup (style text : String) : String := s!"[{style}]{text}[/{style}]"

namespace Machine

def haltWord : String := "HALT"

/-- What the machine's table says about a situation, in a few characters. -/
def cell (m : Machine) (s : Situation) : String :=
  match m.table.find? s with
  | none => "-"
  | some a =>
    if Rule.isFixed ⟨s, a⟩ then haltWord
    else s!"{a.state.label},{a.symbol.render},{a.move.name}"

def rowCells (m : Machine) (symbols : List Atom) (state : Atom) : List String :=
  symbols.map fun symbol => m.cell ⟨state, symbol⟩

/-! ## As a grid -/

def markCell (cell : String) : String := if cell = haltWord then markup "red" cell else cell

/-- The current state stands out. -/
def markState (m : Machine) (state : Atom) : String :=
  if state.like m.state then markup "bold" state.label else state.label

def ruleGrid (m : Machine) : Grid :=
  let symbols := m.table.symbols
  let row := fun state => m.markState state :: (m.rowCells symbols state).map markCell
  { title := some s!"Transition Table (start {m.start.label})"
    columns := "State" :: symbols.map Atom.render
    rows := m.table.states.map row }

/-! ## As plain text -/

def tabbed (cells : List String) : String := "\t".intercalate cells ++ "\n"

def rulePlain (m : Machine) : String :=
  let symbols := m.table.symbols
  let row := fun state => tabbed (s!"State {state.label}" :: m.rowCells symbols state)
  "\n=== Transition Table ===\n" ++ tabbed (" " :: symbols.map Atom.render) ++
    String.join (m.table.states.map row)

end Machine

namespace Tape

/-- A grid of one row around the head, whose cell stands out; no row without columns. -/
def windowGrid (t : Tape) (radius : Int) : Grid :=
  let positions := window t.head radius
  let cell := fun p => if p = t.head then markup "reverse" (t.read p).render else (t.read p).render
  { title := none
    columns := positions.map toString
    rows := if positions.isEmpty then [] else [positions.map cell] }

end Tape

end TapeMachine

import Mathlib.Data.List.Forall2
import TapeMachine.Proofs.TableCells
import TapeMachine.Proofs.TableListings
import TapeMachine.Proofs.WrittenTexts

/-!
# Tables as grids

A table is laid out with a row for each state and a column for each symbol, with marks or as plain
text.  In the table of a machine that was read the rows and the columns cross at all the situations
that have a rule, each once, so that no rule is hidden and none is shown twice.

* `Table.Lists`, `Table.lists_cellText`: rows of cells that say what the table has.
* `Table.crossings`, `Table.OfKind.perm_crossings`: the situations of the cells, and those with a
  rule.
* `Machine.rows_ruleGrid`, `Machine.plainLines_eq`: the two layouts; `Machine.splitAt_rulePlain`: the
  lines of the plain one.
* `Machine.grids_list_table`: the grid of a table that was read.
-/

namespace TapeMachine

open Machine (haltWord markCell tabbed)

namespace Table

variable {t : Table} {halting : String} {s : Situation} {r : Rule}

/-! ### Axes -/

namespace OfKind

variable {kind : SymbolKind} (h : t.OfKind kind)
include h

end OfKind

end Table

/-! ### Two layouts -/

namespace Machine

variable {m : Machine}

end Machine

/-! ### Lines of the plain text -/

/-- No symbol of the rules has a line end in it. -/
def Table.InLines (t : Table) : Prop :=
  ∀ r ∈ t.rules, '\n' ∉ r.situation.symbol.render.toList ∧ '\n' ∉ r.action.symbol.render.toList

section Lines

variable {q : Atom} {a : Action} {cells : List String}

end Lines

namespace Table.OfKind

variable {t : Table} {kind : SymbolKind} (h : t.OfKind kind) (hl : t.InLines)
include h hl

end Table.OfKind

namespace Machine

variable {m : Machine} {kind : SymbolKind}

section Source

variable {spec : KindSpec} {source : String} {n : Machine}

end Source

end Machine

end TapeMachine

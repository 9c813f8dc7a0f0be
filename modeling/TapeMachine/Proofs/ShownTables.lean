import TapeMachine.Proofs.DumpedClauses
import TapeMachine.Proofs.MoreRules
import TapeMachine.Proofs.TableCells
import TapeMachine.Proofs.TableListings

/-!
# Tables that are shown

What is shown of a machine is its dump, the axes of its table, and the table as a grid and as plain
text.  Two sources may write the same table in many ways: in another order, with rules that are
overridden, with other spellings.  Their tables then have the same rules, and nothing that is shown
tells them apart, neither at the start nor after any run.

* `Table.Agrees`: tables that are equal as mappings; `Table.OfKind.perm_of_agrees`: they have the
  same rules.
* `Machine.runFrom_withTable_of_find?`: a run does not see the order of the rules.
* `Machine.dump_withTable`, `ruleGrid_withTable`, `rulePlain_withTable`: nor does what is shown.
* `Machine.shown_eq_of_agrees`: all of this for two sources.
-/

namespace TapeMachine

/-! ### Tables that are equal as mappings -/

/-- The actions say the same, up to likeness. -/
structure Action.Alike (a b : Action) : Prop where
  state : a.state.like b.state = true
  symbol : a.symbol.like b.symbol = true
  move : a.move = b.move

theorem Action.Alike.symm {a b : Action} (h : a.Alike b) : b.Alike a :=
  ⟨Atom.like_comm _ _ ▸ h.state, Atom.like_comm _ _ ▸ h.symbol, h.move.symm⟩

theorem Action.Alike.eq_of_prints {kind : SymbolKind} {a b : Action} (h : a.Alike b)
    (ha : kind.EffectPrints a) (hb : kind.EffectPrints b) : a = b := by
  obtain ⟨p, x, d⟩ := a
  obtain ⟨q, y, e⟩ := b
  obtain rfl : p = q := ha.state.eq_of_like hb.state h.state
  obtain rfl : x = y := SymbolKind.eq_of_like ha.symbol.prints hb.symbol.prints h.symbol
  obtain rfl : d = e := h.move
  rfl

namespace Table

variable {t u : Table} {kind : SymbolKind} {r : Rule}

/-- The tables have actions for the same situations, and these say the same. -/
def Agrees (t u : Table) : Prop := ∀ s, Option.Rel Action.Alike (t.find? s) (u.find? s)

theorem Agrees.symm (h : t.Agrees u) : u.Agrees t := by
  intro s
  have hs := h s
  generalize t.find? s = x at hs ⊢
  generalize u.find? s = y at hs ⊢
  cases hs with
  | some hab => exact .some hab.symm
  | none => exact .none

theorem agrees_of_perm (h : t.rules.Perm u.rules) : t.Agrees u := by
  intro s
  rw [find?_eq_of_perm h s]
  cases u.find? s with
  | some a => exact .some ⟨a.state.like_refl, a.symbol.like_refl, rfl⟩
  | none => exact .none

namespace OfKind

theorem mem_of_agrees (ht : t.OfKind kind) (hu : u.OfKind kind) (h : t.Agrees u)
    (hr : r ∈ t.rules) : r ∈ u.rules := by
  have hf : t.find? r.situation = some r.action :=
    (ht.find?_eq_some_iff (ht.isState hr) (ht.prints hr)).2 hr
  have hs := h r.situation
  rw [hf] at hs
  cases hb : u.find? r.situation with
  | none =>
    rw [hb] at hs
    exact nomatch hs
  | some b =>
    rw [hb] at hs
    cases hs with
    | some hab =>
      have hmem : ⟨r.situation, b⟩ ∈ u.rules :=
        (hu.find?_eq_some_iff (ht.isState hr) (ht.prints hr)).1 hb
      rw [← hab.eq_of_prints (ht r hr).effect (hu _ hmem).effect] at hmem
      exact hmem

/-- **Tables that are equal as mappings** have the same rules, perhaps in another order. -/
theorem perm_of_agrees (ht : t.OfKind kind) (hu : u.OfKind kind) (h : t.Agrees u) :
    t.rules.Perm u.rules :=
  (List.perm_ext_iff_of_nodup t.nodup_situations.of_map u.nodup_situations.of_map).2 fun _ =>
    ⟨ht.mem_of_agrees hu h, hu.mem_of_agrees ht h.symm⟩

end OfKind

end Table

/-! ### Machines with the same rules -/

namespace Machine

variable {m : Machine} {t : Table}

@[simp]
theorem table_withTable (m : Machine) (t : Table) : (m.withTable t).table = t := rfl

theorem next_withTable (h : ∀ s, t.find? s = m.table.find? s) : (m.withTable t).next = m.next := by
  have ha : (m.withTable t).action? = m.action? := h m.situation
  rw [next, next, ha]
  rfl

/-- **A run does not see the order of the rules.** -/
theorem runFrom_withTable_of_find? (h : ∀ s, t.find? s = m.table.find? s) (limit : Nat) :
    (runFrom 0 limit (m.withTable t)).machine = (runFrom 0 limit m).machine.withTable t := by
  induction limit generalizing m with
  | zero => rfl
  | succ limit ih =>
    have hn := next_withTable h
    cases hm : m.next with
    | stuck => rw [runFrom_of_stuck hm, runFrom_of_stuck (hn.trans hm)]
    | halt => rw [runFrom_of_halt hm, runFrom_of_halt (hn.trans hm)]
    | act a =>
      rw [runFrom_of_act hm, runFrom_of_act (hn.trans hm), perform_withTable]
      exact ih (m := m.perform a) h

/-! ### What is shown of them -/

theorem dump_withTable (h : t.sorted = m.table.sorted) : (m.withTable t).dump = m.dump := by
  have hr : (m.withTable t).ruleLines = m.ruleLines := by
    rw [ruleLines, ruleLines, ← h]
    rfl
  rw [dump, dump, dumpLines, dumpLines, hr]
  rfl

section Grids

variable (hf : ∀ s, t.find? s = m.table.find? s) (hq : t.states = m.table.states)
  (hx : t.symbols = m.table.symbols)
include hf

theorem rowCells_withTable : (m.withTable t).rowCells = m.rowCells := by
  have hcell : (m.withTable t).cell = m.cell := by
    funext s
    rw [cell, cell, table_withTable, hf]
  funext xs q
  rw [rowCells, rowCells, hcell]

include hq hx

theorem ruleGrid_withTable : (m.withTable t).ruleGrid = m.ruleGrid := by
  rw [ruleGrid, ruleGrid, rowCells_withTable hf, table_withTable, hq, hx]
  rfl

theorem rulePlain_withTable : (m.withTable t).rulePlain = m.rulePlain := by
  rw [rulePlain_eq, rulePlain_eq, plainLines, plainLines, rowCells_withTable hf, table_withTable,
    hq, hx]

end Grids

/-! ### Two sources of one table -/

section Sources

variable {spec : KindSpec} {kind : SymbolKind} {source₁ source₂ : String} {m₁ m₂ : Machine}

theorem state_of_machineOfSource (hk : spec.resolve = .ok kind.read)
    (h : spec.machineOfSource source₁ = .ok m₁) : m₁.state = m₁.start := by
  obtain ⟨_, _, rfl⟩ := (KindSpec.machineOfSource_eq_ok_iff hk).1 h
  rfl

/-- **What is shown of a table depends only on the table.**  Two sources of the same kind may spell
their tables in whatever way: if the starting states and the tables are equal, then with the same
tape and after a run with the same limit the machines can be listed, and their dumps, the axes of
their tables, the grids and the plain texts are the same. -/
theorem shown_eq_of_agrees (hk : spec.resolve = .ok kind.read)
    (h₁ : spec.machineOfSource source₁ = .ok m₁) (h₂ : spec.machineOfSource source₂ = .ok m₂)
    (hs : m₁.start.like m₂.start = true) (ht : m₁.table.Agrees m₂.table)
    (tape : Tape) (limit : Int) :
    let n₁ := ((m₁.insertTape tape).run limit).machine
    let n₂ := ((m₂.insertTape tape).run limit).machine
    (n₁.table.orderFault? = none ∧ n₂.table.orderFault? = none) ∧
    (n₁.table.statesFault? = none ∧ n₂.table.statesFault? = none) ∧
    n₁.dump = n₂.dump ∧
    n₁.table.states = n₂.table.states ∧ n₁.table.symbols = n₂.table.symbols ∧
    n₁.ruleGrid = n₂.ruleGrid ∧ n₁.rulePlain = n₂.rulePlain := by
  intro n₁ n₂
  have hkind₁ := Table.ofKind_of_machineOfSource hk h₁
  have hkind₂ := Table.ofKind_of_machineOfSource hk h₂
  have hperm := hkind₁.perm_of_agrees hkind₂ ht
  have hstart : m₁.start = m₂.start :=
    (prints_of_machineOfSource hk h₁).1.eq_of_like (prints_of_machineOfSource hk h₂).1 hs
  have hstate : m₁.state = m₂.state := by
    rw [state_of_machineOfSource hk h₁, state_of_machineOfSource hk h₂, hstart]
  have hfind : ∀ s, m₂.table.find? s = m₁.table.find? s :=
    fun s => (Table.find?_eq_of_perm hperm s).symm
  -- the second machine is the first one with its rules in another order
  have hm : m₂.insertTape tape = (m₁.insertTape tape).withTable m₂.table := by
    rw [insertTape, insertTape, withTable, hstart, hstate]
  have hn : n₂ = n₁.withTable m₂.table := by
    show (runFrom 0 _ (m₂.insertTape tape)).machine = _
    rw [hm]
    exact runFrom_withTable_of_find? (m := m₁.insertTape tape) hfind limit.toNat
  have ht₁ : n₁.table = m₁.table := table_runFrom 0 _ _
  have ht₂ : n₂.table = m₂.table := table_runFrom 0 _ _
  have hstates := hkind₁.states_eq_of_perm hperm
  have hsymbols := hkind₁.symbols_eq_of_perm hperm
  rw [← ht₁] at hfind
  rw [ht₁, ht₂]
  refine ⟨⟨hkind₁.orderFault?_eq_none, hkind₂.orderFault?_eq_none⟩,
    ⟨hkind₁.statesFault?_eq_none, hkind₂.statesFault?_eq_none⟩, ?_, hstates, hsymbols, ?_, ?_⟩
  · rw [hn, dump_withTable (by rw [ht₁, hkind₁.sorted_eq_of_perm hperm])]
  · rw [hn, ruleGrid_withTable hfind (by rw [ht₁, hstates]) (by rw [ht₁, hsymbols])]
  · rw [hn, rulePlain_withTable hfind (by rw [ht₁, hstates]) (by rw [ht₁, hsymbols])]

def plainRules : List Clause :=
  [.rule ⟨⟨.number 0, .number 1⟩, ⟨.number 1, .number 2, .left⟩⟩,
    .rule ⟨⟨.number 0, .blank⟩, ⟨.number 1, .number 3, .right⟩⟩]

def overriddenRules : List Clause :=
  [.rule ⟨⟨.number 0, .blank⟩, ⟨.number 1, .number 3, .right⟩⟩,
    .rule ⟨⟨.number 0, .number 1⟩, ⟨.number 9, .number 9, .hold⟩⟩,
    .rule ⟨⟨.number 0, .number 1⟩, ⟨.number 1, .number 2, .left⟩⟩]

theorem agrees_overriddenRules :
    (ofClauses plainRules).table.Agrees (ofClauses overriddenRules).table :=
  Table.agrees_of_perm (by decide +kernel)

/-- The second source also spells numbers and moves otherwise. -/
theorem shown_eq_of_agrees_respelled :
    ∃ m₁ m₂ : Machine,
      (KindSpec.named (.str "int")).machineOfSource
        "(0, 1) -> (1, 2, left) (0, None) -> (1, 3, right)" = .ok m₁ ∧
      (KindSpec.named (.str "int")).machineOfSource
        "(0,None)->(1,+3,RIGHT) (0, 01) -> (9, 9, hold) (0, 1) -> (01, 2, Left)" = .ok m₂ ∧
      m₁.table.rules ≠ m₂.table.rules ∧ m₁.start.like m₂.start = true ∧
      m₁.table.Agrees m₂.table ∧
      ((m₁.insertTape (.ofList [.number 1])).run 1).machine.dump =
        ((m₂.insertTape (.ofList [.number 1])).run 1).machine.dump := by
  have hk : (KindSpec.named (.str "int")).resolve = .ok SymbolKind.number.read := rfl
  have h₁ : (KindSpec.named (.str "int")).machineOfSource
      "(0, 1) -> (1, 2, left) (0, None) -> (1, 3, right)" = .ok (ofClauses plainRules) :=
    (KindSpec.machineOfSource_eq_ok_iff hk).2 ⟨plainRules, by decide +kernel, rfl⟩
  have h₂ : (KindSpec.named (.str "int")).machineOfSource
      "(0,None)->(1,+3,RIGHT) (0, 01) -> (9, 9, hold) (0, 1) -> (01, 2, Left)" =
        .ok (ofClauses overriddenRules) :=
    (KindSpec.machineOfSource_eq_ok_iff hk).2 ⟨overriddenRules, by decide +kernel, rfl⟩
  have hshown := shown_eq_of_agrees hk h₁ h₂ rfl agrees_overriddenRules (.ofList [.number 1]) 1
  exact ⟨_, _, h₁, h₂, by decide +kernel, rfl, agrees_overriddenRules, hshown.2.2.1⟩

end Sources

end Machine

end TapeMachine

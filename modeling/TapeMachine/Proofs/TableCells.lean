import TapeMachine.Grid
import TapeMachine.Proofs.Stepping

/-!
# What the cells of a table say

A table is shown with a short text for each situation: that there is no rule, that a machine halts
there, or what it does.  The text is found by the key that is asked for, the step of a machine by the
symbol under its head, and each of the two decides for itself whether anything would change.  For the
situation that a machine is in they agree.

* `Atom.Spelled`, `Move.Spelled`: how the parts of a rule are spelled.
* `Table.Shows`: what a text should say of a situation.
* `Table.cellText`, `Table.shows_cellText`: the text that says it, with any word for halting.
* `Machine.plainLines`: the cells of the plain text, line by line.
* `Machine.cell_tells_step`: the text for a machine's situation tells its next step.
-/

namespace TapeMachine

open Machine (haltWord markCell)

/-! ### Spellings -/

/-- How an atom is spelled in a cell, with words for the two truth values. -/
inductive Atom.Spelled (yes no : String) : Atom → String → Prop
  | blank : Spelled yes no .blank "None"
  | yes : Spelled yes no (.truth true) yes
  | no : Spelled yes no (.truth false) no
  | number (n : Int) : Spelled yes no (.number n) (toString n)
  | text (s : String) : Spelled yes no (.text s) s

inductive Move.Spelled : Move → String → Prop
  | left : Spelled .left "Left"
  | hold : Spelled .hold "Hold"
  | right : Spelled .right "Right"

theorem Atom.spelled_render (a : Atom) : a.Spelled "true" "false" a.render := by
  rcases a with _ | (_ | _) | n | s
  · exact .blank
  · exact .no
  · exact .yes
  · exact .number n
  · exact .text s

theorem Atom.spelled_label (a : Atom) : a.Spelled "True" "False" a.label := by
  rcases a with _ | (_ | _) | n | s
  · exact .blank
  · exact .no
  · exact .yes
  · exact .number n
  · exact .text s

theorem Move.spelled_name (d : Move) : d.Spelled d.name := by
  cases d with
  | left => exact .left
  | hold => exact .hold
  | right => exact .right

/-! ### Texts of situations -/

def Action.brief (a : Action) : String := s!"{a.state.label},{a.symbol.render},{a.move.name}"

theorem Action.comma_mem_brief (a : Action) : ',' ∈ a.brief.toList := by
  have hcomma : ',' ∈ (toString ",").toList := by decide +kernel
  simp only [brief, String.toList_append, List.mem_append, hcomma, true_or, or_true]

theorem Action.brief_ne (a : Action) {s : String} (h : ',' ∉ s.toList) : a.brief ≠ s := by
  rintro rfl
  exact h a.comma_mem_brief

namespace Table

/-- The text says what the table has for the situation; `halting` is the word for a rule that
changes nothing. -/
structure Shows (halting : String) (t : Table) (s : Situation) (text : String) : Prop where
  undefined_iff : text = "-" ↔ t.find? s = none
  halting_iff : text = halting ↔ ∃ a, t.find? s = some a ∧ Rule.isFixed ⟨s, a⟩ = true
  acting : ∀ a, t.find? s = some a → Rule.isFixed ⟨s, a⟩ = false →
    ∃ state symbol move : String, a.state.Spelled "True" "False" state ∧
      a.symbol.Spelled "true" "false" symbol ∧ a.move.Spelled move ∧
      text = s!"{state},{symbol},{move}"

def cellText (halting : String) (t : Table) (s : Situation) : String :=
  match t.find? s with
  | none => "-"
  | some a => if Rule.isFixed ⟨s, a⟩ then halting else a.brief

variable {halting : String} {t : Table} {s : Situation} {a : Action}

theorem cellText_of_none (h : t.find? s = none) : t.cellText halting s = "-" := by
  rw [cellText, h]

theorem cellText_of_fixed (h : t.find? s = some a) (hf : Rule.isFixed ⟨s, a⟩ = true) :
    t.cellText halting s = halting := by
  rw [cellText, h]
  exact if_pos hf

theorem cellText_of_acting (h : t.find? s = some a) (hf : Rule.isFixed ⟨s, a⟩ = false) :
    t.cellText halting s = a.brief := by
  rw [cellText, h]
  exact if_neg (Bool.eq_false_iff.1 hf)

/-- **The text of a situation says what the table has for it.**  No action looks like the dash or like
the word for halting, which have no comma. -/
theorem shows_cellText (hd : halting ≠ "-") (hc : ',' ∉ halting.toList) (t : Table)
    (s : Situation) : t.Shows halting s (t.cellText halting s) := by
  cases h : t.find? s with
  | none =>
    rw [cellText_of_none h]
    exact ⟨by simp [h], by simp [h, hd.symm], by simp [h]⟩
  | some a =>
    cases hf : Rule.isFixed ⟨s, a⟩ with
    | true =>
      rw [cellText_of_fixed h hf]
      exact ⟨by simp [h, hd], by simp [h, hf], by simp [h, hf]⟩
    | false =>
      have hdash : a.brief ≠ "-" := a.brief_ne (by decide +kernel)
      rw [cellText_of_acting h hf]
      refine ⟨by simp [h, hdash], by simp [h, hf, a.brief_ne hc], fun a' ha' _ => ?_⟩
      obtain rfl := Option.some.inj (h.symm.trans ha')
      exact ⟨_, _, _, a.state.spelled_label, a.symbol.spelled_render, a.move.spelled_name, rfl⟩

end Table

namespace Machine

variable {m : Machine}

theorem shows_cell (m : Machine) (s : Situation) : m.table.Shows haltWord s (m.cell s) :=
  Table.shows_cellText (by decide) (by decide +kernel) m.table s

def plainLines (m : Machine) : List (List String) :=
  m.table.states.map fun q => s!"State {q.label}" :: m.rowCells m.table.symbols q

theorem rulePlain_eq (m : Machine) :
    m.rulePlain =
      "\n=== Transition Table ===\n" ++ tabbed (" " :: m.table.symbols.map Atom.render) ++
        String.join (m.plainLines.map tabbed) := by
  rw [plainLines, List.map_map]
  rfl

/-! ### The situation of a machine -/

theorem cell_situation_eq_dash_iff : m.cell m.situation = "-" ↔ m.next = .stuck :=
  (m.shows_cell m.situation).undefined_iff.trans next_eq_stuck_iff.symm

theorem cell_situation_eq_halt_iff : m.cell m.situation = haltWord ↔ m.next = .halt :=
  (m.shows_cell m.situation).halting_iff.trans next_eq_halt_iff.symm

theorem cell_situation_of_act {a : Action} (h : m.next = .act a) :
    m.cell m.situation = a.brief := by
  obtain ⟨ha, hf⟩ := next_eq_act_iff.1 h
  exact Table.cellText_of_acting ha hf

theorem settle?_eq_halted_iff {fuel : Nat} :
    (∃ r, m.settle? fuel = some r ∧ r.ending = .halted) ↔ (runFrom 0 fuel m).ending = .halted := by
  rw [settle?]
  split
  · next hl => simp [hl]
  · simp

theorem brief_eq_of_perform (m : Machine) (a : Action) :
    a.brief = s!"{(m.perform a).state.label}," ++
      s!"{((m.perform a).tape.read m.tape.head).render},{a.move.name}" := by
  rw [read_perform, if_pos rfl, state_perform, Action.brief]
  simp [String.append_assoc]

/-- **A cell of the table tells the step of a machine** that is in its situation: that a rule is
missing, that nothing changes, or what the state, the cell under the head and the head come to.  So a
run, limited or not, comes to a halt if and only if its steps lead to a machine whose cell says so
before the limit is reached. -/
theorem cell_tells_step (m : Machine) :
    (m.cell m.situation = "-" ↔ ∃ fault, m.step = .error fault) ∧
    (m.cell m.situation = haltWord ↔ ∃ n, m.step = .ok (false, n)) ∧
    (m.cell m.situation ≠ "-" → m.cell m.situation ≠ haltWord →
      ∃ (n : Machine) (d : Move), m.step = .ok (true, n) ∧
        m.cell m.situation =
          s!"{n.state.label}," ++ s!"{(n.tape.read m.tape.head).render},{d.name}" ∧
        n.tape.head = m.tape.head + d.delta) ∧
    (∀ limit : Int, (∃ k, (m.run limit).answer = .ok (k, true)) ↔
      ∃ (k : Nat) (n : Machine), (k : Int) < limit ∧ m.Takes k n ∧
        n.cell n.situation = haltWord) ∧
    ((∃ fuel r, m.settle? fuel = some r ∧ r.ending = .halted) ↔
      ∃ k n, m.Takes k n ∧ n.cell n.situation = haltWord) := by
  refine ⟨?_, ?_, fun hdash hhalt => ?_, fun limit => ?_, ?_⟩
  · rw [cell_situation_eq_dash_iff]
    simp only [step_eq_error_iff, exists_and_left, exists_eq, and_true]
  · rw [cell_situation_eq_halt_iff]
    simp only [step_eq_halted_iff, exists_and_left, exists_eq, and_true]
  · rw [Ne, cell_situation_eq_dash_iff] at hdash
    rw [Ne, cell_situation_eq_halt_iff] at hhalt
    cases hn : m.next with
    | stuck => exact absurd hn hdash
    | halt => exact absurd hn hhalt
    | act a =>
      refine ⟨m.perform a, a.move, step_of_act hn, ?_, head_perform m a⟩
      rw [cell_situation_of_act hn, brief_eq_of_perform m a]
  · simp only [Run.answer_eq_halted_iff, exists_and_left, exists_eq', and_true, run,
      ending_eq_halted_iff, cell_situation_eq_halt_iff, Int.lt_toNat]
  · simp only [settle?_eq_halted_iff, ending_eq_halted_iff, cell_situation_eq_halt_iff]
    constructor
    · rintro ⟨_, k, n, _, htakes, hhalt⟩
      exact ⟨k, n, htakes, hhalt⟩
    · rintro ⟨k, n, htakes, hhalt⟩
      exact ⟨k + 1, k, n, Nat.lt_succ_self k, htakes, hhalt⟩

/-- A machine whose rule is written with numbers, in a state and under a symbol that are truth
values. -/
def mixed : Machine :=
  .new (.ofList [.truth true]) (.truth false)
    (Table.empty.insert ⟨.number 0, .number 1⟩ ⟨.number 2, .truth true, .left⟩)

theorem cell_tells_step_mixed :
    mixed.cell mixed.situation ≠ "-" ∧ mixed.cell mixed.situation ≠ haltWord ∧
      ∃ (n : Machine) (d : Move), mixed.step = .ok (true, n) ∧
        "2,true,Left" = s!"{n.state.label}," ++ s!"{(n.tape.read 0).render},{d.name}" ∧
        n.tape.head = d.delta := by
  have hcell : mixed.cell mixed.situation = "2,true,Left" := by decide +kernel
  have hdash : mixed.cell mixed.situation ≠ "-" := by
    rw [hcell]
    decide
  have hhalt : mixed.cell mixed.situation ≠ haltWord := by
    rw [hcell]
    decide
  have hhead : mixed.tape.head = 0 := rfl
  obtain ⟨n, d, hstep, htext, hmove⟩ := (cell_tells_step mixed).2.2.1 hdash hhalt
  rw [hhead, hcell] at htext
  rw [hhead, Int.zero_add] at hmove
  exact ⟨hdash, hhalt, n, d, hstep, htext, hmove⟩

end Machine

end TapeMachine

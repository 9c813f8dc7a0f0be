import Mathlib.Tactic.Ring
import TapeMachine.Proofs.Sources
import TapeMachine.Proofs.Sweeping
import TapeMachine.Stock

/-!
# Doubling

The stock program `unaryDouble` has a row of ones and writes a second one behind it, with a blank
between them.  In each round it marks a one of the first row by a zero, goes forth over both rows,
adds two ones at the end, comes back and takes the mark away.  On each of the four sweeps of a round
it has two states by turns, since a rule that keeps state and symbol would be a halt.

* `forth_leads`, `back_leads`: the two halves of a round.
* `rounds_lead`: some rounds, by induction on their number, with the exact count of steps.
* `run_unaryDouble`: the program of the stock doubles every number.
-/

namespace TapeMachine.Stock.Doubling

open TapeMachine.Configuration

/-! ### The machine -/

def rules : List Rule :=
  [
    .numbered 0 (.number 1) 1 (.number 0) .right,
    .numbered 0 .blank 4 .blank .right,
    .numbered 1 (.number 1) 11 (.number 1) .right,
    .numbered 11 (.number 1) 1 (.number 1) .right,
    .numbered 1 .blank 2 .blank .right,
    .numbered 11 .blank 2 .blank .right,
    .numbered 2 (.number 1) 12 (.number 1) .right,
    .numbered 12 (.number 1) 2 (.number 1) .right,
    .numbered 2 .blank 3 (.number 1) .right,
    .numbered 12 .blank 3 (.number 1) .right,
    .numbered 3 .blank 5 (.number 1) .left,
    .numbered 5 (.number 1) 15 (.number 1) .left,
    .numbered 15 (.number 1) 5 (.number 1) .left,
    .numbered 5 .blank 6 .blank .left,
    .numbered 15 .blank 6 .blank .left,
    .numbered 6 (.number 1) 16 (.number 1) .left,
    .numbered 16 (.number 1) 6 (.number 1) .left,
    .numbered 6 (.number 0) 0 (.number 1) .right,
    .numbered 16 (.number 0) 0 (.number 1) .right,
    .numbered 4 .blank 4 .blank .hold,
    .numbered 4 (.number 1) 4 (.number 1) .hold
  ]

def table : Table := .ofList rules

theorem readSource_unaryDouble :
    readSource SymbolKind.number.read unaryDouble =
      .ok (.start (.number 0) :: rules.map .rule) := by
  rw [readSource, scanSource, unaryDouble, toList_sourceOf]
  decide +kernel

theorem machineOfSource_unaryDouble :
    (KindSpec.named (.str "int")).machineOfSource unaryDouble =
      .ok (.new .empty (.number 0) table) :=
  (KindSpec.machineOfSource_eq_ok_iff rfl).2
    ⟨_, readSource_unaryDouble, Machine.ofClauses_start_cons _ _⟩

theorem acts_mark : Acts table (.number 0) (.number 1) (.number 1) (.number 0) .right := by
  decide

/-- The states of the way forth over the first row. -/
def forthFirst : List Atom := [.number 1, .number 11]

theorem sweeps_forthFirst : Sweeps table .right forthFirst [.number 1] id := by decide

theorem acts_cross : ∀ q ∈ forthFirst, Acts table q .blank (.number 2) .blank .right := by
  decide

def forthSecond : List Atom := [.number 2, .number 12]

theorem sweeps_forthSecond : Sweeps table .right forthSecond [.number 1] id := by decide

theorem acts_add :
    ∀ q ∈ forthSecond, Acts table q .blank (.number 3) (.number 1) .right := by
  decide

theorem acts_addLast : Acts table (.number 3) .blank (.number 5) (.number 1) .left := by
  decide

def backSecond : List Atom := [.number 5, .number 15]

theorem sweeps_backSecond : Sweeps table .left backSecond [.number 1] id := by decide

theorem acts_crossBack :
    ∀ q ∈ backSecond, Acts table q .blank (.number 6) .blank .left := by
  decide

def backFirst : List Atom := [.number 6, .number 16]

theorem sweeps_backFirst : Sweeps table .left backFirst [.number 1] id := by decide

theorem acts_unmark :
    ∀ q ∈ backFirst, Acts table q (.number 0) (.number 0) (.number 1) .right := by
  decide

theorem acts_finish : Acts table (.number 0) .blank (.number 4) .blank .right := by decide

theorem stops_finished : ∀ x ∈ [Atom.blank, .number 1], Stops table (.number 4) x := by
  decide

/-! ### Rounds -/

def ones (n : Nat) : List Atom := .replicate n (.number 1)

theorem ones_succ (n : Nat) : ones (n + 1) = .number 1 :: ones n := rfl

theorem ones_concat (n : Nat) : ones n ++ [.number 1] = ones (n + 1) :=
  List.replicate_succ'.symm

section Sweeps

variable {t : Table} {states : List Atom} {q : Atom}

theorem right_ones (h : Sweeps t .right states [.number 1] id) (hq : q ∈ states)
    (xs ys : List Atom) (n : Nat) :
    ∃ r ∈ states, Leads t n (ahead q 0 xs (ones n ++ ys)) (ahead r 0 (xs ++ ones n) ys) := by
  have hall : ∀ a ∈ ones n, a ∈ [Atom.number 1] := fun a ha =>
    List.mem_singleton.2 (List.eq_of_mem_replicate ha)
  have hs := h.right 0 xs ys hq hall
  rw [List.map_id, ones, List.length_replicate] at hs
  exact hs

theorem left_ones (h : Sweeps t .left states [.number 1] id) (hq : q ∈ states)
    (xs ys : List Atom) (n : Nat) :
    ∃ r ∈ states, Leads t n (back q 0 (xs ++ ones n) ys) (back r 0 xs (ones n ++ ys)) := by
  have hall : ∀ a ∈ ones n, a ∈ [Atom.number 1] := fun a ha =>
    List.mem_singleton.2 (List.eq_of_mem_replicate ha)
  have hs := h.left 0 xs ys hq hall
  rw [List.map_id, ones, List.length_replicate] at hs
  exact hs

end Sweeps

/-- The first row with a mark on the one behind `a` others and before `b`. -/
def marked (a b : Nat) : List Atom := ones a ++ [.number 0] ++ ones b

/-- The way forth: a one is marked and two ones are added. -/
theorem forth_leads (a b c : Nat) :
    Leads table (b + c + 4)
      (ahead (.number 0) 0 (ones a) (ones (b + 1) ++ .blank :: ones c))
      (back (.number 5) 0 (marked a b ++ [.blank] ++ ones (c + 1)) [.number 1]) := by
  obtain ⟨q, hq, hfirst⟩ := right_ones sweeps_forthFirst (q := .number 1) (by decide)
    (ones a ++ [.number 0]) (.blank :: ones c) b
  obtain ⟨r, hr, hsecond⟩ := right_ones sweeps_forthSecond (q := .number 2) (by decide)
    (marked a b ++ [.blank]) [] c
  rw [List.append_nil] at hsecond
  have hmark := hfirst.head acts_mark.step_right
  have hcross := (hmark.tail (acts_cross q hq).step_right).trans hsecond
  rw [ahead_nil] at hcross
  have hadd := hcross.tail (acts_add r hr).step_right
  rw [List.append_assoc _ (ones c), ones_concat, ahead_nil] at hadd
  have hlast := hadd.tail acts_addLast.step_left
  have hsteps : b + c + 4 = b + 1 + 1 + c + 1 + 1 := by omega
  rw [hsteps, ones_succ]
  exact hlast

/-- The way back: the mark is taken away. -/
theorem back_leads (a b c : Nat) :
    Leads table (b + c + 3)
      (back (.number 5) 0 (marked a b ++ [.blank] ++ ones (c + 1)) [.number 1])
      (ahead (.number 0) 0 (ones (a + 1)) (ones b ++ .blank :: ones (c + 2))) := by
  obtain ⟨q, hq, hsecond⟩ := left_ones sweeps_backSecond (q := .number 5) (by decide)
    (marked a b ++ [.blank]) [.number 1] (c + 1)
  obtain ⟨r, hr, hfirst⟩ := left_ones sweeps_backFirst (q := .number 6) (by decide)
    (ones a ++ [.number 0]) (.blank :: ones (c + 2)) b
  rw [ones_concat, back_concat] at hsecond
  rw [back_concat] at hfirst
  have hcross := (hsecond.tail (acts_crossBack q hq).step_left).trans hfirst
  have hunmark := hcross.tail (acts_unmark r hr).step_right
  have hsteps : b + c + 3 = c + 1 + 1 + b + 1 := by omega
  rw [hsteps, ← ones_concat a]
  exact hunmark

/-- **Some rounds.**  After `a` of them the second row is twice as long; each round takes two steps
more than the one before it. -/
theorem rounds_lead (a b : Nat) :
    Leads table (a * a + (2 * (a + b) + 4) * a)
      (ahead (.number 0) 0 [] (ones (a + b)))
      (ahead (.number 0) 0 (ones a) (ones b ++ .blank :: ones (2 * a))) := by
  induction a generalizing b with
  | zero =>
    have hsecond : Atom.blank :: ones (2 * 0) = [.blank] := rfl
    rw [hsecond, ahead_concat_blank, Nat.zero_add b]
    exact .refl _
  | succ a ih =>
    have hround := (forth_leads a b (2 * a)).trans (back_leads a b (2 * a))
    have hsteps : (a + 1) * (a + 1) + (2 * (a + 1 + b) + 4) * (a + 1) =
        a * a + (2 * (a + (b + 1)) + 4) * a + (b + 2 * a + 4 + (b + 2 * a + 3)) := by ring
    have hn : a + 1 + b = a + (b + 1) := by omega
    rw [hsteps, hn]
    exact (ih (b + 1)).trans hround

theorem finish_halting (n : Nat) :
    Leads table (3 * n ^ 2 + 4 * n + 1) (ahead (.number 0) 0 [] (ones n))
      (ahead (.number 4) 0 (ones n ++ [.blank]) (ones (2 * n))) ∧
    Halting table (ahead (.number 4) 0 (ones n ++ [.blank]) (ones (2 * n))) := by
  have hsteps : 3 * n ^ 2 + 4 * n + 1 = n * n + (2 * (n + 0) + 4) * n + 1 := by ring
  constructor
  · rw [hsteps]
    exact (rounds_lead n 0).tail acts_finish.step_right
  · cases n with
    | zero =>
      have he : ones (2 * 0) = [] := rfl
      rw [he, ahead_nil]
      exact (stops_finished .blank (by decide)).halting
    | succ n => exact (stops_finished (.number 1) (by decide)).halting

/-! ### The program -/

theorem trimBlanks_rows (n : Nat) :
    Tape.trimBlanks (ones n ++ .blank :: ones (2 * n)) =
      if n = 0 then [] else ones n ++ .blank :: ones (2 * n) := by
  cases n with
  | zero => rfl
  | succ n =>
    have hlast : ones (n + 1) ++ .blank :: ones (2 * (n + 1)) =
        ones (n + 1) ++ .blank :: ones (2 * n + 1) ++ [.number 1] := by
      rw [List.append_assoc, List.cons_append, ones_concat]
      rfl
    rw [if_neg (Nat.succ_ne_zero n)]
    refine Tape.trimBlanks_of_ends_ne ?_ ?_
    · rw [ones_succ, List.cons_append, List.head?_cons]
      decide
    · rw [hlast, List.getLast?_concat]
      decide

/-- **The stock program doubles every number**, after a number of steps that is known exactly. -/
theorem run_unaryDouble (n : Nat) (limit : Int) (h : 3 * n ^ 2 + 4 * n + 1 < limit) :
    ∃ m, (KindSpec.named (.str "int")).machineOfSource unaryDouble = .ok m ∧
      let r := (m.insertTape (.ofList (.replicate n (.number 1)))).run limit
      r.answer = .ok (3 * n ^ 2 + 4 * n + 1, true) ∧
      r.machine.state = .number 4 ∧
      r.machine.tape.head = n + 1 ∧
      r.machine.tape.trimmed =
        if n = 0 then []
        else .replicate n (.number 1) ++ .blank :: .replicate (2 * n) (.number 1) := by
  refine ⟨_, machineOfSource_unaryDouble, ?_⟩
  obtain ⟨hl, hhalting⟩ := finish_halting n
  obtain ⟨hanswer, hend⟩ := Machine.run_of_leads_halting
    (m := .new (.ofList (ones n)) (.number 0) table)
    (by rw [Machine.configuration_new_ofList]; exact hl) hhalting h
  have hhead : (0 : Int) + (ones n ++ [Atom.blank]).length = n + 1 := by
    rw [List.length_append, ones, List.length_replicate, List.length_singleton]
    omega
  have htrimmed := Tape.trimmed_of_read_eq_laid (congrArg Configuration.cells hend)
  rw [List.append_assoc, List.singleton_append, trimBlanks_rows] at htrimmed
  exact ⟨hanswer, congrArg Configuration.state hend,
    (congrArg Configuration.head hend).trans hhead, htrimmed⟩

theorem run_unaryDouble_two :
    (3 * (2 : Nat) ^ 2 + 4 * (2 : Nat) + 1 : Int) < 1000 ∧
    ∃ m, (KindSpec.named (.str "int")).machineOfSource unaryDouble = .ok m ∧
      let r := (m.insertTape (.ofList [.number 1, .number 1])).run 1000
      r.answer = .ok (21, true) ∧ r.machine.state = .number 4 ∧ r.machine.tape.head = 3 ∧
      r.machine.tape.trimmed =
        [.number 1, .number 1, .blank, .number 1, .number 1, .number 1, .number 1] :=
  ⟨by decide, run_unaryDouble 2 1000 (by decide)⟩

end TapeMachine.Stock.Doubling

import Mathlib.Algebra.Ring.Nat
import TapeMachine.Machine

/-!
# Runs that are cut

A machine can be driven in stints, each a single step or a run with a limit of its own, and left
alone between them.  This file shows that it does not matter how a run is cut: the machine gets where
one run with all the limits together gets it, after as many steps.  A run that ends before its limit
ends at a machine that rests, and from there on every stint says what the first one said.

* `Stint.work`: what comes of one stint; `Stint.work_eq_runFrom`: a step is a run of one step.
* `Machine.Rests`: every run from the machine ends at once, in the same way.
* `Machine.runFrom_add`: a run in two parts, by induction on the limit of the first one.
* `Machine.after_eq_runFrom`: any number of stints, by induction on their list.
* `Machine.stints_eq_run`: stints one after the other are one run, and the first ending is final.
-/

namespace TapeMachine

/-! ### Stints -/

/-- What a machine is asked for: a step, or a run of at most `limit` steps. -/
inductive Stint
  | step
  | run (limit : Nat)
  deriving DecidableEq, Repr

/-- What a stint tells: whether the step was taken, or the steps of the run and whether the machine
halted; or else the rule that is missing. -/
inductive Reply
  | step (answer : Except MissingRule Bool)
  | run (answer : Except MissingRule (Nat × Bool))

/-- What a reply says of the machine. -/
inductive Verdict
  | running
  | halted
  | missing (situation : Situation)
  deriving DecidableEq, Repr

def Reply.verdict : Reply → Verdict
  | .step (.ok taken) => if taken then .running else .halted
  | .step (.error fault) => .missing fault.situation
  | .run (.ok (_, halted)) => if halted then .halted else .running
  | .run (.error fault) => .missing fault.situation

namespace Stint

/-- The greatest number of steps that a stint takes. -/
def budget : Stint → Nat
  | .step => 1
  | .run limit => limit

/-- What comes of a stint: the machine that is left, the steps that were taken, what was told. -/
structure Result where
  machine : Machine
  taken : Nat
  reply : Reply

/-- Has the machine do a stint.  If a rule is missing, the machine is left where it was missed. -/
def work (m : Machine) : Stint → Result
  | .step =>
    match m.step with
    | .ok (taken, m') => ⟨m', taken.toNat, .step (.ok taken)⟩
    | .error fault => ⟨m, 0, .step (.error fault)⟩
  | .run limit => ⟨(m.run limit).machine, (m.run limit).steps, .run (m.run limit).answer⟩

end Stint

namespace Machine

def after (m : Machine) (ws : List Stint) : Machine := ws.foldl (fun m w => (w.work m).machine) m

def taken : Machine → List Stint → Nat
  | _, [] => 0
  | m, w :: ws => (w.work m).taken + taken (w.work m).machine ws

theorem after_append (m : Machine) (ws vs : List Stint) :
    m.after (ws ++ vs) = (m.after ws).after vs := List.foldl_append

end Machine

/-! ### A step is a run of one step -/

def Run.verdict (r : Run) : Verdict :=
  match r.ending with
  | .stuck => .missing r.machine.situation
  | .halted => .halted
  | .limited => .running

theorem Run.verdict_answer (r : Run) : (Reply.run r.answer).verdict = r.verdict := by
  obtain ⟨m, k, x⟩ := r
  cases x <;> rfl

theorem Run.ending_ne_limited {r : Run} (h : r.verdict ≠ .running) : r.ending ≠ .limited := by
  intro hl
  apply h
  rw [Run.verdict, hl]

namespace Stint

open Machine

theorem work_eq_runFrom (w : Stint) (m : Machine) :
    (w.work m).machine = (runFrom 0 w.budget m).machine ∧
      (w.work m).taken = (runFrom 0 w.budget m).steps ∧
        (w.work m).reply.verdict = (runFrom 0 w.budget m).verdict := by
  cases w with
  | run limit => exact ⟨rfl, rfl, (m.run limit).verdict_answer⟩
  | step =>
    cases h : m.next with
    | stuck =>
      have hs : m.step = .error (m.missing none) := by rw [Machine.step, h]
      rw [work, hs, budget, runFrom_of_stuck h]
      exact ⟨rfl, rfl, rfl⟩
    | halt =>
      have hs : m.step = .ok (false, m) := by rw [Machine.step, h]
      rw [work, hs, budget, runFrom_of_halt h]
      exact ⟨rfl, rfl, rfl⟩
    | act a =>
      have hs : m.step = .ok (true, m.perform a) := by rw [Machine.step, h]
      rw [work, hs, budget, runFrom_of_act h]
      exact ⟨rfl, rfl, rfl⟩

end Stint

namespace Machine

variable {m : Machine} {x : Ending}

/-! ### Machines at rest -/

/-- Every run from the machine ends before its first step, in the given way. -/
def Rests (m : Machine) (x : Ending) : Prop := ∀ limit, runFrom 0 (limit + 1) m = ⟨m, 0, x⟩

theorem Rests.runFrom_of_pos (h : m.Rests x) {limit : Nat} (hl : 0 < limit) :
    runFrom 0 limit m = ⟨m, 0, x⟩ := by
  have hs : limit = limit - 1 + 1 := by omega
  rw [hs]
  exact h (limit - 1)

theorem Rests.machine_runFrom (h : m.Rests x) (limit : Nat) : (runFrom 0 limit m).machine = m := by
  cases limit with
  | zero => rfl
  | succ limit => rw [h limit]

theorem Rests.steps_runFrom (h : m.Rests x) (limit : Nat) : (runFrom 0 limit m).steps = 0 := by
  cases limit with
  | zero => rfl
  | succ limit => rw [h limit]

theorem rests_or_acts (m : Machine) : (∃ x, m.Rests x) ∨ ∃ a, m.next = .act a := by
  cases h : m.next with
  | stuck => exact Or.inl ⟨.stuck, runFrom_of_stuck h⟩
  | halt => exact Or.inl ⟨.halted, runFrom_of_halt h⟩
  | act a => exact Or.inr ⟨a, rfl⟩

/-- **A run that ends before its limit ends at rest.** -/
theorem rests_of_ending {limit : Nat} (h : (runFrom 0 limit m).ending ≠ .limited) :
    (runFrom 0 limit m).machine.Rests (runFrom 0 limit m).ending := by
  induction limit generalizing m with
  | zero => exact absurd rfl h
  | succ limit ih =>
    rcases m.rests_or_acts with ⟨x, hr⟩ | ⟨a, ha⟩
    · rw [hr limit]
      exact hr
    · rw [runFrom_of_act ha] at h ⊢
      exact ih h

/-! ### Runs in two parts -/

/-- **A run can be cut after any number of steps.**  The second part starts from the machine that
the first one leaves; if that one is at rest, the second part takes no step. -/
theorem runFrom_add (n k : Nat) (m : Machine) :
    (runFrom 0 (n + k) m).machine = (runFrom 0 k (runFrom 0 n m).machine).machine ∧
      (runFrom 0 (n + k) m).steps =
        (runFrom 0 n m).steps + (runFrom 0 k (runFrom 0 n m).machine).steps := by
  induction n generalizing m with
  | zero =>
    rw [Nat.zero_add]
    exact ⟨rfl, (Nat.zero_add _).symm⟩
  | succ n ih =>
    rw [Nat.add_right_comm]
    rcases m.rests_or_acts with ⟨x, hr⟩ | ⟨a, ha⟩
    · -- neither the whole run nor its parts take a step
      rw [hr n, hr (n + k), hr.machine_runFrom, hr.steps_runFrom]
      exact ⟨rfl, rfl⟩
    · obtain ⟨hm, hk⟩ := ih (m.perform a)
      rw [runFrom_of_act ha, runFrom_of_act ha, Run.machine_delay, Run.machine_delay,
        Run.steps_delay, Run.steps_delay, hm, hk, Nat.add_assoc]
      exact ⟨rfl, rfl⟩

/-! ### Any number of stints -/

/-- The greatest number of steps that stints take, all together. -/
def budget (ws : List Stint) : Nat := (ws.map Stint.budget).sum

theorem after_eq_runFrom (ws : List Stint) (m : Machine) :
    m.after ws = (runFrom 0 (budget ws) m).machine ∧
      m.taken ws = (runFrom 0 (budget ws) m).steps := by
  induction ws generalizing m with
  | nil => exact ⟨rfl, rfl⟩
  | cons w ws ih =>
    have hb : budget (w :: ws) = w.budget + budget ws := List.sum_cons
    obtain ⟨hm, hk, _⟩ := w.work_eq_runFrom m
    obtain ⟨hm', hk'⟩ := ih (w.work m).machine
    obtain ⟨ha, hs⟩ := runFrom_add w.budget (budget ws) m
    constructor
    · show (w.work m).machine.after ws = _
      rw [hb, ha, hm', hm]
    · rw [taken, hb, hs, hk', hk, hm]

theorem Rests.after (h : m.Rests x) (ws : List Stint) : m.after ws = m := by
  rw [(after_eq_runFrom ws m).1, h.machine_runFrom]

/-- A stint that does not say that the machine is running leaves it at rest, and what it says is
what every later stint says that may take a step. -/
theorem work_after_rest {w v : Stint} (h : (w.work m).reply.verdict ≠ .running)
    (hv : 0 < v.budget) (ws : List Stint) :
    let m' := (w.work m).machine.after ws
    (v.work m').reply.verdict = (w.work m).reply.verdict ∧ (v.work m').machine = m' ∧
      (v.work m').taken = 0 := by
  obtain ⟨hm, _, hw⟩ := w.work_eq_runFrom m
  rw [hw] at h
  have hr := rests_of_ending (Run.ending_ne_limited h)
  rw [← hm] at hr
  intro m'
  -- the stints in between do nothing, so `v` meets the machine that `w` left
  have hm' : m' = (w.work m).machine := hr.after ws
  obtain ⟨gm, gk, gv⟩ := v.work_eq_runFrom m'
  have hrun : runFrom 0 v.budget m' = ⟨m', 0, (runFrom 0 w.budget m).ending⟩ := by
    rw [hm']
    exact hr.runFrom_of_pos hv
  rw [gm, gk, gv, hw, hrun]
  refine ⟨?_, rfl, rfl⟩
  rw [Run.verdict, Run.verdict, hm', hm]

/-- **A run can be cut and taken up again anywhere.**  Stints one after the other leave the machine
as one run does that may take as many steps as all of them, and they take as many steps as it does.
Once a stint has said that the machine halted or that a rule is missing, every later one that may
take a step says the same and leaves the machine as it is. -/
theorem stints_eq_run (m : Machine) (ws : List Stint) :
    m.after ws = (m.run (budget ws)).machine ∧ m.taken ws = (m.run (budget ws)).steps ∧
      ∀ before w between v behind, ws = before ++ w :: between ++ v :: behind →
        (w.work (m.after before)).reply.verdict ≠ .running → 0 < v.budget →
          let m' := m.after (before ++ w :: between)
          (v.work m').reply.verdict = (w.work (m.after before)).reply.verdict ∧
            (v.work m').machine = m' ∧ (v.work m').taken = 0 := by
  refine ⟨(after_eq_runFrom ws m).1, (after_eq_runFrom ws m).2, ?_⟩
  intro before w between v behind _ hw hv
  have ha : m.after (before ++ w :: between) = (w.work (m.after before)).machine.after between :=
    after_append m before (w :: between)
  rw [ha]
  exact work_after_rest hw hv between

/-- A machine with a single rule: it marks a cell, goes on to the next one and is stuck there. -/
def lone : Machine :=
  .new .empty (.number 0) (Table.empty.insert ⟨.number 0, .blank⟩ ⟨.number 1, .truth true, .right⟩)

/-- The rule that a run misses after one step is missed again later. -/
theorem stints_lone :
    lone.after [.step, .run 3, .run 0, .step] = (lone.run 5).machine ∧
      lone.taken [.step, .run 3, .run 0, .step] = (lone.run 5).steps ∧
        ((Stint.run 3).work (lone.after [.step])).reply.verdict = .missing ⟨.number 1, .blank⟩ ∧
          (Stint.step.work (lone.after [.step, .run 3, .run 0])).reply.verdict =
            .missing ⟨.number 1, .blank⟩ := by
  have hw : ((Stint.run 3).work (lone.after [.step])).reply.verdict =
      .missing ⟨.number 1, .blank⟩ := by decide +kernel
  have hn : ((Stint.run 3).work (lone.after [.step])).reply.verdict ≠ .running := by
    rw [hw]
    decide
  obtain ⟨hm, hk, hlater⟩ := stints_eq_run lone [.step, .run 3, .run 0, .step]
  have hv := hlater [.step] (.run 3) [.run 0] .step [] rfl hn (by decide)
  exact ⟨hm, hk, hw, hv.1.trans hw⟩

end Machine

end TapeMachine

import TapeMachine.Machine

/-!
# Steps one after the other

A step is taken, or the machine halts, or a rule is missing.  A run is nothing but steps that are
taken one after the other, up to its limit or to a machine that takes none.

* `Machine.step_eq_taken_iff`, `step_eq_halted_iff`, `step_eq_error_iff`: what a step can come to.
* `Machine.Takes`: steps one after the other; `Machine.takes_runFrom`: those of a run.
* `Machine.runFrom_of_takes`: a run over steps that are known.
* `Machine.ending_eq_halted_iff`: the runs that come to a halt.
-/

namespace TapeMachine

theorem Run.delay_zero (r : Run) : r.delay 0 = r := by
  rw [Run.delay, Nat.zero_add]

namespace Machine

variable {m m' : Machine} {k : Nat}

/-! ### One step -/

theorem step_of_act {a : Action} (h : m.next = .act a) :
    m.step = .ok (true, m.perform a) := by
  rw [Machine.step, h]

theorem step_eq_error_iff {fault : MissingRule} :
    m.step = .error fault ↔ m.next = .stuck ∧ fault = m.missing none := by
  unfold step
  cases m.next <;> simp [eq_comm]

theorem step_eq_halted_iff : m.step = .ok (false, m') ↔ m.next = .halt ∧ m' = m := by
  unfold step
  cases m.next <;> simp [eq_comm]

theorem step_eq_taken_iff :
    m.step = .ok (true, m') ↔ ∃ a, m.next = .act a ∧ m' = m.perform a := by
  unfold step
  cases m.next <;> simp [eq_comm]

/-! ### Many steps -/

/-- So many steps lead from a machine to another. -/
inductive Takes : Machine → Nat → Machine → Prop
  | refl (m : Machine) : Takes m 0 m
  | step {m m₁ m' : Machine} {k : Nat} :
      m.step = .ok (true, m₁) → Takes m₁ k m' → Takes m (k + 1) m'

/-- **The steps of a run** are taken one after the other.  Where it came to its end before the
limit, there was no other step to be taken. -/
theorem takes_runFrom (limit : Nat) (m : Machine) :
    m.Takes (runFrom 0 limit m).steps (runFrom 0 limit m).machine ∧
      match (runFrom 0 limit m).ending with
      | .halted => (runFrom 0 limit m).steps < limit ∧
          (runFrom 0 limit m).machine.step = .ok (false, (runFrom 0 limit m).machine)
      | .limited => (runFrom 0 limit m).steps = limit
      | .stuck => (runFrom 0 limit m).steps < limit ∧
          (runFrom 0 limit m).machine.step =
            .error ((runFrom 0 limit m).machine.missing none) := by
  induction limit generalizing m with
  | zero => exact ⟨.refl m, rfl⟩
  | succ limit ih =>
    cases hn : m.next with
    | stuck =>
      rw [runFrom_of_stuck hn]
      refine ⟨.refl m, Nat.succ_pos limit, ?_⟩
      rw [Machine.step, hn]
    | halt =>
      rw [runFrom_of_halt hn]
      refine ⟨.refl m, Nat.succ_pos limit, ?_⟩
      rw [Machine.step, hn]
    | act a =>
      obtain ⟨htakes, hends⟩ := ih (m.perform a)
      rw [runFrom_of_act hn, Run.machine_delay, Run.steps_delay, Run.ending_delay, Nat.add_comm]
      refine ⟨.step (step_of_act hn) htakes, ?_⟩
      cases he : (runFrom 0 limit (m.perform a)).ending with
      | halted =>
        rw [he] at hends
        exact ⟨Nat.succ_lt_succ hends.1, hends.2⟩
      | limited =>
        rw [he] at hends
        exact congrArg Nat.succ hends
      | stuck =>
        rw [he] at hends
        exact ⟨Nat.succ_lt_succ hends.1, hends.2⟩

/-- **A run over steps that are known** goes on where they lead, with the rest of its limit. -/
theorem runFrom_of_takes (h : m.Takes k m') (limit : Nat) :
    runFrom 0 (k + limit) m = (runFrom 0 limit m').delay k := by
  induction h with
  | refl m => rw [Nat.zero_add, Run.delay_zero]
  | @step m m₁ m' k hs _ ih =>
    obtain ⟨a, ha, rfl⟩ := step_eq_taken_iff.1 hs
    rw [Nat.add_right_comm, runFrom_of_act ha, ih, Run.delay_delay, Nat.add_comm 1 k]

/-- **A run comes to a halt** if its limit allows one step more than lead to a machine that halts,
be it only to see that this step changes nothing. -/
theorem ending_eq_halted_iff {limit : Nat} :
    (runFrom 0 limit m).ending = .halted ↔
      ∃ k m', k < limit ∧ m.Takes k m' ∧ m'.next = .halt := by
  constructor
  · intro he
    obtain ⟨htakes, hends⟩ := takes_runFrom limit m
    rw [he] at hends
    exact ⟨_, _, hends.1, htakes, (step_eq_halted_iff.1 hends.2).1⟩
  · rintro ⟨k, m', hk, htakes, hhalt⟩
    obtain ⟨rest, rfl⟩ := Nat.exists_eq_add_of_lt hk
    rw [Nat.add_assoc, runFrom_of_takes htakes, runFrom_of_halt hhalt]
    rfl

end Machine

end TapeMachine

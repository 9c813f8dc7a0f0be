import TapeMachine.Program

/-!
# What jobs do

A job gives a result or a fault, and leaves a desk.  A chain of jobs goes on at the desk that each
of its links leaves, up to the first fault.

* `Desk.perform_bind`: chains of jobs; `Disk.source`, `Desk.perform_readText_eq`: texts of files.
* `Job.OnlyShows`: jobs that do nothing but show something; `Job.OnlyShows.forM`: many of them.
* `Machine.run_of_not_broken`, `Machine.broken_watch_eq_false`: what a watch does to a run.
* `perform_simulate`: the record of a program that can be read.
-/

namespace TapeMachine

variable {α β : Type}

/-! ### Chains -/

namespace Desk

variable {d d' : Desk} {x : Job α} {f : α → Job β}

theorem perform_take_ok {ε : Type} (d : Desk) (wrap : ε → Fault) (a : α) :
    d.perform (Job.take wrap (.ok a)) = (.ok a, d) := rfl

/-- **A chain of jobs** goes on at the desk that its first link leaves. -/
theorem perform_bind (d : Desk) (x : Job α) (f : α → Job β) :
    d.perform (x >>= f) =
      match d.perform x with
      | (.ok a, d') => d'.perform (f a)
      | (.error fault, d') => (.error fault, d') := by
  rw [perform, ExceptT.run_bind, StateT.run_bind]
  unfold perform
  rcases (ExceptT.run x).run d with ⟨fault | a, d'⟩
  · rfl
  · rfl

theorem perform_bind_of_ok {a : α} (h : d.perform x = (.ok a, d')) :
    d.perform (x >>= f) = d'.perform (f a) := by
  rw [perform_bind, h]

theorem perform_bind_of_error {fault : Fault} (h : d.perform x = (.error fault, d')) :
    d.perform (x >>= f) = (.error fault, d') := by
  rw [perform_bind, h]

end Desk

theorem Job.fail_bind (fault : Fault) (f : α → Job β) : fail fault >>= f = fail fault := rfl

/-! ### Reading -/

def Disk.source (d : Disk) (path : String) : Except Fault String :=
  match d.read path with
  | .error fault => .error (.disk fault)
  | .ok bytes =>
    match Text.decodeUtf8 bytes with
    | .error fault => .error (.encoding fault)
    | .ok text => .ok (String.ofList (Text.normalizeNewlines text.toList))

theorem Disk.source_congr {d d' : Disk} {path : String} (h : d'.read path = d.read path) :
    d'.source path = d.source path := by
  rw [source, source, h]

/-- **To read a file** leaves the desk as it was. -/
theorem Desk.perform_readText_eq (d : Desk) (path : String) :
    d.perform (Job.readText path) = (d.disk.source path, d) := by
  have hget : d.perform get = (.ok d, d) := rfl
  rw [Job.readText, Desk.perform_bind_of_ok hget, Disk.source]
  cases d.disk.read path with
  | error fault => rfl
  | ok bytes =>
    rw [Desk.perform_bind_of_ok (Desk.perform_take_ok d .disk bytes)]
    dsimp only
    cases Text.decodeUtf8 bytes with
    | error fault => rfl
    | ok text => rfl

theorem Desk.perform_readText {d : Desk} {path source : String}
    (h : (d.perform (Job.readText path)).1 = .ok source) :
    d.perform (Job.readText path) = (.ok source, d) :=
  Prod.ext h (by rw [perform_readText_eq])

/-! ### Jobs that only show -/

namespace Job

/-- The job shows something, and does nothing else. -/
def OnlyShows (job : Job Unit) : Prop :=
  ∀ d : Desk, ∃ events, d.perform job = (.ok (), { d with events })

theorem onlyShows_console (text : String) : OnlyShows (console text) := fun _ => ⟨_, rfl⟩

theorem OnlyShows.forM (items : List α) {job : α → Job Unit} (h : ∀ a, OnlyShows (job a)) :
    OnlyShows (items.forM job) := by
  induction items with
  | nil => exact fun d => ⟨d.events, rfl⟩
  | cons a items ih =>
    intro d
    obtain ⟨events, he⟩ := h a d
    obtain ⟨events', he'⟩ := ih { d with events }
    refine ⟨events', ?_⟩
    show d.perform (job a >>= fun _ => items.forM job) = _
    rw [Desk.perform_bind_of_ok he, he']

end Job

/-! ### Watched runs -/

namespace Machine

theorem run_of_not_broken {limit : Int} {period : Option Int} {m : Machine}
    (h : (m.watch limit period).broken = false) : (m.watch limit period).run = m.run limit := by
  by_cases hp : period = some 0
  · subst hp
    rw [watch] at h ⊢
    rw [run]
    generalize limit.toNat = fuel at h ⊢
    cases fuel with
    | zero => rfl
    | succ fuel =>
      -- the first step that is taken breaks the watch
      simp only [watchFrom, runFrom] at h ⊢
      cases hn : m.next with
      | stuck => rfl
      | halt => rfl
      | act a =>
        rw [hn] at h
        cases h
  · exact run_watch hp m limit

theorem broken_watchFrom_eq_false {period : Option Int} (h : period ≠ some 0) (limit : Int)
    (marks : List Nat) (done fuel : Nat) (m : Machine) :
    (watchFrom limit period marks done fuel m).broken = false := by
  induction fuel generalizing marks done m with
  | zero => rfl
  | succ fuel ih =>
    simp only [watchFrom]
    cases m.next with
    | stuck => rfl
    | halt => rfl
    | act a =>
      simp only [if_neg h]
      exact ih _ (done + 1) (m.perform a)

theorem broken_watch_eq_false {period : Option Int} (h : period ≠ some 0) (m : Machine)
    (limit : Int) : (m.watch limit period).broken = false :=
  broken_watchFrom_eq_false h limit [] 0 limit.toNat m

end Machine

theorem Job.perform_replay (d : Desk) (name : String) (w : Watch) :
    ∃ events, d.perform (Job.replay name w) =
      (if w.broken then .error .noPeriod else .ok (), { d with events }) := by
  obtain ⟨events, he⟩ := OnlyShows.forM w.marks
    (fun steps => onlyShows_console (progressLine name steps)) d
  refine ⟨events, ?_⟩
  rw [Job.replay, Desk.perform_bind_of_ok he]
  cases w.broken <;> rfl

/-! ### Simulation -/

variable {d : Desk} {path source tape : String} {plan : Plan} {kind : KindSpec} {m : Machine}
  {t : Tape}

theorem perform_load (hs : (d.perform (Job.readText path)).1 = .ok source)
    (hm : kind.machineOfSource source = .ok m) :
    d.perform (Program.load path kind) = (.ok m, d) := by
  rw [Program.load, Desk.perform_bind_of_ok (Desk.perform_readText hs), hm]
  rfl

theorem perform_loadWithTape (hs : (d.perform (Job.readText path)).1 = .ok source)
    (hm : kind.machineOfSource source = .ok m) (ht : kind.tapeOfText tape = .ok t) :
    d.perform (Program.loadWithTape path (.str tape) kind) = (.ok (m.insertTape t), d) := by
  rw [Program.loadWithTape, Desk.perform_bind_of_ok (perform_load hs hm), Program.tapeOf, ht]
  rfl

theorem Job.perform_runMachine (d : Desk) (m : Machine) (limit period : Int) (name : String)
    (verbose : Bool) :
    ∃ events, d.perform (Job.runMachine m limit period name verbose) =
      let w := m.watch limit (if verbose then some period else none)
      (if w.broken then .error .noPeriod else .ok w.run, { d with events }) := by
  obtain ⟨events, he⟩ :=
    Job.perform_replay d name (m.watch limit (if verbose then some period else none))
  refine ⟨events, ?_⟩
  simp only [Job.runMachine]
  cases hb : (m.watch limit (if verbose then some period else none)).broken with
  | true =>
    rw [hb] at he
    rw [Desk.perform_bind_of_error he]
    rfl
  | false =>
    rw [hb] at he
    rw [Desk.perform_bind_of_ok he]
    rfl

def Plan.watch (plan : Plan) (m : Machine) : Watch :=
  m.watch plan.maxSteps (if plan.verbose then some plan.logFrequency else none)

/-- **A program that can be read** is run, and the record is that of its run, unless the watch
breaks. -/
theorem perform_simulate (hs : (d.perform (Job.readText path)).1 = .ok source)
    (hm : plan.kind.machineOfSource source = .ok m) (ht : plan.kind.tapeOfText tape = .ok t)
    (hp : plan.tape = .str tape) :
    (d.perform (Program.simulate path plan)).1 =
      if (plan.watch (m.insertTape t)).broken then .error .noPeriod
      else .ok (.ofRun path (plan.watch (m.insertTape t)).run plan.trimBlanks d.clock) := by
  obtain ⟨events, he⟩ := Job.perform_runMachine d (m.insertTape t) plan.maxSteps plan.logFrequency
    (Path.baseName path) plan.verbose
  rw [Program.simulate, hp, Desk.perform_bind_of_ok (perform_loadWithTape hs hm ht), Plan.watch]
  cases hb : ((m.insertTape t).watch plan.maxSteps
      (if plan.verbose then some plan.logFrequency else none)).broken with
  | true =>
    simp only [hb, if_true] at he
    rw [Desk.perform_bind_of_error he]
    rfl
  | false =>
    simp only [hb, Bool.false_eq_true, if_false] at he
    rw [Desk.perform_bind_of_ok he]
    rfl

end TapeMachine

import TapeMachine.Proofs.JobResults
import TapeMachine.Proofs.Sources

/-!
# Programs that are read

What is loaded depends on the one file that the path leads to, and to load it changes nothing on the
desk.  If what is in files is text, then a program that cannot be loaded is one that cannot be read.

* `Disk.Legible`: what is at the path is text, if it is a file; the theorems `isUnreadable_of_…`.
* `Program.fetched`, `Program.readied`: what a disk has for a path; the theorems `perform_…_eq` say
  that the jobs find this.
* `Plan.outcome`, `perform_simulate_unwatched`: the record of a run that is not watched.
-/

namespace TapeMachine

variable {d d' : Disk} {path text : String} {read : SymbolReader} {spec : KindSpec} {fault : Fault}

/-! ### Files with texts -/

/-- There may be a file at the path, and then a text is in it. -/
structure Disk.Legible (d : Disk) (path : String) : Prop where
  noNul : Disk.hasNul path = false
  decoded : ∀ bytes, d.read path = .ok bytes → ∃ text, Text.decodeUtf8 bytes = .ok text

theorem Disk.Legible.of_error (fault : DiskFault) (hn : Disk.hasNul path = false)
    (h : d.read path = .error fault) : d.Legible path :=
  ⟨hn, fun bytes hb => by rw [h] at hb; cases hb⟩

theorem Disk.Legible.of_text (bytes : List UInt8) (text : String)
    (hn : Disk.hasNul path = false) (h : d.read path = .ok bytes)
    (ht : Text.decodeUtf8 bytes = .ok text) : d.Legible path :=
  ⟨hn, fun bytes' hb => by rw [h] at hb; cases hb; exact ⟨text, ht⟩⟩

theorem Disk.exists_of_read_error {fault : DiskFault} (hn : Disk.hasNul path = false)
    (h : d.read path = .error fault) : ∃ cause, fault = .system cause path := by
  unfold read named at h
  rw [if_neg (by simp [hn])] at h
  split at h
  · cases h
  · next cause _ =>
    cases h
    exact ⟨cause, rfl⟩

theorem Disk.Legible.isUnreadable (h : d.Legible path) (hs : d.source path = .error fault) :
    fault.isUnreadable = true := by
  rw [Disk.source] at hs
  cases hr : d.read path with
  | error diskFault =>
    obtain ⟨cause, rfl⟩ := Disk.exists_of_read_error h.noNul hr
    rw [hr] at hs
    cases hs
    rfl
  | ok bytes =>
    obtain ⟨text, ht⟩ := h.decoded bytes hr
    simp only [hr, ht] at hs
    cases hs

/-! ### Machines -/

theorem isUnreadable_of_inSource {α : Type} {result : Except SourceFault α}
    (h : (inSource result).mapError Fault.spec = .error fault) : fault.isUnreadable = true := by
  cases result with
  | ok a => cases h
  | error sourceFault =>
    cases h
    rfl

def Program.fetched (d : Disk) (path : String) (spec : KindSpec) : Except Fault Machine :=
  match d.source path with
  | .error fault => .error fault
  | .ok source => (spec.machineOfSource source).mapError .spec

/-- **To load a program** is to look at one file, and leaves the desk as it was. -/
theorem perform_load_eq (d : Desk) (path : String) (spec : KindSpec) :
    d.perform (Program.load path spec) = (Program.fetched d.disk path spec, d) := by
  rw [Program.load, Desk.perform_bind, Desk.perform_readText_eq, Program.fetched]
  cases d.disk.source path with
  | error fault => rfl
  | ok source =>
    cases hm : spec.machineOfSource source with
    | error fault => simp only [hm]; rfl
    | ok m => simp only [hm]; rfl

theorem isUnreadable_of_fetched (h : d.Legible path) (hk : spec.resolve = .ok read)
    (hf : Program.fetched d path spec = .error fault) : fault.isUnreadable = true := by
  rw [Program.fetched] at hf
  cases hs : d.source path with
  | error sourceFault =>
    rw [hs] at hf
    cases hf
    exact h.isUnreadable hs
  | ok source =>
    simp only [hs, KindSpec.machineOfSource_of_resolve hk] at hf
    exact isUnreadable_of_inSource hf

def Program.readied (d : Disk) (path : String) (tape : Json) (spec : KindSpec) :
    Except Fault Machine :=
  match Program.fetched d path spec with
  | .error fault => .error fault
  | .ok m => (Program.tapeOf spec tape).map m.insertTape

theorem Program.readied_congr {tape : Json} (h : d'.read path = d.read path) :
    Program.readied d' path tape spec = Program.readied d path tape spec := by
  rw [Program.readied, Program.readied, Program.fetched, Program.fetched, Disk.source_congr h]

theorem perform_loadWithTape_eq (d : Desk) (path : String) (tape : Json) (spec : KindSpec) :
    d.perform (Program.loadWithTape path tape spec) =
      (Program.readied d.disk path tape spec, d) := by
  rw [Program.loadWithTape, Desk.perform_bind, perform_load_eq, Program.readied]
  cases Program.fetched d.disk path spec with
  | error fault => rfl
  | ok m =>
    dsimp only
    cases Program.tapeOf spec tape with
    | error fault => rfl
    | ok t => rfl

theorem isUnreadable_of_readied (h : d.Legible path) (hk : spec.resolve = .ok read)
    (hr : Program.readied d path (.str text) spec = .error fault) : fault.isUnreadable = true := by
  rw [Program.readied] at hr
  cases hf : Program.fetched d path spec with
  | error fetchFault =>
    rw [hf] at hr
    cases hr
    exact isUnreadable_of_fetched h hk hf
  | ok m =>
    simp only [hf, Program.tapeOf, KindSpec.tapeOfText_of_resolve hk] at hr
    cases ht : Tape.ofText read text with
    | error sourceFault =>
      rw [ht] at hr
      cases hr
      rfl
    | ok t =>
      rw [ht] at hr
      cases hr

/-! ### Unwatched runs -/

/-- The record of a program that is run unwatched. -/
def Plan.outcome (plan : Plan) (d : Disk) (clock : Moment) (path : String) :
    Except Fault RunRecord :=
  (Program.readied d path plan.tape plan.kind).map fun m =>
    .ofRun path (m.run plan.maxSteps) plan.trimBlanks clock

theorem Plan.outcome_congr (plan : Plan) (clock : Moment) (h : d'.read path = d.read path) :
    plan.outcome d' clock path = plan.outcome d clock path := by
  rw [outcome, outcome, Program.readied_congr h]

/-- **A run that is not watched** leaves all as it was but for what was shown. -/
theorem Job.perform_runMachine_unwatched (d : Desk) (m : Machine) (limit period : Int)
    (name : String) :
    ∃ events, d.perform (Job.runMachine m limit period name false) =
      (.ok (m.run limit), { d with events }) := by
  obtain ⟨events, he⟩ := Job.perform_runMachine d m limit period name false
  have hp : (none : Option Int) ≠ some 0 := nofun
  have hb := Machine.broken_watch_eq_false hp m limit
  refine ⟨events, ?_⟩
  simpa [hb, Machine.run_of_not_broken hb] using he

theorem perform_simulate_unwatched (d : Desk) (plan : Plan) (path : String) :
    ∃ events, d.perform (Program.simulate path { plan with verbose := false }) =
      (plan.outcome d.disk d.clock path, { d with events }) := by
  rw [Program.simulate, Plan.outcome]
  have hl := perform_loadWithTape_eq d path plan.tape plan.kind
  cases hr : Program.readied d.disk path plan.tape plan.kind with
  | error fault =>
    rw [hr] at hl
    exact ⟨d.events, Desk.perform_bind_of_error hl⟩
  | ok m =>
    rw [hr] at hl
    obtain ⟨events, he⟩ := Job.perform_runMachine_unwatched d m plan.maxSteps plan.logFrequency
      (Path.baseName path)
    refine ⟨events, ?_⟩
    rw [Desk.perform_bind_of_ok hl, Desk.perform_bind_of_ok he]
    rfl

theorem isUnreadable_of_outcome {plan : Plan} {clock : Moment} (h : d.Legible path)
    (hk : plan.kind.resolve = .ok read) (ht : plan.tape = .str text)
    (ho : plan.outcome d clock path = .error fault) : fault.isUnreadable = true := by
  rw [Plan.outcome, ht] at ho
  cases hr : Program.readied d path (.str text) plan.kind with
  | error readFault =>
    rw [hr] at ho
    cases ho
    exact isUnreadable_of_readied h hk hr
  | ok m =>
    rw [hr] at ho
    cases ho

end TapeMachine

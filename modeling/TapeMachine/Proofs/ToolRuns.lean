import TapeMachine.Proofs.BatchFaults
import TapeMachine.Proofs.LogHistories
import TapeMachine.Proofs.ProgressLines
import TapeMachine.Proofs.SavedSetups
import TapeMachine.Tool

/-!
# Runs by the tools

The simulator loads one program, runs it, and shows how the run ended and what machine it left.  The
batch tool runs its programs in order, puts their records into a log, and tells of each record in
one line.  Both run a program by the same limit, kind of symbols and tape of their command line.

* `Program.of_readied`: what there is if a program can be run.
* `Setup.inRange_of_ofText`: limits and periods of setups that were loaded are positive.
* `Run.told`: how a run ended, in words.
* `Tool.verdict`, `Tool.report`: how the simulator ends after a run, and what it shows then.
* `Tool.perform_simulateOne_of_readied`, `perform_simulateOne_of_fault`: the simulator.
* `Batch.exists_perform_run_logged`, `Batch.of_perform_runFrom`: records of batches with a log.
* `Tool.plan`, `Tool.exists_perform_runBatch`, `of_perform_runBatch`: the batch tool.
-/

namespace TapeMachine

/-! ### Programs that are there -/

section Readied

variable {d : Disk} {path : String} {spec : KindSpec} {tape : Json}

theorem Disk.Legible.of_source {source : String} (h : d.source path = .ok source) :
    d.Legible path := by
  rw [Disk.source] at h
  split at h
  · cases h
  · next bytes hr =>
    split at h
    · cases h
    · next text ht => exact .of_text bytes text (Disk.named_eq_ok_iff.1 hr).1 hr ht

theorem Program.of_tapeOf {t : Tape} (h : tapeOf spec tape = .ok t) :
    (∃ read, spec.resolve = .ok read) ∧ ∃ text, tape = .str text := by
  unfold tapeOf at h
  split at h
  · next text =>
    rw [mapError_eq_ok_iff, KindSpec.tapeOfText, resolved] at h
    cases hk : spec.resolve with
    | ok read => exact ⟨⟨read, rfl⟩, text, rfl⟩
    | error fault =>
      rw [hk] at h
      cases h
  · obtain ⟨_, _, h⟩ := bind_eq_ok_iff.1 h
    cases h

theorem Program.of_readied {m : Machine} (h : readied d path tape spec = .ok m) :
    d.Legible path ∧ (∃ read, spec.resolve = .ok read) ∧ ∃ text, tape = .str text := by
  rw [readied, fetched] at h
  cases hs : d.source path with
  | error fault =>
    rw [hs] at h
    cases h
  | ok source =>
    refine ⟨.of_source hs, ?_⟩
    rw [hs] at h
    dsimp only at h
    split at h
    · cases h
    · obtain ⟨t, ht, _⟩ := map_eq_ok_iff.1 h
      exact of_tapeOf ht

end Readied

/-! ### Numbers of setups -/

/-- The step limit and the period of progress lines are positive. -/
def Config.InRange (c : Config) : Prop := 1 ≤ c.maxSteps ∧ 1 ≤ c.logFrequency

theorem Settings.inRange_of_validate {s : Settings} {c : Config} (h : s.validate = .ok c) :
    c.InRange := by
  obtain ⟨_, _, hsteps, hperiod⟩ := checkRanges_eq_ok_iff.1 (checkRanges_of_validate h)
  exact ⟨hsteps, hperiod⟩

namespace Setup

variable {d d' : Desk} {setup : Setup}

theorem inRange_of_ofText {nesting : Nat} {text : String} (h : ofText nesting text = .ok setup) :
    setup.config.InRange := by
  obtain ⟨_, _, _, hc⟩ := ofText_eq_ok_iff.1 h
  exact Settings.inRange_of_validate hc

theorem inRange_of_load {path : String} {verbose : Bool}
    (h : d.perform (load path verbose) = (.ok setup, d')) : setup.config.InRange := by
  obtain ⟨_, _, _, _, htext, _⟩ := of_perform_load h
  exact inRange_of_ofText htext

theorem inRange_of_loadStandard (h : d.perform loadStandard = (.ok setup, d')) :
    setup.config.InRange :=
  inRange_of_load (perform_loadStandard_eq_ok_iff.1 h)

end Setup

/-! ### What is told of runs -/

def Run.told (r : Run) : String :=
  s!"halted={RunRecord.truthWord (r.ending = .halted)} steps={r.steps}"

/-! ### Batches with a log -/

theorem RunLog.turned_of_perform_create {d d' : Desk} {directory fileStart : String} {log : RunLog}
    (h : d.perform (create directory fileStart) = (.ok log, d')) : log.turned d'.clock = log := by
  obtain ⟨hday, hclock⟩ := of_perform_create h
  rw [hday, hclock]
  rfl

namespace Batch

variable {plan : Plan} {path : String} {d d' : Desk} {r : RunRecord}

theorem exists_perform_run_logged (plan : Plan) {log : RunLog} {place : Option Outcome → Place}
    {read : SymbolReader} {text : String} {paths : List String} (hday : log.turned d.clock = log)
    (hlog : log.Shelved d.disk place) (hk : plan.kind.resolve = .ok read)
    (ht : plan.tape = .str text) (hp : ∀ path ∈ paths, d.disk.Legible path)
    (ha : ∀ path ∈ paths.tail, ∀ w, d.disk.Avoids path (place w)) :
    let records := paths.map (single d plan)
    ∃ shown : Array Event, d.perform (run paths plan (some log)) =
      (.ok (records, some log),
        { d with disk := records.foldl (RunLog.shelve place) d.disk, events := shown }) := by
  intro records
  have hkeep : Keeping ((some log).map fun log => log.turned d.clock) (fun p => ∃ w, p = place w)
      d.disk (RunLog.shelve place) := by
    rw [Option.map_some, hday]
    exact .of_shelved hlog
  have haway : ∀ path ∈ paths.tail, ∀ p, (∃ w, p = place w) → d.disk.Avoids path p := by
    rintro path hpath p ⟨w, rfl⟩
    exact ha path hpath w
  obtain ⟨shown, hrun⟩ := Keeping.gives_run_of_tail (some log) hkeep hk ht hp haway d.events
  rw [Option.map_some, hday] at hrun
  exact ⟨shown, hrun⟩

theorem of_perform_entry (h : d.perform (entry path plan) = (.ok r, d')) :
    r = single d plan path := by
  obtain ⟨events, he⟩ := perform_simulate_unwatched d plan path
  rw [entry, Desk.perform_rescue, he] at h
  rw [single_eq]
  cases ho : plan.outcome d.disk d.clock path with
  | ok r' =>
    rw [ho] at h
    exact (Except.ok.inj (Prod.mk.inj h).1).symm
  | error fault =>
    rw [ho] at h
    dsimp only at h
    split at h
    · exact (Except.ok.inj (Prod.mk.inj h).1).symm
    · cases h

/-- **Every record of a batch** is what its program gave by itself when its turn came, whatever the
programs before it left. -/
theorem of_perform_runFrom {log : Option RunLog} {paths : List String} {rs : List RunRecord}
    {done total : Nat} (h : d.perform (runFrom done total plan log paths) = (.ok rs, d')) :
    List.Forall₂ (fun path r => ∃ d₁ : Desk, r = single d₁ plan path) paths rs := by
  induction paths generalizing d done rs with
  | nil =>
    cases h
    exact .nil
  | cons path paths ih =>
    rw [runFrom] at h
    obtain ⟨r, d₁, hone, h⟩ := Desk.of_perform_bind h
    obtain ⟨_, d₂, _, h⟩ := Desk.of_perform_bind h
    obtain ⟨rs', d₃, hrest, h⟩ := Desk.of_perform_bind h
    cases h
    refine .cons ?_ (ih hrest)
    rw [runOne] at hone
    obtain ⟨r', _, hentry, hone⟩ := Desk.of_perform_bind hone
    obtain ⟨_, _, _, hone⟩ := Desk.of_perform_bind hone
    obtain ⟨_, _, _, hone⟩ := Desk.of_perform_bind hone
    cases hone
    exact ⟨d, of_perform_entry hentry⟩

theorem of_perform_run {log log' : Option RunLog} {paths : List String} {rs : List RunRecord}
    (h : d.perform (run paths plan log) = (.ok (rs, log'), d')) :
    List.Forall₂ (fun path r => ∃ d₁ : Desk, r = single d₁ plan path) paths rs := by
  rw [run] at h
  obtain ⟨_, _, _, h⟩ := Desk.of_perform_bind h
  obtain ⟨_, _, _, h⟩ := Desk.of_perform_bind h
  obtain ⟨rs', _, hrecords, h⟩ := Desk.of_perform_bind h
  obtain ⟨_, _, _, h⟩ := Desk.of_perform_bind h
  cases h
  exact of_perform_runFrom hrecords

end Batch

namespace Tool

variable {d d₁ d₂ : Desk} {a : Arguments} {c : Config} {setup : Setup} {program path : String}
  {m : Machine}

theorem run_of_read {tool : Tool} {words : List String} (h : tool.usage.read words = .ok a) :
    tool.run words = tool.work a := by
  rw [run, h]

/-! ### The simulator -/

/-- How the simulator ends after a run. -/
def verdict (r : Run) : Except Fault Unit :=
  if r.ending = .stuck then .error (.exit 1) else .ok ()

/-- What the simulator shows after a run: the rule that was missing, or how the run ended and what
machine it left. -/
def report (r : Run) : List Event :=
  if r.ending = .stuck then [.print (markup "red" (r.machine.missing none).message) true]
  else [.print r.told true, .print r.machine.dump false]

theorem perform_giveUp {α : Type} (d : Desk) (message : String) :
    d.perform (giveUp message : Job α) =
      (.error (.exit 1), { d with events := d.events.push (.print (markup "red" message) true) }) :=
  rfl

theorem perform_runToEnd (d : Desk) (m : Machine) (a : Arguments) (hc : c.InRange)
    (program : String) :
    let r := m.run (limit a c)
    ∃ marks : List Nat,
      let lines := d.events ++
        (marks.map fun k => d.consoleLine (Job.progressLine program k)).toArray
      d.perform (runToEnd m a c program >>= fun m => Job.emit (.print m.dump false)) =
        (verdict r, { d with events := lines ++ (report r).toArray }) := by
  intro r
  have hwatched := Job.perform_runMachine_of_ne d m (limit a c) (Int.ne_of_gt hc.2) program true
  refine ⟨m.marks (limit a c) (some c.logFrequency), ?_⟩
  intro lines
  rw [runToEnd, bind_assoc, Desk.perform_bind_of_ok hwatched, verdict, report]
  by_cases hstuck : r.ending = .stuck
  · rw [if_pos hstuck, if_pos hstuck, if_pos hstuck]
    rfl
  · rw [if_neg hstuck, if_neg hstuck, if_neg hstuck]
    rfl

/-- **A program that is there** is run and reported on. -/
theorem perform_simulateOne_of_readied (hs : d.perform Setup.loadStandard = (.ok setup, d₁))
    (hrun : a.isGiven "--run" = true)
    (hm : Program.readied d₁.disk program (tape a) (kindSpec a setup.config) = .ok m) :
    let r := m.run (limit a setup.config)
    ∃ marks : List Nat,
      let lines := d₁.events ++
        (marks.map fun k => d₁.consoleLine (Job.progressLine program k)).toArray
      d.perform (simulateOne a program) =
        (verdict r, { d₁ with events := lines ++ (report r).toArray }) := by
  intro r
  have hload : d₁.perform (Job.rescue Fault.isUnreadable
      (Program.loadWithTape program (tape a) (kindSpec a setup.config)) fun fault =>
        giveUp fault.message) = (.ok m, d₁) := by
    rw [Desk.perform_rescue, perform_loadWithTape_eq, hm]
  obtain ⟨marks, hran⟩ :=
    perform_runToEnd d₁ m a (Setup.inRange_of_loadStandard hs) program
  refine ⟨marks, ?_⟩
  intro lines
  rw [simulateOne, Desk.perform_bind_of_ok hs, Desk.perform_bind_of_ok hload, if_pos hrun]
  exact hran

/-- **A program that cannot be read** ends the simulator with the message of the fault. -/
theorem perform_simulateOne_of_fault {fault : Fault}
    (hs : d.perform Setup.loadStandard = (.ok setup, d₁))
    (hf : Program.readied d₁.disk program (tape a) (kindSpec a setup.config) = .error fault)
    (hu : fault.isUnreadable = true) :
    d.perform (simulateOne a program) = (.error (.exit 1), { d₁ with
      events := d₁.events.push (.print (markup "red" fault.message) true) }) := by
  have hload : d₁.perform (Job.rescue Fault.isUnreadable
      (Program.loadWithTape program (tape a) (kindSpec a setup.config)) fun fault =>
        giveUp fault.message) = (.error (.exit 1), { d₁ with
          events := d₁.events.push (.print (markup "red" fault.message) true) }) := by
    rw [Desk.perform_rescue, perform_loadWithTape_eq, hf]
    simp only [hu, if_true]
    exact perform_giveUp d₁ fault.message
  rw [simulateOne, Desk.perform_bind_of_ok hs, Desk.perform_bind_of_error hload]

/-! ### The batch tool -/

def plan (a : Arguments) (c : Config) : Plan where
  tape := tape a
  kind := kindSpec a c
  maxSteps := limit a c
  logFrequency := c.logFrequency
  trimBlanks := c.trimBlanks

def summaryLine (r : RunRecord) : Event := .out (r.summary ++ "\n")

theorem perform_summaries (d : Desk) (rs : List RunRecord) :
    d.perform (rs.forM fun r => Job.say (r.summary ++ "\n")) =
      (.ok (), { d with events := d.events ++ (rs.map summaryLine).toArray }) := by
  induction rs generalizing d with
  | nil => exact congrArg (fun events => (_, { d with events })) Array.append_empty.symm
  | cons r rs ih =>
    have hone : d.perform (Job.say (r.summary ++ "\n")) =
        (.ok (), { d with events := d.events.push (summaryLine r) }) := rfl
    show d.perform (Job.say (r.summary ++ "\n") >>= fun _ => _) = _
    rw [Desk.perform_bind_of_ok hone]
    refine (ih _).trans ?_
    rw [List.map_cons]
    simp only [List.push_append_toArray]

theorem inRange_of_batchSetup (h : d.perform (batchSetup a) = (.ok setup, d₁)) :
    setup.config.InRange := by
  rw [batchSetup] at h
  split at h
  · exact Setup.inRange_of_load h
  · cases h
    exact ⟨by decide, by decide⟩

/-- **The batch tool tells of every program** what it gives by itself, as long as they are texts and
the log can be written.  Only the first program may have to do with the files of the log. -/
theorem exists_perform_runBatch {log : RunLog} {place : Option Outcome → Place}
    {read : SymbolReader} {text : String} (hs : d.perform (batchSetup a) = (.ok setup, d₁))
    (hl : d₁.perform (RunLog.create setup.config.outputDirectory setup.config.logFileStart) =
      (.ok log, d₂))
    (hlog : log.Shelved d₂.disk place) (hk : (kindSpec a setup.config).resolve = .ok read)
    (ht : tape a = .str text) (hp : ∀ path ∈ a.list "--programs", d₂.disk.Legible path)
    (ha : ∀ path ∈ (a.list "--programs").tail, ∀ w, d₂.disk.Avoids path (place w)) :
    let records := (a.list "--programs").map (Batch.single d₂ (plan a setup.config))
    ∃ shown : Array Event, d.perform (runBatch a) = (.ok (), { d₂ with
      disk := records.foldl (RunLog.shelve place) d₂.disk
      events := shown ++ (records.map summaryLine).toArray }) := by
  intro records
  obtain ⟨shown, hbatch⟩ := Batch.exists_perform_run_logged (plan a setup.config)
    (RunLog.turned_of_perform_create hl) hlog hk ht hp ha
  refine ⟨shown, ?_⟩
  rw [runBatch, Desk.perform_bind_of_ok hs, Desk.perform_bind_of_ok hl]
  exact (Desk.perform_bind_of_ok hbatch).trans (perform_summaries _ records)

/-- **Whatever the batch tool tells** is what programs gave by themselves when their turn came. -/
theorem of_perform_runBatch {log : RunLog} {d' : Desk}
    (hs : d.perform (batchSetup a) = (.ok setup, d₁))
    (hl : d₁.perform (RunLog.create setup.config.outputDirectory setup.config.logFileStart) =
      (.ok log, d₂)) (h : d.perform (runBatch a) = (.ok (), d')) :
    ∃ (shown : Array Event) (records : List RunRecord),
      d'.events = shown ++ (records.map summaryLine).toArray ∧
      List.Forall₂ (fun path r => ∃ d₁ : Desk, r = Batch.single d₁ (plan a setup.config) path)
        (a.list "--programs") records := by
  rw [runBatch, Desk.perform_bind_of_ok hs, Desk.perform_bind_of_ok hl] at h
  obtain ⟨⟨records, log'⟩, d₃, hbatch, h⟩ := Desk.of_perform_bind h
  refine ⟨d₃.events, records, ?_, Batch.of_perform_run hbatch⟩
  have htold := h.symm.trans (perform_summaries d₃ records)
  exact congrArg Desk.events (Prod.mk.inj htold).2

end Tool

end TapeMachine

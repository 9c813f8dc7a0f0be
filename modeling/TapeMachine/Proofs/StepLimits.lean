import TapeMachine.Proofs.SessionCourses
import TapeMachine.Proofs.Stepping
import TapeMachine.Proofs.ToolRuns

/-!
# Step limits of command lines

A step limit that is given on the command line is kept: no program takes more steps, and one that
could go on is reported as not halted after just so many.  A negative limit allows no step.  What is
not kept is a limit of zero, which counts as none given: then the limit is that of the
configuration.

* `Machine.KeepsLimit`: a run that keeps a limit; `keepsLimit_run`, `not_keepsLimit_zero`.
* `Config.limitFor`: the limit that counts; `Machine.LimitedBy`, `limitedBy_run`: what it does.
* `Tool.single_of_number`, `single_of_readied`: the records of the batch tool.
* `Tool.limitedBy_given`: **both tools keep a limit if and only if it is not zero.**
* `Tool.not_reports_le_limit`: a program that takes a step at the limit of zero.
-/

namespace TapeMachine

/-! ### Runs within a limit -/

namespace Machine

/-- The run keeps a limit: its steps are steps of the machine, there are no more of them than the
limit allows, and if the machine can take them all, then the limit ended the run. -/
structure KeepsLimit (m : Machine) (n : Int) (r : Run) : Prop where
  takes : m.Takes r.steps r.machine
  le : (r.steps : Int) ≤ max n 0
  all : (∃ m', m.Takes n.toNat m') → r.ending = .limited ∧ (r.steps : Int) = max n 0

theorem steps_run_le (m : Machine) (n : Int) : (m.run n).steps ≤ n.toNat := by
  obtain ⟨_, hends⟩ := takes_runFrom n.toNat m
  rw [run]
  cases he : (runFrom 0 n.toNat m).ending with
  | limited =>
    rw [he] at hends
    exact Nat.le_of_eq hends
  | halted | stuck =>
    rw [he] at hends
    exact Nat.le_of_lt hends.1

/-- **A run keeps its own limit.** -/
theorem keepsLimit_run (m : Machine) (n : Int) : m.KeepsLimit n (m.run n) where
  takes := (takes_runFrom n.toNat m).1
  le := by
    have hle := m.steps_run_le n
    omega
  all := by
    rintro ⟨m', htakes⟩
    have hrun : m.run n = (runFrom 0 0 m').delay n.toNat := runFrom_of_takes htakes 0
    rw [hrun]
    refine ⟨rfl, ?_⟩
    show ((n.toNat + 0 : Nat) : Int) = max n 0
    omega

/-- A run with a positive limit does not keep the limit of zero: it takes a step, or sees that there
is none to take. -/
theorem not_keepsLimit_zero (m : Machine) {n : Int} (hn : 1 ≤ n) : ¬ m.KeepsLimit 0 (m.run n) := by
  intro h
  obtain ⟨hlimited, hnone⟩ := h.all ⟨m, .refl m⟩
  obtain ⟨_, hends⟩ := takes_runFrom n.toNat m
  rw [run] at hlimited hnone
  rw [hlimited] at hends
  have hsteps : (runFrom 0 n.toNat m).steps = n.toNat := hends
  omega

end Machine

/-! ### The limit that counts -/

/-- The step limit that counts if a number is given. -/
def Config.limitFor (c : Config) (n : Int) : Int := if n = 0 then c.maxSteps else n

namespace Machine

/-- What a number given as the limit does to a run: it is kept unless it is zero, and a machine that
could go on is told of as not halted after so many steps. -/
structure LimitedBy (m : Machine) (n : Int) (r : Run) : Prop where
  keepsLimit_iff : m.KeepsLimit n r ↔ n ≠ 0
  told : n ≠ 0 → (∃ m', m.Takes n.toNat m') → r.told = s!"halted=False steps={max n 0}"

theorem limitedBy_run (m : Machine) {c : Config} (hc : c.InRange) (n : Int) :
    m.LimitedBy n (m.run (c.limitFor n)) := by
  rw [Config.limitFor]
  by_cases hn : n = 0
  · subst hn
    rw [if_pos rfl]
    exact ⟨iff_of_false (m.not_keepsLimit_zero hc.1) fun h => h rfl, fun h => absurd rfl h⟩
  · rw [if_neg hn]
    refine ⟨iff_of_true (m.keepsLimit_run n) hn, fun _ hall => ?_⟩
    obtain ⟨hlimited, hsteps⟩ := (m.keepsLimit_run n).all hall
    rw [Run.told, hlimited, ← hsteps]
    rfl

end Machine

namespace Tool

variable {a : Arguments} {c : Config} {n : Int} {d : Desk} {path : String}

theorem limit_of_number (hn : a.number? "--max_steps" = some n) : limit a c = c.limitFor n := by
  rw [limit, hn]
  rfl

/-! ### Records of the batch tool -/

theorem single_of_number (hn : a.number? "--max_steps" = some n) (d : Desk) (path : String) :
    (∃ m, Program.readied d.disk path (tape a) (kindSpec a c) = .ok m ∧
      Batch.single d (plan a c) path =
        .ofRun path (m.run (c.limitFor n)) c.trimBlanks d.clock) ∨
    (Batch.single d (plan a c) path).steps = none := by
  obtain ⟨m, hm, hs⟩ | ⟨fault, _, hs⟩ := Batch.single_cases d (plan a c) path
  · refine .inl ⟨m, hm, ?_⟩
    rw [hs, plan, limit_of_number hn]
  · refine .inr ?_
    rw [hs]
    rfl

theorem single_of_readied (hn : a.number? "--max_steps" = some n) {m : Machine}
    (hm : Program.readied d.disk path (tape a) (kindSpec a c) = .ok m) :
    Batch.single d (plan a c) path = .ofRun path (m.run (c.limitFor n)) c.trimBlanks d.clock := by
  obtain ⟨m', hm', hs⟩ | ⟨fault, hf, _⟩ := Batch.single_cases d (plan a c) path
  · rw [plan] at hm'
    obtain rfl := Except.ok.inj (hm.symm.trans hm')
    rw [hs, plan, limit_of_number hn]
  · rw [plan] at hf
    cases hm.symm.trans hf

/-- The record of a program that gave a machine on the disk, which ran by the given limit. -/
def RanByLimit (a : Arguments) (c : Config) (n : Int) (disk : Disk) (path : String)
    (record : RunRecord) : Prop :=
  ∃ m time, Program.readied disk path (tape a) (kindSpec a c) = .ok m ∧
    record = .ofRun path (m.run (c.limitFor n)) c.trimBlanks time ∧
    m.LimitedBy n (m.run (c.limitFor n))

/-- **A step limit is kept if and only if it is not zero.**  The simulator shows the run of its
program by the limit that counts.  The batch tool, whatever its programs, tells of no other runs
than such; and it does tell of all of them if its programs are there and the log can be written,
where only the first program may have to do with the files of the log. -/
theorem limitedBy_given (d d₁ : Desk) (words : List String) (a : Arguments) (n : Int)
    (setup : Setup) (hn : a.number? "--max_steps" = some n) :
    let c := setup.config
    (∀ program m, simulator.usage.read words = .ok a → a.filled? "--program" = some program →
      a.isGiven "--run" = true → d.perform Setup.loadStandard = (.ok setup, d₁) →
      Program.readied d₁.disk program (tape a) (kindSpec a c) = .ok m →
      let r := m.run (c.limitFor n)
      m.LimitedBy n r ∧ ∃ marks : List Nat,
        let lines := d₁.events ++
          (marks.map fun k => d₁.consoleLine (Job.progressLine program k)).toArray
        d.perform (simulator.run words) =
          (verdict r, { d₁ with events := lines ++ (report r).toArray })) ∧
    (∀ log d₂, batch.usage.read words = .ok a → d.perform (batchSetup a) = (.ok setup, d₁) →
      d₁.perform (RunLog.create c.outputDirectory c.logFileStart) = (.ok log, d₂) →
      (∀ d₃, d.perform (batch.run words) = (.ok (), d₃) →
        ∃ (shown : Array Event) (records : List RunRecord),
          d₃.events = shown ++ (records.map summaryLine).toArray ∧
          List.Forall₂ (fun path record => (∃ disk, RanByLimit a c n disk path record) ∨
            record.steps = none) (a.list "--programs") records) ∧
      ∀ place, log.Shelved d₂.disk place → a.list "--programs" ≠ [] →
        (∀ path ∈ a.list "--programs",
          ∃ m, Program.readied d₂.disk path (tape a) (kindSpec a c) = .ok m) →
        (∀ path ∈ (a.list "--programs").tail, ∀ w, d₂.disk.Avoids path (place w)) →
        ∃ (disk : Disk) (shown : Array Event) (records : List RunRecord),
          d.perform (batch.run words) = (.ok (), { d₂ with
            disk, events := shown ++ (records.map summaryLine).toArray }) ∧
          List.Forall₂ (RanByLimit a c n d₂.disk) (a.list "--programs") records) := by
  intro c
  refine ⟨?_, ?_⟩
  · intro program m hread hprogram hrun hsetup hm r
    refine ⟨m.limitedBy_run (Setup.inRange_of_loadStandard hsetup) n, ?_⟩
    have hwork : simulator.run words = simulateOne a program := by
      rw [run_of_read hread, work, runSimulator, hprogram]
    have hshown := perform_simulateOne_of_readied hsetup hrun hm
    rw [limit_of_number hn, ← hwork] at hshown
    exact hshown
  · intro log d₂ hread hsetup hlog
    have hc : c.InRange := inRange_of_batchSetup hsetup
    have hwork : batch.run words = runBatch a := run_of_read hread
    rw [hwork]
    refine ⟨?_, ?_⟩
    · intro d₃ hrun
      obtain ⟨shown, records, hevents, hrecords⟩ := of_perform_runBatch hsetup hlog hrun
      refine ⟨shown, records, hevents, hrecords.imp ?_⟩
      rintro path record ⟨d', rfl⟩
      obtain ⟨m, hm, hs⟩ | hs := single_of_number (c := c) hn d' path
      · exact .inl ⟨d'.disk, m, d'.clock, hm, hs, m.limitedBy_run hc n⟩
      · exact .inr hs
    · intro place hshelved hsome hready haway
      obtain ⟨first, hfirst⟩ := List.exists_mem_of_ne_nil _ hsome
      obtain ⟨m, hm⟩ := hready first hfirst
      obtain ⟨_, ⟨kind, hk⟩, text, ht⟩ := Program.of_readied hm
      have hlegible : ∀ path ∈ a.list "--programs", d₂.disk.Legible path := by
        intro path hpath
        obtain ⟨m, hm⟩ := hready path hpath
        exact (Program.of_readied hm).1
      obtain ⟨shown, hrun⟩ :=
        exists_perform_runBatch hsetup hlog hshelved hk ht hlegible haway
      refine ⟨_, shown, _, hrun, List.forall₂_map_right_iff.2 (List.forall₂_same.2 ?_)⟩
      intro path hpath
      obtain ⟨m, hm⟩ := hready path hpath
      exact ⟨m, d₂.clock, hm, single_of_readied hn hm, m.limitedBy_run hc n⟩

/-! ### Limits at a desk -/

open Session (preparedDesk)

def zeroWords : List String := ["--program=one.tm", "--run", "--max_steps=0"]

def zeroArguments : Arguments :=
  ⟨[("--max_steps", ["0"]), ("--run", []), ("--program", ["one.tm"])], none⟩

theorem read_zeroWords : simulator.usage.read zeroWords = .ok zeroArguments := by
  with_unfolding_all rfl

theorem loadStandard_preparedDesk :
    preparedDesk.perform Setup.loadStandard = (.ok Setup.standard, preparedDesk) := by
  with_unfolding_all rfl

theorem exists_readied_one : ∃ m, Program.readied preparedDesk.disk "one.tm" (.str "")
    (.named (.str "bool")) = .ok m ∧ (m.run 1000000).told = "halted=True steps=1" ∧
      (m.run 1000000).ending = .halted := by
  have htold : (Program.readied preparedDesk.disk "one.tm" (.str "")
      (.named (.str "bool"))).toOption.map (fun m => ((m.run 1000000).told,
        (m.run 1000000).ending)) = some ("halted=True steps=1", .halted) := by
    decide +kernel
  obtain ⟨m, hm, htold⟩ := Option.map_eq_some_iff.1 htold
  exact ⟨m, eq_ok_of_toOption hm, congrArg Prod.fst htold, congrArg Prod.snd htold⟩

def negativeWords : List String := ["--programs", "one.tm", "one.tm", "--max_steps=-3"]

def negativeArguments : Arguments :=
  ⟨[("--max_steps", ["-3"]), ("--programs", ["one.tm", "one.tm"])], none⟩

def dayLog : RunLog := .ofDay "logs/" "turing_" preparedDesk.clock

theorem shelved_dayLog : dayLog.Shelved preparedDesk.disk Batch.logPlace := by
  rintro (_ | _ | _ | _) <;> exact ⟨[], by decide +kernel⟩

/-- The limit of zero is that of the configuration; with a limit below zero no step is taken. -/
theorem limitedBy_given_two :
    (∃ (m : Machine) (marks : List Nat), ¬ m.KeepsLimit 0 (m.run 1000000) ∧
      preparedDesk.perform (simulator.run zeroWords) =
        (verdict (m.run 1000000), { preparedDesk with
          events := #[] ++
            (marks.map fun k => preparedDesk.consoleLine (Job.progressLine "one.tm" k)).toArray ++
            (report (m.run 1000000)).toArray })) ∧
    ∃ (disk : Disk) (shown : Array Event) (records : List RunRecord),
      preparedDesk.perform (batch.run negativeWords) = (.ok (), { preparedDesk with
        disk, events := shown ++ (records.map summaryLine).toArray }) ∧
      List.Forall₂
        (RanByLimit negativeArguments Config.standard (-3) preparedDesk.disk)
        ["one.tm", "one.tm"] records := by
  obtain ⟨m, hm, _⟩ := exists_readied_one
  refine ⟨?_, ?_⟩
  · obtain ⟨hlimited, marks, hrun⟩ := (limitedBy_given preparedDesk preparedDesk zeroWords
      zeroArguments 0 Setup.standard rfl).1 "one.tm" m read_zeroWords rfl rfl
      loadStandard_preparedDesk hm
    exact ⟨m, marks, fun h => hlimited.keepsLimit_iff.1 h rfl, hrun⟩
  · have hread : batch.usage.read negativeWords = .ok negativeArguments := by
      with_unfolding_all rfl
    have hlog : preparedDesk.perform (RunLog.create "logs/" "turing_") =
        (.ok dayLog, preparedDesk) := by
      with_unfolding_all rfl
    have haway : ∀ w, preparedDesk.disk.Avoids "one.tm" (Batch.logPlace w) := by
      rintro (_ | _ | _ | _) <;> decide +kernel
    have hpaths : negativeArguments.list "--programs" = ["one.tm", "one.tm"] := rfl
    have hready : ∀ path ∈ negativeArguments.list "--programs", ∃ m,
        Program.readied preparedDesk.disk path (tape negativeArguments)
          (kindSpec negativeArguments Config.standard) = .ok m := by
      intro path hpath
      obtain rfl : path = "one.tm" := by simpa [hpaths] using hpath
      exact ⟨m, hm⟩
    exact ((limitedBy_given preparedDesk preparedDesk negativeWords negativeArguments (-3)
      Setup.standard (by decide +kernel)).2 _ preparedDesk hread rfl hlog).2 Batch.logPlace
      shelved_dayLog (List.cons_ne_nil _ _) hready (by simpa [hpaths] using haway)

/-- **A limit of zero is not kept**: the program takes a step. -/
theorem not_reports_le_limit :
    ¬ ∀ (d d₁ : Desk) (words : List String) (a : Arguments) (n : Int) (setup : Setup)
        (program : String) (m : Machine),
      a.number? "--max_steps" = some n → simulator.usage.read words = .ok a →
      a.filled? "--program" = some program → a.isGiven "--run" = true →
      d.perform Setup.loadStandard = (.ok setup, d₁) →
      Program.readied d₁.disk program (tape a) (kindSpec a setup.config) = .ok m →
      ∀ (halted : String) (steps : Nat),
        .print s!"halted={halted} steps={steps}" true ∈
          (d.perform (simulator.run words)).2.events.toList →
        (steps : Int) ≤ max n 0 := by
  intro h
  obtain ⟨m, hm, htold, hhalted⟩ := exists_readied_one
  have hshown := h preparedDesk preparedDesk zeroWords zeroArguments 0 Setup.standard "one.tm" m
    rfl read_zeroWords rfl rfl loadStandard_preparedDesk hm "True" 1
  obtain ⟨marks, hrun⟩ :=
    perform_simulateOne_of_readied (a := zeroArguments) loadStandard_preparedDesk rfl hm
  have hwork : simulator.run zeroWords = simulateOne zeroArguments "one.tm" :=
    run_of_read read_zeroWords
  have hmem : Event.print (m.run 1000000).told true ∈ report (m.run 1000000) := by
    rw [report, hhalted]
    exact List.mem_cons_self
  rw [htold] at hmem
  rw [hwork, hrun] at hshown
  refine absurd (hshown ?_) (by decide)
  simp only [Array.toList_append, List.mem_append]
  exact .inr hmem

end Tool

end TapeMachine

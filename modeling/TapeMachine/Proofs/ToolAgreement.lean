import TapeMachine.Machine.Dump
import TapeMachine.Proofs.GivenOptions
import TapeMachine.Proofs.NewFolders
import TapeMachine.Proofs.ToolRuns

/-!
# The agreement of the tools

The simulator and the batch tool find a program, report faults and print tapes each in its own way.
For one program with the same tape, kind of symbols and step limit they tell the same.  The one
thing that can part them is the folder for logs that each makes before it looks for the program.

* `RunRecord.summary_ofRun`, `Machine.exists_dump_eq`: the lines with the tape.
* `Tool.Tells`, `Tool.Agree`: the simulator tells what a record says, and both tools do.
* `Tool.Asks`: what a command line asks for; `agree_of_asks`.
* `Tool.agree_of_perm`: **both tools tell the same of a program**, by their command lines.
* `Tool.not_agree`: what parts them.
-/

namespace TapeMachine

/-! ### Lines with tapes -/

theorem RunRecord.getD_cellText (a : Atom) : (cellText a).getD "None" = a.render := by
  rw [cellText]
  split
  · next h => rw [h]; rfl
  · rfl

theorem RunRecord.tapeLine_ofRun_trimmed (program : String) (r : Run) (time : Moment) :
    (ofRun program r true time).tapeLine = cellsLine r.machine.tape.trimmed := by
  show ", ".intercalate ((r.machine.tape.trimmed.map cellText).map fun c => c.getD "None") = _
  rw [List.map_map, cellsLine]
  exact congrArg _ (List.map_congr_left fun a _ => getD_cellText a)

theorem RunRecord.summary_ofRun (program : String) (r : Run) (time : Moment) :
    (ofRun program r true time).summary =
      s!"{program}: halted={truthWord (r.ending = .halted)} steps={r.steps} tape=[{cellsLine
        r.machine.tape.trimmed}]" := by
  rw [← tapeLine_ofRun_trimmed program r time]
  rfl

theorem exists_intercalate_concat (sep last : String) (lines : List String) :
    ∃ top, sep.intercalate (lines ++ [last]) = top ++ last := by
  induction lines with
  | nil => exact ⟨"", by rw [List.nil_append, String.intercalate_singleton, String.empty_append]⟩
  | cons line lines ih =>
    obtain ⟨top, htop⟩ := ih
    have hne : lines ++ [last] ≠ [] := List.concat_ne_nil _ _
    refine ⟨line ++ sep ++ top, ?_⟩
    rw [List.cons_append, String.intercalate_cons_of_ne_nil hne, htop, ← String.append_assoc]

theorem Machine.exists_dump_eq (m : Machine) :
    ∃ top, m.dump = top ++ s!"Tape: [{cellsLine m.tape.trimmed}]" :=
  exists_intercalate_concat "\n" _ _

/-! ### Folders of the tools -/

theorem Setup.furnishes_of_loadStandard {d d' : Desk} {setup : Setup}
    (h : d.perform loadStandard = (.ok setup, d')) : Disk.Furnishes d.disk d'.disk := by
  obtain ⟨_, _, _, _, _, hmake, rfl⟩ := of_perform_load (perform_loadStandard_eq_ok_iff.1 h)
  exact Disk.furnishes_of_makeFolders hmake

theorem RunLog.furnishes_of_create {d d' : Desk} {directory fileStart : String} {log : RunLog}
    (h : d.perform (create directory fileStart) = (.ok log, d')) :
    Disk.Furnishes d.disk d'.disk := by
  rw [create] at h
  obtain ⟨_, d₁, hfolders, h⟩ := Desk.of_perform_bind h
  obtain ⟨disk, hmake, rfl⟩ := Desk.of_perform_makeFolders hfolders
  obtain ⟨_, d₂, hnow, h⟩ := Desk.of_perform_bind h
  cases hnow
  obtain ⟨-, rfl⟩ := Prod.mk.inj h
  exact Disk.furnishes_of_makeFolders hmake

section Furnished

open Disk (Furnishes)

variable {d d₁ d₂ : Disk} {path : String}

theorem Program.readied_cases (tape : Json) (spec : KindSpec) (h₁ : Furnishes d d₁)
    (h₂ : Furnishes d d₂) (hsame : (d₁.read path).isOk = (d₂.read path).isOk) :
    readied d₁ path tape spec = readied d₂ path tape spec ∨
      ∃ fault₁ fault₂, readied d₁ path tape spec = .error fault₁ ∧
        readied d₂ path tape spec = .error fault₂ := by
  cases hr₁ : d₁.read path with
  | ok bytes₁ =>
    cases hr₂ : d₂.read path with
    | ok bytes₂ =>
      obtain rfl := h₁.read_eq h₂ hr₁ hr₂
      exact .inl (readied_congr (hr₁.trans hr₂.symm))
    | error fault =>
      rw [hr₁, hr₂] at hsame
      cases hsame
  | error fault₁ =>
    cases hr₂ : d₂.read path with
    | ok bytes₂ =>
      rw [hr₁, hr₂] at hsame
      cases hsame
    | error fault₂ =>
      refine .inr ⟨.disk fault₁, .disk fault₂, ?_, ?_⟩
      · rw [readied, fetched, Disk.source, hr₁]
      · rw [readied, fetched, Disk.source, hr₂]

theorem Disk.Legible.of_furnishes (h : d₁.Legible path) (h₁ : Furnishes d d₁)
    (h₂ : Furnishes d d₂) (hsame : (d₁.read path).isOk = (d₂.read path).isOk) :
    d₂.Legible path := by
  refine ⟨h.noNul, fun bytes₂ hr₂ => ?_⟩
  cases hr₁ : d₁.read path with
  | ok bytes₁ =>
    obtain rfl := h₁.read_eq h₂ hr₁ hr₂
    exact h.decoded _ hr₁
  | error fault =>
    rw [hr₁, hr₂] at hsame
    cases hsame

end Furnished

namespace Tool

variable {d d₁ d₂ : Desk} {path text kind : String} {n : Int} {a b : Arguments} {setup : Setup}
  {log : RunLog} {place : Option Outcome → Place} {shown : Except Fault Unit × Desk}

/-! ### What is to be the same -/

/-- The simulator did with a program what its record says.  It gave up if and only if the record has
an error.  Else it showed the end and the steps that the line of the record has, and last a dump
that ends in the cells of this line. -/
structure Tells (shown : Except Fault Unit × Desk) (path : String) (r : RunRecord) : Prop where
  fails_iff : shown.1 = .error (.exit 1) ↔ r.error.isSome = true
  told : r.error = none →
    ∃ (halted : Bool) (steps : Nat) (cells top : String) (before : Array Event),
      shown.1 = .ok () ∧
      shown.2.events = before ++
        #[.print s!"halted={RunRecord.truthWord halted} steps={steps}" true,
          .print (top ++ s!"Tape: [{cells}]") false] ∧
      r.summary =
        s!"{path}: halted={RunRecord.truthWord halted} steps={steps} tape=[{cells}]"

theorem tells_ofUnreadable (h : shown.1 = .error (.exit 1)) (message : String) (time : Moment) :
    Tells shown path (.ofUnreadable path message time) :=
  ⟨iff_of_true h rfl, nofun⟩

/-- **What is shown of a run** is what the record of the run says. -/
theorem tells_ofRun {r : Run} {lines : Array Event} (h : shown.1 = verdict r)
    (he : shown.2.events = lines ++ (report r).toArray) (time : Moment) :
    Tells shown path (.ofRun path r true time) := by
  by_cases hstuck : r.ending = .stuck
  · have herror : (RunRecord.ofRun path r true time).error =
        some (r.machine.missing none).message := if_pos hstuck
    refine ⟨iff_of_true ?_ (by rw [herror]; rfl), fun hnone => ?_⟩
    · rw [h, verdict, if_pos hstuck]
    · rw [herror] at hnone
      cases hnone
  · have herror : (RunRecord.ofRun path r true time).error = none := if_neg hstuck
    have hok : shown.1 = .ok () := by rw [h, verdict, if_neg hstuck]
    have hgoes : ¬ shown.1 = .error (.exit 1) := by
      intro hends
      cases hok.symm.trans hends
    refine ⟨iff_of_false hgoes (by rw [herror]; exact Bool.false_ne_true), fun _ => ?_⟩
    obtain ⟨top, htop⟩ := r.machine.exists_dump_eq
    refine ⟨r.ending = .halted, r.steps, cellsLine r.machine.tape.trimmed, top, lines, hok, ?_,
      RunRecord.summary_ofRun path r time⟩
    rw [he, report, if_neg hstuck, htop]
    rfl

/-- Both tools tell the same of a program: the batch tool prints the line of a record, which is that
of a batch with this one program, and the simulator does what the record says. -/
def Agree (d d₂ : Desk) (log : RunLog) (plan : Plan) (path : String)
    (words words' : List String) : Prop :=
  ∃ r, (d₂.perform (Batch.run [path] plan (some log))).1 = .ok ([r], some log) ∧
    (∃ (d₃ : Desk) (before : Array Event), d.perform (batch.run words') = (.ok (), d₃) ∧
      d₃.events = before.push (summaryLine r)) ∧
    Tells (d.perform (simulator.run words)) path r

/-! ### The tools by what is asked for -/

/-- The command line asks for the tape, the kind of symbols and the step limit. -/
structure Asks (a : Arguments) (text kind : String) (n : Int) : Prop where
  tape : tape a = .str text
  kindSpec : ∀ c, kindSpec a c = .named (.str kind)
  limit : ∀ c, limit a c = n

/-- **The simulator** does what the record of the program says. -/
theorem tells_single {k : SymbolReader} (ha : Asks a text kind n)
    (hk : (KindSpec.named (.str kind)).resolve = .ok k) (hrun : a.isGiven "--run" = true)
    (hsetup : d.perform Setup.loadStandard = (.ok setup, d₁))
    (hlegible : d₁.disk.Legible path) (h₂ : Disk.Furnishes d.disk d₂.disk)
    (hsame : (d₁.disk.read path).isOk = (d₂.disk.read path).isOk) :
    Tells (d.perform (simulateOne a path)) path (Batch.single d₂
      { tape := .str text, kind := .named (.str kind), maxSteps := n } path) := by
  have h₁ := Setup.furnishes_of_loadStandard hsetup
  have hcases := Program.readied_cases (.str text) (.named (.str kind)) h₁ h₂ hsame
  obtain ⟨m, hm, hs⟩ | ⟨fault₂, hf₂, hs⟩ := Batch.single_cases d₂
    { tape := .str text, kind := .named (.str kind), maxSteps := n } path
  · have hm₁ : Program.readied d₁.disk path (tape a) (kindSpec a setup.config) = .ok m := by
      rw [ha.tape, ha.kindSpec]
      obtain he | ⟨_, fault₂, _, hf₂⟩ := hcases
      · exact he.trans hm
      · cases hm.symm.trans hf₂
    obtain ⟨marks, hshown⟩ := perform_simulateOne_of_readied hsetup hrun hm₁
    rw [ha.limit] at hshown
    rw [hs]
    exact tells_ofRun (congrArg Prod.fst hshown) (congrArg (fun x => x.2.events) hshown) d₂.clock
  · obtain ⟨fault₁, hf₁⟩ : ∃ fault₁,
        Program.readied d₁.disk path (.str text) (.named (.str kind)) = .error fault₁ := by
      obtain he | ⟨fault₁, _, hf₁, _⟩ := hcases
      · exact ⟨fault₂, he.trans hf₂⟩
      · exact ⟨fault₁, hf₁⟩
    have hu := isUnreadable_of_readied hlegible hk hf₁
    rw [← ha.tape, ← ha.kindSpec setup.config] at hf₁
    have hshown := perform_simulateOne_of_fault hsetup hf₁ hu
    rw [hs]
    exact tells_ofUnreadable (congrArg Prod.fst hshown) _ _

/-- **The batch tool** prints the line of the record. -/
theorem exists_perform_runBatch_of_asks {k : SymbolReader} (hb : Asks b text kind n)
    (hk : (KindSpec.named (.str kind)).resolve = .ok k) (hconfig : b.filled? "--config" = none)
    (hprograms : b.list "--programs" = [path])
    (hlog : d.perform (RunLog.create "logs/" "turing_") = (.ok log, d₂))
    (hshelved : log.Shelved d₂.disk place) (hlegible : d₂.disk.Legible path) :
    let plan : Plan := { tape := .str text, kind := .named (.str kind), maxSteps := n }
    let r := Batch.single d₂ plan path
    (d₂.perform (Batch.run [path] plan (some log))).1 = .ok ([r], some log) ∧
    ∃ (d₃ : Desk) (before : Array Event), d.perform (runBatch b) = (.ok (), d₃) ∧
      d₃.events = before.push (summaryLine r) := by
  intro plan r
  have hplan : Tool.plan b Setup.standard.config = plan := by
    rw [Tool.plan, hb.tape, hb.kindSpec, hb.limit]
    rfl
  have hall : ∀ p ∈ [path], d₂.disk.Legible p := by simpa using hlegible
  have hnone : ∀ p ∈ [path].tail, ∀ w, d₂.disk.Avoids p (place w) := by simp
  obtain ⟨_, hone⟩ := Batch.exists_perform_run_logged plan
    (RunLog.turned_of_perform_create hlog) hshelved hk rfl hall hnone
  refine ⟨congrArg Prod.fst hone, ?_⟩
  have hsetup : d.perform (batchSetup b) = (.ok Setup.standard, d) := by
    rw [batchSetup, hconfig]
    rfl
  have hkind : (kindSpec b Setup.standard.config).resolve = .ok k := by rw [hb.kindSpec, hk]
  obtain ⟨before, hshown⟩ := exists_perform_runBatch hsetup hlog hshelved hkind hb.tape
    (by rwa [hprograms]) (by rwa [hprograms])
  rw [hprograms, hplan] at hshown
  exact ⟨_, before, hshown, rfl⟩

/-! ### The tools by their command lines -/

open Usage (wordFor valuesOf)

theorem asks_of_lookup {numeral : String} (htext : a.values.lookup "--tape" = some [text])
    (hkind : a.values.lookup "--symbol_type" = some [kind]) (hk : kind ≠ "")
    (hnumeral : a.values.lookup "--max_steps" = some [numeral])
    (hn : Text.readInt numeral = .ok n) (h0 : n ≠ 0) : Asks a text kind n := by
  have hnumber : a.number? "--max_steps" = some n := by
    simp [Arguments.number?, Arguments.text?, Arguments.list, hnumeral, hn]
  refine ⟨?_, fun c => ?_, fun c => ?_⟩
  · simp [tape, Arguments.handed?, htext]
  · have hfilled : a.filled? "--symbol_type" = some kind := by
      rw [Arguments.filled?, Arguments.text?, Arguments.list, hkind]
      exact Option.filter_some_pos (decide_eq_true hk)
    rw [kindSpec, hfilled]
    rfl
  · rw [limit, hnumber]
    exact if_neg h0

def simulatorWords (path text kind numeral : String) : List String :=
  [wordFor "--program" path, wordFor "--tape" text, wordFor "--symbol_type" kind,
    wordFor "--max_steps" numeral, "--run"]

def batchWords (path text kind numeral : String) : List String :=
  [wordFor "--programs" path, wordFor "--tape" text, wordFor "--symbol_type" kind,
    wordFor "--max_steps" numeral]

section Words

variable {numeral : String} {words words' : List String}

theorem isReadable_numeral (hn : Text.readInt numeral = .ok n) :
    Usage.isReadable ⟨"--max_steps", .one, true, false⟩ numeral = true := by
  rw [Usage.isReadable, hn]
  rfl

theorem forall₂_reads_simulatorWords (hn : Text.readInt numeral = .ok n) :
    List.Forall₂ simulator.usage.Reads (simulatorWords path text kind numeral)
      [("--program", valuesOf path), ("--tape", valuesOf text), ("--symbol_type", valuesOf kind),
        ("--max_steps", valuesOf numeral), ("--run", [])] :=
  .cons (.of_value rfl (by decide) rfl rfl (by decide) rfl)
    (.cons (.of_value rfl (by decide) rfl rfl (by decide) rfl)
    (.cons (.of_value rfl (by decide) rfl rfl (by decide) rfl)
    (.cons (.of_value rfl (by decide) rfl rfl (by decide) (isReadable_numeral hn))
    (.cons (.of_flag rfl (by decide) rfl rfl rfl) .nil))))

theorem forall₂_reads_batchWords (hn : Text.readInt numeral = .ok n) :
    List.Forall₂ batch.usage.Reads (batchWords path text kind numeral)
      [("--programs", valuesOf path), ("--tape", valuesOf text), ("--symbol_type", valuesOf kind),
        ("--max_steps", valuesOf numeral)] :=
  .cons (.of_value rfl (by decide) rfl rfl (by decide) rfl)
    (.cons (.of_value rfl (by decide) rfl rfl (by decide) rfl)
    (.cons (.of_value rfl (by decide) rfl rfl (by decide) rfl)
    (.cons (.of_value rfl (by decide) rfl rfl (by decide) (isReadable_numeral hn)) .nil)))

theorem of_mem_names (h : kind ∈ SymbolKind.names) :
    kind ≠ "" ∧ kind ≠ "--" ∧ ∃ k, (KindSpec.named (.str kind)).resolve = .ok k := by
  simp only [SymbolKind.names, SymbolKind.named, List.map_cons, List.map_nil, List.mem_cons,
    List.not_mem_nil, or_false] at h
  rcases h with rfl | rfl | rfl
  · exact ⟨by decide, by decide, SymbolKind.truth.read, rfl⟩
  · exact ⟨by decide, by decide, SymbolKind.number.read, rfl⟩
  · exact ⟨by decide, by decide, SymbolKind.text.read, rfl⟩

theorem ne_of_readInt (hn : Text.readInt numeral = .ok n) : numeral ≠ "--" := by
  rintro rfl
  have herror : Text.readInt "--" = .error (.malformed "--") := by with_unfolding_all rfl
  cases herror.symm.trans hn

theorem exists_read_simulatorWords (hwords : words.Perm (simulatorWords path text kind numeral))
    (hpath : path ≠ "" ∧ path ≠ "--") (htext : text ≠ "--") (hkind : kind ∈ SymbolKind.names)
    (hn : Text.readInt numeral = .ok n) (h0 : n ≠ 0) :
    ∃ a, simulator.usage.read words = .ok a ∧ Asks a text kind n ∧
      a.filled? "--program" = some path ∧ a.isGiven "--run" = true := by
  obtain ⟨hfilled, hdashes, _⟩ := of_mem_names hkind
  obtain ⟨a, hread, ha⟩ := Usage.exists_read_of_perm hwords (forall₂_reads_simulatorWords hn)
    (by simp) rfl
  simp only [valuesOf, if_neg hpath.2, if_neg htext, if_neg hdashes, if_neg (ne_of_readInt hn)]
    at ha
  refine ⟨a, hread, asks_of_lookup (ha _) (ha _) hfilled (ha _) hn h0, ?_, ?_⟩
  · rw [Arguments.filled?, Arguments.text?, Arguments.list, ha]
    exact Option.filter_some_pos (decide_eq_true hpath.1)
  · rw [Arguments.isGiven, ha]
    rfl

theorem exists_read_batchWords (hwords : words.Perm (batchWords path text kind numeral))
    (hpath : path ≠ "--") (htext : text ≠ "--") (hkind : kind ∈ SymbolKind.names)
    (hn : Text.readInt numeral = .ok n) (h0 : n ≠ 0) :
    ∃ b, batch.usage.read words = .ok b ∧ Asks b text kind n ∧
      b.list "--programs" = [path] ∧ b.filled? "--config" = none := by
  obtain ⟨hfilled, hdashes, _⟩ := of_mem_names hkind
  obtain ⟨b, hread, hb⟩ := Usage.exists_read_of_perm hwords (forall₂_reads_batchWords hn)
    (by simp) rfl
  simp only [valuesOf, if_neg hpath, if_neg htext, if_neg hdashes, if_neg (ne_of_readInt hn)]
    at hb
  refine ⟨b, hread, asks_of_lookup (hb _) (hb _) hfilled (hb _) hn h0, ?_, ?_⟩
  · rw [Arguments.list, hb]
    rfl
  · rw [Arguments.filled?, Arguments.text?, Arguments.list, hb]
    rfl

/-- **Both tools tell the same of a program**, by command lines with the options in any order, each
with its value in one word.  The configuration can be loaded and the log can be written, what is at
the path is a text, and each tool can read it beside its own folder for logs, or neither can.  The
word that reads as no value stands neither for the path nor for the tape. -/
theorem agree_of_perm (hwords : words.Perm (simulatorWords path text kind numeral))
    (hwords' : words'.Perm (batchWords path text kind numeral))
    (hpath : path ≠ "" ∧ path ≠ "--") (htext : text ≠ "--") (hkind : kind ∈ SymbolKind.names)
    (hn : Text.readInt numeral = .ok n) (h0 : n ≠ 0)
    (hsetup : d.perform Setup.loadStandard = (.ok setup, d₁))
    (hlog : d.perform (RunLog.create "logs/" "turing_") = (.ok log, d₂))
    (hshelved : log.Shelved d₂.disk place) (hlegible : d₁.disk.Legible path)
    (hsame : (d₁.disk.read path).isOk = (d₂.disk.read path).isOk) :
    Agree d d₂ log { tape := .str text, kind := .named (.str kind), maxSteps := n } path words
      words' := by
  obtain ⟨_, _, k, hk⟩ := of_mem_names hkind
  obtain ⟨a, hread, ha, hprogram, hrun⟩ :=
    exists_read_simulatorWords hwords hpath htext hkind hn h0
  obtain ⟨b, hread', hb, hprograms, hconfig⟩ :=
    exists_read_batchWords hwords' hpath.2 htext hkind hn h0
  have h₁ := Setup.furnishes_of_loadStandard hsetup
  have h₂ := RunLog.furnishes_of_create hlog
  have hlegible₂ := hlegible.of_furnishes h₁ h₂ hsame
  have hwork : simulator.run words = simulateOne a path := by
    rw [run_of_read hread, work, runSimulator, hprogram]
  have hwork' : batch.run words' = runBatch b := run_of_read hread'
  obtain ⟨hbatch, hline⟩ :=
    exists_perform_runBatch_of_asks hb hk hconfig hprograms hlog hshelved hlegible₂
  refine ⟨_, hbatch, ?_, ?_⟩
  · rw [hwork']
    exact hline
  · rw [hwork]
    exact tells_single ha hk hrun hsetup hlegible h₂ hsame

end Words

/-! ### A desk where the tools part -/

def partedMembers : List (String × Json) := [("output_directory", .str "out/")]

/-- A desk with a program and a configuration, and no folder for logs. -/
def partedDesk : Desk where
  disk := ⟨[(["work"], .folder), (["work", "config"], .folder),
    (["work", "config", "runtime_config.json"],
      .file (Text.encodeUtf8 (Json.obj partedMembers).renderIndented)),
    (["work", "one.tm"], .file (Text.encodeUtf8 Batch.programText))], ["work"]⟩
  clock := ⟨2024, 2, 29, 12, 34, 56, 0⟩
  answers := []
  events := #[]
  nesting := Desk.usualNesting
  nesting_pos := Desk.usualNesting_pos

def partedSetup : Setup :=
  let c := { Config.standard with outputDirectory := "out/" }
  ⟨c.toSettings, c⟩

def partedLog : RunLog := .ofDay "logs/" "turing_" partedDesk.clock

def partedDeskWith (name : String) : Desk :=
  { partedDesk with disk := partedDesk.disk.put ["work", name] .folder }

theorem loadStandard_partedDesk :
    partedDesk.perform Setup.loadStandard = (.ok partedSetup, partedDeskWith "out") := by
  have hfits : (Json.obj partedMembers).Fits Text.numeralLimit partedDesk.nesting :=
    .obj (by decide) (List.forall_mem_singleton.2 (.str "out/"))
  have hwhole : (Json.obj partedMembers).Whole :=
    .obj (List.forall_mem_singleton.2 (.str "out/"))
  have htext : Setup.ofText partedDesk.nesting (Json.obj partedMembers).renderIndented = .ok partedSetup :=
    Setup.ofText_eq_ok_iff.2 ⟨_, Json.readWithin_renderIndented hfits hwhole, rfl, rfl⟩
  have hread : partedDesk.disk.read Setup.standardPath =
      .ok (Text.encodeUtf8 (Json.obj partedMembers).renderIndented) := by
    with_unfolding_all rfl
  have hmake : partedDesk.disk.makeFolders "out/" = ((partedDeskWith "out").disk, .ok ()) := by
    with_unfolding_all rfl
  refine Setup.perform_loadStandard_eq_ok_iff.2 ?_
  exact Setup.perform_load_of_source false (Disk.exists_of_read hread)
    (Disk.source_of_inLines (Json.inLines_renderAt hwhole 0) hread) htext hmake

theorem create_partedDesk : partedDesk.perform (RunLog.create "logs/" "turing_") =
    (.ok partedLog, partedDeskWith "logs") := by
  with_unfolding_all rfl

theorem shelved_partedLog : partedLog.Shelved (partedDeskWith "logs").disk Batch.logPlace := by
  rintro (_ | _ | _ | _) <;> exact ⟨[], by decide +kernel⟩

def partedPlan (text : String) : Plan :=
  { tape := .str text, kind := .named (.str "bool"), maxSteps := 5 }

theorem rooted_partedDesk : partedDesk.disk.Rooted := by
  refine Disk.rooted_of_nodes ?_
  simp only [partedDesk, List.forall_mem_cons]
  exact ⟨.inr rfl, .inr rfl, .inr rfl, .inr rfl, List.forall_mem_nil _⟩

theorem legible_partedDesk_of_text {name path : String} (hn : Disk.hasNul path = false)
    (h : (partedDeskWith name).disk.read path = .ok (Text.encodeUtf8 Batch.programText)) :
    (partedDeskWith name).disk.Legible path :=
  .of_text _ Batch.programText hn h (Text.decodeUtf8_encodeUtf8 (Text.forall_mem_of_all rfl))

/-- The program is at its path for both tools, in whatever order they get their words. -/
theorem agree_one : Agree partedDesk (partedDeskWith "logs") partedLog (partedPlan "") "one.tm"
    (simulatorWords "one.tm" "" "bool" "5").reverse (batchWords "one.tm" "" "bool" "5").reverse := by
  have habove : Path.above ∉ Path.names "one.tm" := by decide
  have hlegible : (partedDeskWith "out").disk.Legible "one.tm" :=
    legible_partedDesk_of_text (by decide) (by decide +kernel)
  have hout := (Setup.furnishes_of_loadStandard loadStandard_partedDesk).isOk_read_eq
    rooted_partedDesk habove
  have hlogs := (RunLog.furnishes_of_create create_partedDesk).isOk_read_eq rooted_partedDesk habove
  exact agree_of_perm (List.reverse_perm _) (List.reverse_perm _) ⟨by decide, by decide⟩
    (by decide) (by decide) rfl (by decide) loadStandard_partedDesk create_partedDesk
    shelved_partedLog hlegible (hout.trans hlogs.symm)

/-- A way back from a folder that only the batch tool makes. -/
def backPath : String := "logs/../one.tm"

theorem eq_single_of_perform {path text : String} {r : RunRecord}
    (hlegible : (partedDeskWith "logs").disk.Legible path)
    (h : ((partedDeskWith "logs").perform
      (Batch.run [path] (partedPlan text) (some partedLog))).1 = .ok ([r], some partedLog)) :
    r = Batch.single (partedDeskWith "logs") (partedPlan text) path := by
  have hall : ∀ p ∈ [path], (partedDeskWith "logs").disk.Legible p := by simpa using hlegible
  have hnone : ∀ p ∈ [path].tail, ∀ w,
      (partedDeskWith "logs").disk.Avoids p (Batch.logPlace w) := by simp
  have hkind : (partedPlan text).kind.resolve = .ok SymbolKind.truth.read := rfl
  obtain ⟨_, hrun⟩ := Batch.exists_perform_run_logged (partedPlan text)
    (RunLog.turned_of_perform_create create_partedDesk) shelved_partedLog hkind rfl hall hnone
  rw [hrun] at h
  exact (List.cons.inj (Prod.mk.inj (Except.ok.inj h)).1).1.symm

theorem not_agree_back : ¬ Agree partedDesk (partedDeskWith "logs") partedLog (partedPlan "")
    backPath (simulatorWords backPath "" "bool" "5") (batchWords backPath "" "bool" "5") := by
  rintro ⟨r, hbatch, _, htells⟩
  -- the batch tool finds the program
  have hlegible : (partedDeskWith "logs").disk.Legible backPath :=
    legible_partedDesk_of_text (by decide) (by decide +kernel)
  obtain rfl := eq_single_of_perform hlegible hbatch
  have hnone : (Batch.single (partedDeskWith "logs") (partedPlan "") backPath).error = none := by
    decide +kernel
  -- and the simulator does not
  have hread : (partedDeskWith "out").disk.read backPath = .error (.system .missing backPath) := by
    decide +kernel
  obtain ⟨a, ha, _, hprogram, _⟩ := exists_read_simulatorWords (n := 5) (List.Perm.refl
    (simulatorWords backPath "" "bool" "5")) ⟨by decide, by decide⟩ (by decide) (by decide) rfl
    (by decide)
  have hfault : Program.readied (partedDeskWith "out").disk backPath (tape a)
      (kindSpec a partedSetup.config) = .error (.disk (.system .missing backPath)) := by
    rw [Program.readied, Program.fetched, Disk.source, hread]
  have hgivesUp := perform_simulateOne_of_fault loadStandard_partedDesk hfault rfl
  have hwork : simulator.run (simulatorWords backPath "" "bool" "5") = simulateOne a backPath := by
    rw [run_of_read ha, work, runSimulator, hprogram]
  rw [hwork, hgivesUp] at htells
  have hsome := htells.fails_iff.1 rfl
  rw [hnone] at hsome
  cases hsome

theorem not_agree_dashed_tape : ¬ Agree partedDesk (partedDeskWith "logs") partedLog
    (partedPlan "--") "one.tm" (simulatorWords "one.tm" "--" "bool" "5")
      (batchWords "one.tm" "--" "bool" "5") := by
  rintro ⟨_, _, ⟨d₃, _, hrun, _⟩, _⟩
  have hfails : (partedDesk.perform (batch.run (batchWords "one.tm" "--" "bool" "5"))).1.isOk =
      false := by decide +kernel
  rw [hrun] at hfails
  cases hfails

def outText? : Event → Option String
  | .out text => some text
  | _ => none

theorem not_agree_dashed_path : ¬ Agree partedDesk (partedDeskWith "logs") partedLog
    (partedPlan "") "--" (simulatorWords "--" "" "bool" "5") (batchWords "--" "" "bool" "5") := by
  rintro ⟨r, hbatch, ⟨d₃, before, hrun, hlast⟩, _⟩
  have hlegible : (partedDeskWith "logs").disk.Legible "--" :=
    .of_error (.system .missing "--") (by decide) (by decide +kernel)
  obtain rfl := eq_single_of_perform hlegible hbatch
  -- no program is given, so the last thing the batch tool says is not of a program
  have hsaid : ((partedDesk.perform (batch.run (batchWords "--" "" "bool" "5"))).2.events.back?.bind
      outText?) = some "[work] [SUCCESS] All programs simulated.\n" := by
    decide +kernel
  rw [hrun, hlast, Array.back?_push] at hsaid
  exact absurd hsaid (by decide +kernel)

/-- **What parts the tools**: a way back from a folder that only one of them makes, and the word
that reads as no value, for the tape or for the path.  None of the paths is of a file of the log. -/
theorem not_agree :
    partedDesk.perform Setup.loadStandard = (.ok partedSetup, partedDeskWith "out") ∧
    partedDesk.perform (RunLog.create "logs/" "turing_") = (.ok partedLog, partedDeskWith "logs") ∧
    partedLog.Shelved (partedDeskWith "logs").disk Batch.logPlace ∧
    ∀ c ∈ [(backPath, ""), ("one.tm", "--"), ("--", "")],
      (∀ name ∈ ["out", "logs"], (partedDeskWith name).disk.Legible c.1) ∧
      (∀ w, (partedDeskWith "logs").disk.Avoids c.1 (Batch.logPlace w)) ∧
      ¬ Agree partedDesk (partedDeskWith "logs") partedLog (partedPlan c.2) c.1
        (simulatorWords c.1 c.2 "bool" "5") (batchWords c.1 c.2 "bool" "5") := by
  refine ⟨loadStandard_partedDesk, create_partedDesk, shelved_partedLog, ?_⟩
  simp only [List.forall_mem_cons]
  refine ⟨⟨⟨?_, ?_, List.forall_mem_nil _⟩, ?_, not_agree_back⟩,
    ⟨⟨?_, ?_, List.forall_mem_nil _⟩, ?_, not_agree_dashed_tape⟩,
    ⟨⟨?_, ?_, List.forall_mem_nil _⟩, ?_, not_agree_dashed_path⟩, List.forall_mem_nil _⟩
  case refine_3 | refine_6 | refine_9 => rintro (_ | _ | _ | _) <;> decide +kernel
  · exact .of_error (.system .missing backPath) (by decide) (by decide +kernel)
  · exact legible_partedDesk_of_text (by decide) (by decide +kernel)
  · exact legible_partedDesk_of_text (by decide) (by decide +kernel)
  · exact legible_partedDesk_of_text (by decide) (by decide +kernel)
  · exact .of_error (.system .missing "--") (by decide) (by decide +kernel)
  · exact .of_error (.system .missing "--") (by decide) (by decide +kernel)

end Tool

end TapeMachine

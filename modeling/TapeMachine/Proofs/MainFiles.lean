import TapeMachine.Config
import TapeMachine.Proofs.LogHistories

/-!
# Main files of logs

The main file of a log gets each run once, as long as it is none of the files of the outcomes.  What
its name starts with is not checked, so that it can be one of them: then a run with that outcome is
in it twice.

* `RunLog.sentTo_logRuns`: the entries that runs make in the main file.
* `place_outcomeFile_eq_iff`: which start of a name makes it the file of an outcome.
* `recorded_once_iff`: when each run is there once; `recorded_twice`: and when not.
-/

namespace TapeMachine.RunLog

variable {place : String → Place} {d : Disk} {directory fileStart : String} {log : RunLog}
  {moments : Moment × Moment} {runs : List (List (String × Json))}

/-! ### Entries of runs -/

/-- The entries that a run makes in the main file. -/
def inMain (place : String → Place) (log : RunLog) (run : List (String × Json)) : List Json :=
  .obj run :: if place (log.outcomeFile (outcomeOf run)) = place log.mainFile then [.obj run] else []

theorem appends_logRuns (moments : Moment × Moment) (runs : List (List (String × Json))) :
    appends directory fileStart moments (runs.map .logRun) =
      runs.flatMap fun run =>
        (Doing.logRun run).appends (ofDay directory fileStart moments.1) := by
  induction runs with
  | nil => rfl
  | cons run runs ih => rw [List.map_cons, appends, List.flatMap_cons, ← ih]; rfl

theorem sentTo_append {p : Place} (puts puts' : List (String × List Json)) :
    sentTo place p (puts ++ puts') = sentTo place p puts ++ sentTo place p puts' := by
  rw [sentTo, List.filter_append, List.flatMap_append, sentTo, sentTo]

theorem sentTo_logRuns (log : RunLog) (runs : List (List (String × Json))) :
    sentTo place (place log.mainFile) (runs.flatMap fun run => (Doing.logRun run).appends log) =
      runs.flatMap (inMain place log) := by
  induction runs with
  | nil => rfl
  | cons run runs ih =>
    rw [List.flatMap_cons, sentTo_append, ih, List.flatMap_cons]
    congr 1
    rw [Doing.appends, sentTo_cons, sentTo_cons, if_pos rfl, inMain]
    exact congrArg (Json.obj run :: ·) (List.append_nil _)

theorem length_le_length_flatMap_inMain (runs : List (List (String × Json))) :
    runs.length ≤ (runs.flatMap (inMain place log)).length := by
  induction runs with
  | nil => exact Nat.le_refl _
  | cons run runs ih =>
    rw [List.flatMap_cons, List.length_append, inMain, List.length_cons, List.length_cons]
    omega

theorem flatMap_inMain_eq_iff :
    runs.flatMap (inMain place log) = runs.map .obj ↔
      ∀ run ∈ runs, place (log.outcomeFile (outcomeOf run)) ≠ place log.mainFile := by
  induction runs with
  | nil => exact ⟨fun _ => List.forall_mem_nil _, fun _ => rfl⟩
  | cons run runs ih =>
    rw [List.forall_mem_cons, ← ih, List.flatMap_cons, List.map_cons, inMain, List.cons_append,
      List.cons_inj_right]
    by_cases h : place (log.outcomeFile (outcomeOf run)) = place log.mainFile
    · -- an entry too many
      rw [if_pos h, List.singleton_append]
      constructor
      · intro he
        have hlen := congrArg List.length he
        have hle : runs.length ≤ (runs.flatMap (inMain place log)).length :=
          length_le_length_flatMap_inMain runs
        rw [List.length_cons, List.length_map] at hlen
        omega
      · exact fun hne => absurd h hne.1
    · rw [if_neg h, List.nil_append]
      exact ⟨fun he => ⟨h, he⟩, And.right⟩

/-! ### Names of main files -/

theorem getLast?_names_of_place_eq {m : Moment} {o : Outcome} {old old' : List UInt8}
    (hmain : d.target (ofDay directory fileStart m).mainFile =
      .ok (place (ofDay directory fileStart m).mainFile, old))
    (hother : d.target ((ofDay directory fileStart m).outcomeFile o) =
      .ok (place ((ofDay directory fileStart m).outcomeFile o), old'))
    (h : place ((ofDay directory fileStart m).outcomeFile o) =
      place (ofDay directory fileStart m).mainFile) :
    (Path.names (ofDay directory fileStart m).mainFile).getLast? =
      some (o.fileStart ++ m.date ++ ".jsonl") := by
  have hlast := Disk.getLast?_of_target hother
  rwa [h, Disk.getLast?_of_target hmain, getLast?_names_outcomeFile rfl] at hlast

theorem place_outcomeFile_eq_iff {m : Moment} {o : Outcome} {old old' : List UInt8}
    (hs : '/' ∉ fileStart.toList)
    (hmain : d.target (ofDay directory fileStart m).mainFile =
      .ok (place (ofDay directory fileStart m).mainFile, old))
    (hother : d.target ((ofDay directory fileStart m).outcomeFile o) =
      .ok (place ((ofDay directory fileStart m).outcomeFile o), old')) :
    place ((ofDay directory fileStart m).outcomeFile o) =
      place (ofDay directory fileStart m).mainFile ↔ fileStart = o.fileStart := by
  constructor
  · intro h
    have hname : (Path.names (ofDay directory fileStart m).mainFile).getLast? =
        some (fileStart ++ m.date ++ ".jsonl") := getLast?_names_fileIn (m := m) rfl hs
    have hlast := Option.some.inj (hname.symm.trans (getLast?_names_of_place_eq hmain hother h))
    rwa [String.append_left_inj, String.append_left_inj] at hlast
  · rintro rfl
    rfl

/-! ### Runs in the main file -/

theorem foldl_pass_logRuns (moments : Moment × Moment) (runs : List (List (String × Json))) :
    (runs.map Doing.logRun).foldl Doing.pass moments = moments := by
  induction runs with
  | nil => rfl
  | cons run runs ih => exact ih

theorem writable_logRuns
    (h : ∀ w, ∃ old, d.target (log.fileOf w) = .ok (place (log.fileOf w), old)) :
    Writable place d (runs.flatMap fun run => (Doing.logRun run).appends log) := by
  intro a ha
  obtain ⟨run, -, ha⟩ := List.mem_flatMap.1 ha
  rcases List.mem_cons.1 ha with rfl | ha
  · exact h none
  · obtain rfl := List.mem_singleton.1 ha
    exact h (some (outcomeOf run))

theorem exists_bytes_of_logRuns {d₁ : Desk} {m : Moment} (hclock : d₁.clock = m)
    (hplace : ∀ w, ∃ old, d₁.disk.target ((ofDay directory fileStart m).fileOf w) =
      .ok (place ((ofDay directory fileStart m).fileOf w), old))
    (htold : ∀ run ∈ runs, (Doing.logRun run).Told) :
    ∃ d₂, d₁.perform (actAll (ofDay directory fileStart m) (runs.map .logRun)) =
        (.ok (ofDay directory fileStart m), d₂) ∧
      d₂.disk.content (place (ofDay directory fileStart m).mainFile) =
        d₁.disk.content (place (ofDay directory fileStart m).mainFile) ++
          Text.encodeUtf8 (lines (runs.flatMap (inMain place (ofDay directory fileStart m)))) := by
  have hputs : Writable place d₁.disk
      (appends directory fileStart (m, m) (runs.map .logRun)) := by
    rw [appends_logRuns]
    exact writable_logRuns hplace
  have hmoments : d₁.clock = (m, m).2 := hclock
  obtain ⟨events, hall⟩ :=
    gives_actAll hmoments (List.forall_mem_map.2 htold) hputs d₁.events
  rw [foldl_pass_logRuns] at hall
  refine ⟨_, hall, ?_⟩
  dsimp only
  rw [content_filed hputs, appends_logRuns, sentTo_logRuns]

/-- **Each run is in the main file once** exactly if the main file is not that of its outcome.  A
main file whose name has no slash before it is that of an outcome exactly if it is named so. -/
theorem recorded_once_iff {d₀ d₁ : Desk}
    (hcreate : d₀.perform (create directory fileStart) = (.ok log, d₁))
    (hplace : ∀ w, ∃ old, d₁.disk.target (log.fileOf w) = .ok (place (log.fileOf w), old))
    (htold : ∀ run ∈ runs, (Doing.logRun run).Told)
    (hexact : ∀ run ∈ runs, (Json.obj run).Exact) :
    (∃ d₂ bytes, d₁.perform (actAll log (runs.map .logRun)) = (.ok log, d₂) ∧
      d₂.disk.content (place log.mainFile) = d₁.disk.content (place log.mainFile) ++ bytes ∧
      ∀ limit nesting, (∀ run ∈ runs, (Json.obj run).Fits limit nesting) →
        (readLines limit nesting bytes = some (runs.map .obj) ↔
          ∀ run ∈ runs, place (log.outcomeFile (outcomeOf run)) ≠ place log.mainFile)) ∧
    ∀ o, (place (log.outcomeFile o) = place log.mainFile →
        (Path.names log.mainFile).getLast? = some (o.fileStart ++ log.date ++ ".jsonl")) ∧
      ('/' ∉ fileStart.toList →
        (place (log.outcomeFile o) = place log.mainFile ↔ fileStart = o.fileStart)) := by
  obtain ⟨rfl, hclock⟩ := of_perform_create hcreate
  constructor
  · obtain ⟨d₂, hall, hcontent⟩ := exists_bytes_of_logRuns hclock hplace htold
    refine ⟨d₂, _, hall, hcontent, fun limit nesting hfits => ?_⟩
    have hmem : ∀ e ∈ runs.flatMap (inMain place (ofDay directory fileStart d₀.clock)),
        ∃ run ∈ runs, e = .obj run := by
      intro e he
      obtain ⟨run, hrun, he⟩ := List.mem_flatMap.1 he
      refine ⟨run, hrun, ?_⟩
      rw [inMain] at he
      split at he <;> simpa using he
    rw [readLines_lines, Option.some.injEq, flatMap_inMain_eq_iff]
    · intro e he
      obtain ⟨run, hrun, rfl⟩ := hmem e he
      exact (hexact run hrun).1
    · intro e he
      obtain ⟨run, hrun, rfl⟩ := hmem e he
      exact hfits run hrun
  · intro o
    obtain ⟨old, hmain⟩ := hplace none
    obtain ⟨old', hother⟩ := hplace (some o)
    exact ⟨getLast?_names_of_place_eq hmain hother,
      fun hs => place_outcomeFile_eq_iff hs hmain hother⟩

def plainRun : List (String × Json) := [("halted", .bool true)]

theorem fits_plainRun : (Json.obj plainRun).Fits 1 1 :=
  .obj (by decide) (List.forall_mem_singleton.2 (.bool true))

theorem whole_plainRun : (Json.obj plainRun).Whole :=
  .obj (List.forall_mem_singleton.2 (.bool true))

theorem told_plainRun : ∀ run ∈ [plainRun], (Doing.logRun run).Told :=
  List.forall_mem_singleton.2 (.inr rfl)

def placeAtWork (path : String) : Place := "work" :: Path.names path

/-- The usual start of a name is that of no outcome. -/
theorem recorded_once_iff_turing : ∃ d₂ bytes,
    logDesk.perform (actAll (ofDay "logs/" "turing_" logDesk.clock) [.logRun plainRun]) =
      (.ok (ofDay "logs/" "turing_" logDesk.clock), d₂) ∧
    d₂.disk.content ["work", "logs", "turing_2024-02-29.jsonl"] = bytes ∧
    readLines 1 1 bytes = some [.obj plainRun] := by
  have hcreate : logDesk.perform (create "logs/" "turing_") =
      (.ok (ofDay "logs/" "turing_" logDesk.clock), logDesk) := by
    with_unfolding_all rfl
  have hplace : ∀ w, logDesk.disk.target ((ofDay "logs/" "turing_" logDesk.clock).fileOf w) =
      .ok (placeAtWork ((ofDay "logs/" "turing_" logDesk.clock).fileOf w), []) := by
    rintro (_ | _ | _ | _) <;> decide +kernel
  have hmain : placeAtWork (ofDay "logs/" "turing_" logDesk.clock).mainFile =
      ["work", "logs", "turing_2024-02-29.jsonl"] := by
    decide +kernel
  have hold : logDesk.disk.content ["work", "logs", "turing_2024-02-29.jsonl"] = [] := by
    decide +kernel
  have hexact : ∀ run ∈ [plainRun], (Json.obj run).Exact :=
    List.forall_mem_singleton.2 ⟨whole_plainRun, 1, 1, fits_plainRun⟩
  obtain ⟨⟨d₂, bytes, hall, hcontent, hread⟩, hnames⟩ :=
    recorded_once_iff hcreate (fun w => ⟨[], hplace w⟩) told_plainRun hexact
  rw [hmain, hold, List.nil_append] at hcontent
  refine ⟨d₂, bytes, hall, hcontent, ?_⟩
  refine (hread 1 1 (List.forall_mem_singleton.2 fits_plainRun)).2 fun run _ => ?_
  rw [Ne, (hnames _).2 (by decide)]
  cases outcomeOf run <;> decide

/-- The configuration whose main file is named as that of the runs that halted. -/
def doublingConfig : Config := { Config.standard with logFileStart := "halting_" }

/-- **A run is recorded twice** under a configuration that is accepted. -/
theorem recorded_twice :
    doublingConfig.toSettings.validate = .ok doublingConfig ∧
    ∃ log d₂,
      logDesk.perform (create doublingConfig.outputDirectory doublingConfig.logFileStart) =
        (.ok log, logDesk) ∧
      (∀ w, ∃ p old, logDesk.disk.target (log.fileOf w) = .ok (p, old)) ∧
      logDesk.disk.target log.mainFile = .ok (["work", "logs", "halting_2024-02-29.jsonl"], []) ∧
      logDesk.perform (actAll log [.logRun plainRun]) = (.ok log, d₂) ∧
      readLines 1 1 (d₂.disk.content ["work", "logs", "halting_2024-02-29.jsonl"]) =
        some [.obj plainRun, .obj plainRun] := by
  have hcreate : logDesk.perform (create "logs/" "halting_") =
      (.ok (ofDay "logs/" "halting_" logDesk.clock), logDesk) := by
    with_unfolding_all rfl
  have hplace : ∀ w, logDesk.disk.target ((ofDay "logs/" "halting_" logDesk.clock).fileOf w) =
      .ok (placeAtWork ((ofDay "logs/" "halting_" logDesk.clock).fileOf w), []) := by
    rintro (_ | _ | _ | _) <;> decide +kernel
  have hmain : placeAtWork (ofDay "logs/" "halting_" logDesk.clock).mainFile =
      ["work", "logs", "halting_2024-02-29.jsonl"] := by
    decide +kernel
  have hold : logDesk.disk.content ["work", "logs", "halting_2024-02-29.jsonl"] = [] := by
    decide +kernel
  obtain ⟨d₂, hall, hcontent⟩ :=
    exists_bytes_of_logRuns rfl (fun w => ⟨[], hplace w⟩) told_plainRun
  rw [hmain, hold, List.nil_append] at hcontent
  refine ⟨rfl, _, d₂, hcreate, fun w => ⟨_, _, hplace w⟩, hmain ▸ hplace none, hall, ?_⟩
  have hboth : List.flatMap (inMain placeAtWork (ofDay "logs/" "halting_" logDesk.clock))
      [plainRun] = [.obj plainRun, .obj plainRun] := by
    with_unfolding_all rfl
  rw [hcontent, hboth, readLines_lines]
  · exact List.forall_mem_cons.2 ⟨whole_plainRun, List.forall_mem_singleton.2 whole_plainRun⟩
  · exact List.forall_mem_cons.2 ⟨fits_plainRun, List.forall_mem_singleton.2 fits_plainRun⟩

end TapeMachine.RunLog

import TapeMachine.Proofs.GrowingFiles
import TapeMachine.Proofs.JobResults
import TapeMachine.Proofs.PathNames
import TapeMachine.RunLog

/-!
# Logged runs

A log has four files, which are different ones as long as the main file is none of the other three:
these have different names in one folder.  To record a run is to put one line to the end of two
files, the main one and that of the outcome of the run.

* `RunLog.fileOf`, `RunLog.Shelved`: the files of a log, and their places on a disk.
* `Shelved.injective`: the places are different.
* `RunLog.outcome_toJson`, `gives_record`: what is done with a record.
* `share`, `grown`, `node?_foldl_shelve`: the files after any number of records.
-/

namespace TapeMachine

/-! ### Dates -/

namespace Moment

theorem notMem_digits (n : Nat) : '/' ∉ Nat.toDigits 10 n := by
  intro h
  exact absurd (Nat.isDigit_of_mem_toDigits (by decide) (by decide) h) (by decide)

theorem notMem_padded (width n : Nat) : '/' ∉ (padded width n).toList := by
  rw [padded, String.toList_ofList, List.mem_append, List.mem_replicate, not_or]
  exact ⟨fun h => absurd h.2 (by decide), notMem_digits n⟩

theorem notMem_date (m : Moment) : '/' ∉ m.date.toList := by
  have hd : m.date = m.year.repr ++ "-" ++ padded 2 m.month ++ "-" ++ padded 2 m.day := rfl
  have hdash : "-".toList = ['-'] := rfl
  rw [hd, Nat.repr_eq_ofList_toDigits]
  simp only [String.toList_append, String.toList_ofList, hdash, List.mem_append,
    List.mem_singleton, not_or]
  exact ⟨⟨⟨⟨notMem_digits _, by decide⟩, notMem_padded _ _⟩, by decide⟩, notMem_padded _ _⟩

end Moment

/-! ### Lines -/

theorem Text.encodeUtf8_append (s t : String) :
    encodeUtf8 (s ++ t) = encodeUtf8 s ++ encodeUtf8 t := by
  rw [encodeUtf8, String.toList_append, List.flatMap_append]
  rfl

theorem RunLog.lines_append (entries entries' : List Json) :
    lines (entries ++ entries') = lines entries ++ lines entries' := by
  rw [lines, List.map_append, String.join_append, ← lines, ← lines]

namespace RunRecord

/-- The bytes that records make in a file of a log. -/
def bytes (rs : List RunRecord) : List UInt8 := Text.encodeUtf8 (RunLog.lines (rs.map toJson))

theorem bytes_singleton (r : RunRecord) :
    bytes [r] = Text.encodeUtf8 (RunLog.lines [r.toJson]) := rfl

theorem bytes_append (rs rs' : List RunRecord) : bytes (rs ++ rs') = bytes rs ++ bytes rs' := by
  rw [bytes, List.map_append, RunLog.lines_append, Text.encodeUtf8_append, bytes, bytes]

def outcome (r : RunRecord) : Outcome :=
  if r.error.isSome then .failed else if r.halted then .halting else .nonHalting

end RunRecord

/-! ### Files of a log -/

namespace RunLog

variable {log : RunLog} {place : Option Outcome → Place} {d d' : Disk} {r : RunRecord}

theorem outcome_toJson (r : RunRecord) : outcome r.toJson = .ok r.outcome := by
  obtain ⟨program, steps, halted, state, tape, time, error⟩ := r
  cases error with
  | some e => rfl
  | none => cases halted <;> rfl

/-- The files of a log: the main one, and one for each outcome. -/
def fileOf (log : RunLog) : Option Outcome → String
  | none => log.mainFile
  | some outcome => log.outcomeFile outcome

/-- The files of the log can be written, at the given places. -/
def Shelved (log : RunLog) (d : Disk) (place : Option Outcome → Place) : Prop :=
  ∀ w, ∃ old, d.target (log.fileOf w) = .ok (place w, old)

/-- The records that go to a file of the log: all to the main one, to the others those that failed,
those that halted, and those that did neither. -/
def takes : Option Outcome → RunRecord → Bool
  | none, _ => true
  | some .failed, r => r.error.isSome
  | some .halting, r => r.error.isNone && r.halted
  | some .nonHalting, r => r.error.isNone && !r.halted

theorem takes_some_iff {o : Outcome} : takes (some o) r = true ↔ r.outcome = o := by
  obtain ⟨program, steps, halted, state, tape, time, error⟩ := r
  cases error <;> cases halted <;> cases o <;> simp [takes, RunRecord.outcome]

/-- What is on a disk after a record went to its two files. -/
def shelve (place : Option Outcome → Place) (d : Disk) (r : RunRecord) : Disk :=
  (d.grow (place none) (RunRecord.bytes [r])).grow (place (some r.outcome)) (RunRecord.bytes [r])

namespace Shelved

theorem grows (h : log.Shelved d place) (w : Option Outcome) (bytes : List UInt8) :
    Disk.Grows (fun p => ∃ w, p = place w) d (d.grow (place w) bytes) := by
  obtain ⟨old, ht⟩ := h w
  exact Disk.grows_of_target ht ⟨w, rfl⟩ bytes

theorem of_grows {shelf : Place → Prop} (h : log.Shelved d place) (g : Disk.Grows shelf d d') :
    log.Shelved d' place := by
  intro w
  obtain ⟨old, ht⟩ := h w
  exact ⟨_, g.target ht⟩

theorem grows_shelve (h : log.Shelved d place) (r : RunRecord) :
    Disk.Grows (fun p => ∃ w, p = place w) d (shelve place d r) :=
  (h.grows none _).trans ((h.of_grows (h.grows none _)).grows (some r.outcome) _)

theorem ne_nil (h : log.Shelved d place) (w : Option Outcome) : place w ≠ [] := by
  obtain ⟨old, ht⟩ := h w
  exact Disk.ne_nil_of_target ht

end Shelved

theorem fileStart_append_injective {o o' : Outcome} {rest : String}
    (h : o.fileStart ++ rest = o'.fileStart ++ rest) : o = o' := by
  have hstart : o.fileStart = o'.fileStart := by
    have hl := congrArg String.toList h
    rw [String.toList_append, String.toList_append] at hl
    exact String.toList_inj.1 (List.append_cancel_right hl)
  cases o <;> cases o' <;> first | rfl | exact absurd hstart (by decide)

theorem getLast?_names_fileIn {m : Moment} (hd : log.date = m.date) {start : String}
    (hs : '/' ∉ start.toList) :
    (Path.names (log.fileIn start)).getLast? = some (start ++ log.date ++ ".jsonl") := by
  refine Path.getLast?_names_join ?_ ?_ log.directory
  · have hj : '/' ∉ ".jsonl".toList := by decide
    rw [String.toList_append, String.toList_append, List.mem_append, List.mem_append, not_or,
      not_or, hd]
    exact ⟨⟨hs, m.notMem_date⟩, hj⟩
  · intro h
    have hl := congrArg String.length h
    simp at hl

theorem getLast?_names_outcomeFile {m : Moment} (hd : log.date = m.date) (o : Outcome) :
    (Path.names (log.outcomeFile o)).getLast? = some (o.fileStart ++ log.date ++ ".jsonl") :=
  getLast?_names_fileIn hd (by cases o <;> decide)

/-- **The four places are different** if the place of the main file is none of the others. -/
theorem Shelved.injective (h : log.Shelved d place) {m : Moment} (hd : log.date = m.date)
    (hmain : ∀ o, place none ≠ place (some o)) : Function.Injective place := by
  intro w w' hw
  cases w with
  | none =>
    cases w' with
    | none => rfl
    | some o' => exact absurd hw (hmain o')
  | some o =>
    cases w' with
    | none => exact absurd hw.symm (hmain o)
    | some o' =>
      obtain ⟨old, ht⟩ := h (some o)
      obtain ⟨old', ht'⟩ := h (some o')
      have hn := Disk.getLast?_of_target ht
      have hn' := Disk.getLast?_of_target ht'
      rw [fileOf, getLast?_names_outcomeFile hd, String.append_assoc] at hn
      rw [fileOf, getLast?_names_outcomeFile hd, String.append_assoc, ← hw, hn] at hn'
      exact congrArg some (fileStart_append_injective (Option.some.inj hn'))

/-! ### Recording -/

def turned (log : RunLog) (m : Moment) : RunLog := { log with date := m.date }

theorem gives_rotate (d : Desk) (log : RunLog) : d.Gives log.rotate (log.turned d.clock) d :=
  fun events => ⟨events, rfl⟩

theorem perform_appendText (d : Desk) (path text : String) :
    d.perform (Job.appendText path text) =
      match d.disk.append path (Text.encodeUtf8 text) with
      | .ok disk => (.ok (), { d with disk })
      | .error fault => (.error (.disk fault), d) := by
  have hget : d.perform get = (.ok d, d) := rfl
  rw [Job.appendText, Job.changeDisk, Job.onDisk, Desk.perform_bind_of_ok hget]
  cases d.disk.append path (Text.encodeUtf8 text) with
  | ok disk => rfl
  | error fault => rfl

theorem gives_appendText {d : Desk} {path : String} {p : Place} {old : List UInt8}
    (h : d.disk.target path = .ok (p, old)) (text : String) :
    d.Gives (Job.appendText path text) ()
      { d with disk := d.disk.grow p (Text.encodeUtf8 text) } := by
  intro events
  refine ⟨events, ?_⟩
  rw [perform_appendText]
  dsimp only
  rw [Disk.append_of_target h]

/-- **To record a run** is to put its line to the end of two files. -/
theorem gives_record {d : Desk} (h : log.Shelved d.disk place) (r : RunRecord) :
    d.Gives (log.record r.toJson) () { d with disk := shelve place d.disk r } := by
  obtain ⟨old, ht⟩ : ∃ old, d.disk.target log.mainFile = .ok (place none, old) := h none
  obtain ⟨old', ht'⟩ := h.of_grows (h.grows none (RunRecord.bytes [r])) (some r.outcome)
  have hmain := gives_appendText ht (lines [r.toJson])
  rw [← RunRecord.bytes_singleton] at hmain
  have hother := gives_appendText (d := { d with
    disk := d.disk.grow (place none) (RunRecord.bytes [r]) }) ht' (lines [r.toJson])
  rw [← RunRecord.bytes_singleton] at hother
  rw [record, outcome_toJson]
  exact hmain.bind (.bind (.pure _ r.outcome) hother)

theorem gives_or_fails_appendText (d : Desk) (path text : String) :
    (∃ disk, d.Gives (Job.appendText path text) () { d with disk }) ∨
      ∃ fault, d.Fails (Job.appendText path text) (.disk fault) := by
  have happend (events : Array Event) :=
    perform_appendText { d with events } path text
  cases h : d.disk.append path (Text.encodeUtf8 text) with
  | ok disk =>
    simp only [h] at happend
    exact .inl ⟨disk, fun events => ⟨events, happend events⟩⟩
  | error fault =>
    simp only [h] at happend
    exact .inr ⟨fault, fun events => ⟨_, happend events⟩⟩

theorem gives_or_fails_record (d : Desk) (log : RunLog) (r : RunRecord) :
    (∃ disk, d.Gives (log.record r.toJson) () { d with disk }) ∨
      ∃ fault, d.Fails (log.record r.toJson) (.disk fault) := by
  rw [record, outcome_toJson, write]
  obtain ⟨disk, hmain⟩ | ⟨fault, hmain⟩ :=
    gives_or_fails_appendText d log.mainFile (lines [r.toJson])
  · obtain ⟨disk', hother⟩ | ⟨fault, hother⟩ := gives_or_fails_appendText { d with disk }
      (log.outcomeFile r.outcome) (lines [r.toJson])
    · exact .inl ⟨disk', hmain.bind (.bind (.pure _ r.outcome) hother)⟩
    · exact .inr ⟨fault, .after hmain (.after (.pure _ r.outcome) hother)⟩
  · exact .inr ⟨fault, hmain.bind⟩

/-! ### Files after records -/

def share (w : Option Outcome) (rs : List RunRecord) : List RunRecord := rs.filter (takes w)

/-- What is at a place once the lines of records went to the end of it; no file is made for none. -/
def grown (d : Disk) (p : Place) (rs : List RunRecord) : Option Node :=
  if rs = [] then d.node? p else some (.file (d.content p ++ RunRecord.bytes rs))

theorem node?_shelve (h : log.Shelved d place) (hp : Function.Injective place) (r : RunRecord)
    (w : Option Outcome) :
    (shelve place d r).node? (place w) = grown d (place w) (share w [r]) := by
  have hne : place none ≠ place (some r.outcome) := fun he => Option.some_ne_none _ (hp he).symm
  rw [shelve, Disk.node?_grow (h.ne_nil _)]
  cases w with
  | none =>
    rw [if_neg hne, Disk.node?_grow (h.ne_nil _), if_pos rfl]
    rfl
  | some o =>
    by_cases ho : r.outcome = o
    · have ht : share (some o) [r] = [r] := by
        rw [share, List.filter_cons_of_pos (takes_some_iff.2 ho), List.filter_nil]
      have hc : (d.grow (place none) (RunRecord.bytes [r])).content (place o) =
          d.content (place o) := by
        rw [Disk.content, Disk.node?_grow (h.ne_nil _), if_neg (ho ▸ hne.symm), Disk.content]
      rw [ho, if_pos rfl, hc, ht]
      rfl
    · have ht : share (some o) [r] = [] := by
        rw [share, List.filter_cons_of_neg (mt takes_some_iff.1 ho), List.filter_nil]
      have hw : place (some o) ≠ place (some r.outcome) := fun he =>
        ho (Option.some.inj (hp he)).symm
      have hm : place (some o) ≠ place none := fun he => Option.some_ne_none _ (hp he)
      rw [if_neg hw, Disk.node?_grow (h.ne_nil _), if_neg hm, ht]
      rfl

theorem grown_append {p : Place} {rs rs' : List RunRecord} (h : d'.node? p = grown d p rs) :
    grown d' p rs' = grown d p (rs ++ rs') := by
  by_cases hrs : rs = []
  · subst hrs
    have hn : d'.node? p = d.node? p := h
    have hc : d'.content p = d.content p := by rw [Disk.content, hn, Disk.content]
    rw [grown, grown, hn, hc, List.nil_append]
  · rw [grown, if_neg hrs] at h
    have hc : d'.content p = d.content p ++ RunRecord.bytes rs := by rw [Disk.content, h]
    by_cases hrs' : rs' = []
    · rw [hrs', List.append_nil, grown, if_pos rfl, grown, if_neg hrs, h]
    · rw [grown, if_neg hrs', grown, if_neg (List.append_ne_nil_of_left_ne_nil hrs rs'), hc,
        RunRecord.bytes_append, List.append_assoc]

/-- **The files after records.**  Each file of the log has grown by the lines of its records. -/
theorem node?_foldl_shelve (h : log.Shelved d place) (hp : Function.Injective place)
    (rs : List RunRecord) (w : Option Outcome) :
    (rs.foldl (shelve place) d).node? (place w) = grown d (place w) (share w rs) := by
  induction rs generalizing d with
  | nil => rfl
  | cons r rs ih =>
    rw [List.foldl_cons, ih (h.of_grows (h.grows_shelve r)), grown_append (node?_shelve h hp r w),
      share, share, share, ← List.filter_append, List.singleton_append]

theorem grows_foldl_shelve (h : log.Shelved d place) (rs : List RunRecord) :
    Disk.Grows (fun p => ∃ w, p = place w) d (rs.foldl (shelve place) d) := by
  induction rs generalizing d with
  | nil => exact .refl _ d
  | cons r rs ih => exact (h.grows_shelve r).trans (ih (h.of_grows (h.grows_shelve r)))

end RunLog

end TapeMachine

import TapeMachine.Proofs.LogLines
import TapeMachine.Proofs.WrittenFiles

/-!
# Histories of a log

Whatever is done with a log, and whatever the clock shows meanwhile: the date of its files is that
of its last turn, or of its making if it was not turned, and files only get lines at their end.  In
each file the lines are the entries that were put in it, in order.

* `RunLog.Doing`, `RunLog.Doing.act`: what is done with a log.
* `RunLog.lastTurn`, `RunLog.appends`: the date of a log, and what is put in which files.
* `RunLog.filed`, `content_filed`: a disk after appends, also if two files are one.
* `gives_act`, `gives_actAll`: one doing, and by induction all of them.
* `of_perform_create`: a log that was just made.
-/

namespace TapeMachine.RunLog

/-! ### Doings -/

/-- What is done with a log, or with the clock. -/
inductive Doing
  | log (entry : Json)
  | logBatch (entries : List Json)
  | logOutcome (outcome : Outcome) (entries : List Json)
  /-- The entry of a run is an object. -/
  | logRun (members : List (String × Json))
  | rotate
  | setClock (clock : Moment)

def outcomeOf (members : List (String × Json)) : Outcome :=
  if (members.lookup "error").isSome then .failed
  else if ((members.lookup "halted").getD .null).isSet then .halting
  else .nonHalting

namespace Doing

def act (log : RunLog) : Doing → Job RunLog
  | .log entry => do
    log.write [entry]
    return log
  | .logBatch entries => do
    log.write entries
    return log
  | .logOutcome outcome entries => do
    log.writeOutcome outcome entries
    return log
  | .logRun members => do
    log.record (.obj members)
    return log
  | .rotate => log.rotate
  | .setClock clock => do
    modify fun d => { d with clock }
    return log

/-- An entry of a run has an error or says whether the run halted. -/
def Told : Doing → Prop
  | .logRun members => (members.lookup "error").isSome ∨ (members.lookup "halted").isSome
  | _ => True

def appends (log : RunLog) : Doing → List (String × List Json)
  | .log entry => [(log.mainFile, [entry])]
  | .logBatch entries => [(log.mainFile, entries)]
  | .logOutcome outcome entries => [(log.outcomeFile outcome, entries)]
  | .logRun members =>
    [(log.mainFile, [.obj members]), (log.outcomeFile (outcomeOf members), [.obj members])]
  | .rotate => []
  | .setClock _ => []

def pass : Moment × Moment → Doing → Moment × Moment
  | (_, clock), .rotate => (clock, clock)
  | (turned, _), .setClock clock => (turned, clock)
  | moments, _ => moments

end Doing

def actAll (log : RunLog) (doings : List Doing) : Job RunLog := doings.foldlM Doing.act log

/-- The log of the day of a moment. -/
def ofDay (directory fileStart : String) (m : Moment) : RunLog := ⟨directory, fileStart, m.date⟩

/-- When a log was turned last that was made when the clock showed `clock`. -/
def lastTurn (clock : Moment) (doings : List Doing) : Moment :=
  (doings.foldl Doing.pass (clock, clock)).1

def appends (directory fileStart : String) (moments : Moment × Moment) :
    List Doing → List (String × List Json)
  | [] => []
  | doing :: doings =>
    doing.appends (ofDay directory fileStart moments.1) ++
      appends directory fileStart (doing.pass moments) doings

/-- The entries that are put in the file at a place. -/
def sentTo (place : String → Place) (p : Place) (puts : List (String × List Json)) : List Json :=
  (puts.filter fun a => place a.1 = p).flatMap Prod.snd

/-- The entries that are meant for the file at a place, when the clock shows `clock` at first. -/
def sent (directory fileStart : String) (clock : Moment) (doings : List Doing)
    (place : String → Place) (p : Place) : List Json :=
  sentTo place p (appends directory fileStart (clock, clock) doings)

/-! ### Disks after appends -/

section Disks

variable {place : String → Place} {p : Place} {d d' : Disk} {puts puts' : List (String × List Json)}

/-- Every file that something is put in can be written, at its place. -/
def Writable (place : String → Place) (d : Disk) (puts : List (String × List Json)) : Prop :=
  ∀ a ∈ puts, ∃ old, d.target a.1 = .ok (place a.1, old)

/-- What is on a disk after entries were put in files. -/
def filed (place : String → Place) (d : Disk) (puts : List (String × List Json)) : Disk :=
  puts.foldl (fun d a => d.grow (place a.1) (Text.encodeUtf8 (lines a.2))) d

theorem filed_append : filed place d (puts ++ puts') = filed place (filed place d puts) puts' :=
  List.foldl_append

theorem grows_of_put {path : String} {old : List UInt8} (h : d.target path = .ok (p, old))
    (bytes : List UInt8) : Disk.Grows (fun _ => True) d (d.grow p bytes) :=
  Disk.grows_of_target h trivial bytes

theorem Writable.of_grows {shelf : Place → Prop} (h : Writable place d puts)
    (g : Disk.Grows shelf d d') : Writable place d' puts := by
  intro a ha
  obtain ⟨old, ht⟩ := h a ha
  exact ⟨_, g.target ht⟩

theorem Writable.grows_filed (h : Writable place d puts) :
    Disk.Grows (fun _ => True) d (filed place d puts) := by
  induction puts generalizing d with
  | nil => exact .refl _ d
  | cons a puts ih =>
    obtain ⟨⟨old, ht⟩, h⟩ := List.forall_mem_cons.1 h
    have hgrow := grows_of_put ht (Text.encodeUtf8 (lines a.2))
    exact hgrow.trans (ih (Writable.of_grows h hgrow))

theorem Writable.append_iff :
    Writable place d (puts ++ puts') ↔ Writable place d puts ∧ Writable place d puts' :=
  List.forall_mem_append

theorem content_grow {q : Place} {bytes : List UInt8} (hp : p ≠ []) :
    (d.grow p bytes).content q = if p = q then d.content q ++ bytes else d.content q := by
  rw [Disk.content, Disk.node?_grow hp]
  by_cases h : q = p
  · rw [if_pos h, if_pos h.symm, h]
  · rw [if_neg h, if_neg (Ne.symm h), Disk.content]

theorem sentTo_cons (a : String × List Json) (puts : List (String × List Json)) :
    sentTo place p (a :: puts) = (if place a.1 = p then a.2 else []) ++ sentTo place p puts := by
  rw [sentTo, List.filter_cons]
  by_cases h : place a.1 = p
  · rw [if_pos (decide_eq_true h), if_pos h, List.flatMap_cons, sentTo]
  · rw [if_neg (by simpa using h), if_neg h, List.nil_append, sentTo]

/-- **What is in a file after appends**: what was in it, and the lines that were put in it, also if
several paths lead there. -/
theorem content_filed (h : Writable place d puts) (p : Place) :
    (filed place d puts).content p =
      d.content p ++ Text.encodeUtf8 (lines (sentTo place p puts)) := by
  induction puts generalizing d with
  | nil => exact (List.append_nil _).symm
  | cons a puts ih =>
    obtain ⟨⟨old, ht⟩, h⟩ := List.forall_mem_cons.1 h
    have hgrow := grows_of_put ht (Text.encodeUtf8 (lines a.2))
    rw [filed, List.foldl_cons, ← filed, ih (Writable.of_grows h hgrow), sentTo_cons,
      content_grow (Disk.ne_nil_of_target ht)]
    split
    · rw [lines_append, Text.encodeUtf8_append, List.append_assoc]
    · rw [List.nil_append]

end Disks

/-! ### One doing -/

section Acts

variable {place : String → Place} {d : Desk} {log : RunLog} {doings doings' : List Doing}
  {directory fileStart : String} {moments : Moment × Moment}

theorem outcome_obj {members : List (String × Json)} (h : (Doing.logRun members).Told) :
    outcome (.obj members) = .ok (outcomeOf members) := by
  rw [outcome, outcomeOf, Json.mentions]
  cases he : members.lookup "error" with
  | some e => rfl
  | none =>
    rw [Doing.Told, he] at h
    obtain ⟨halted, hh⟩ := Option.isSome_iff_exists.1 (h.resolve_left Bool.false_ne_true)
    simp only [Json.member, hh]
    rfl

/-- **What one doing does**: entries are put in files, and the log is turned or the clock is set. -/
theorem gives_act (hm : d.clock = moments.2) {doing : Doing} (ht : doing.Told)
    (hw : Writable place d.disk (doing.appends (ofDay directory fileStart moments.1))) :
    d.Gives (doing.act (ofDay directory fileStart moments.1))
      (ofDay directory fileStart (doing.pass moments).1)
      { d with
        disk := filed place d.disk (doing.appends (ofDay directory fileStart moments.1))
        clock := (doing.pass moments).2 } := by
  obtain ⟨turned, clock⟩ := moments
  obtain ⟨disk, _, answers, events, nesting, hn⟩ := d
  cases hm
  cases doing with
  | log entry =>
    obtain ⟨old, htarget⟩ := hw _ List.mem_cons_self
    exact .bind (gives_appendText htarget _) (.pure _ _)
  | logBatch entries =>
    obtain ⟨old, htarget⟩ := hw _ List.mem_cons_self
    exact .bind (gives_appendText htarget _) (.pure _ _)
  | logOutcome o entries =>
    obtain ⟨old, htarget⟩ := hw _ List.mem_cons_self
    exact .bind (gives_appendText htarget _) (.pure _ _)
  | logRun members =>
    obtain ⟨⟨old, htarget⟩, hrest⟩ := List.forall_mem_cons.1 hw
    have hgrow := grows_of_put htarget (Text.encodeUtf8 (lines [.obj members]))
    obtain ⟨old', htarget'⟩ := Writable.of_grows hrest hgrow _ List.mem_cons_self
    have hmain := gives_appendText (d := ⟨disk, clock, answers, events, nesting, hn⟩) htarget
      (lines [.obj members])
    have hother := gives_appendText (d := ⟨_, clock, answers, events, nesting, hn⟩) htarget'
      (lines [.obj members])
    rw [Doing.act, record, outcome_obj ht]
    exact .bind (.bind hmain (.bind (.pure _ _) hother)) (.pure _ _)
  | rotate => exact fun events => ⟨events, rfl⟩
  | setClock clock' => exact fun events => ⟨events, rfl⟩

/-! ### Histories -/

/-- **All that is done**, by induction on it. -/
theorem gives_actAll (hm : d.clock = moments.2) (ht : ∀ doing ∈ doings, doing.Told)
    (hw : Writable place d.disk (appends directory fileStart moments doings)) :
    d.Gives (actAll (ofDay directory fileStart moments.1) doings)
      (ofDay directory fileStart (doings.foldl Doing.pass moments).1)
      { d with
        disk := filed place d.disk (appends directory fileStart moments doings)
        clock := (doings.foldl Doing.pass moments).2 } := by
  induction doings generalizing d moments with
  | nil =>
    have hd : { d with clock := moments.2 } = d := by rw [← hm]
    exact hd ▸ .pure d _
  | cons doing doings ih =>
    rw [List.forall_mem_cons] at ht
    obtain ⟨hfirst, hrest⟩ := Writable.append_iff.1 hw
    rw [appends, filed_append, List.foldl_cons]
    exact .bind (gives_act hm ht.1 hfirst)
      (ih rfl ht.2 (hrest.of_grows hfirst.grows_filed))

theorem appends_append (moments : Moment × Moment) (doings doings' : List Doing) :
    appends directory fileStart moments (doings ++ doings') =
      appends directory fileStart moments doings ++
        appends directory fileStart (doings.foldl Doing.pass moments) doings' := by
  induction doings generalizing moments with
  | nil => rfl
  | cons doing doings ih =>
    rw [List.cons_append, appends, appends, ih, List.append_assoc, List.foldl_cons]

end Acts

/-! ### The making of a log -/

theorem of_perform_create {d d' : Desk} {directory fileStart : String} {log : RunLog}
    (h : d.perform (create directory fileStart) = (.ok log, d')) :
    log = ofDay directory fileStart d.clock ∧ d'.clock = d.clock := by
  rw [create] at h
  obtain ⟨_, d₁, hmake, h⟩ := Desk.of_perform_bind h
  rw [Desk.perform_makeFolders] at hmake
  obtain ⟨-, rfl⟩ := Prod.mk.inj hmake
  cases h
  exact ⟨rfl, rfl⟩

/-- A desk with a folder for logs. -/
def logDesk : Desk where
  disk := ⟨[(["work"], .folder), (["work", "logs"], .folder)], ["work"]⟩
  clock := ⟨2024, 2, 29, 12, 34, 56, 0⟩
  answers := []
  events := #[]
  nesting := Desk.usualNesting
  nesting_pos := Desk.usualNesting_pos

end TapeMachine.RunLog

import TapeMachine.Proofs.LogHistories

/-!
# Entries that are refused

An entry with an integer that is too long, or with brackets that are too deep, is refused: what was
to be done ends there, with the lines of the entries before it in the file.  A log goes on after
that as if these entries were all that was to be put in it.

* `RunLog.Doing.attempt`, `RunLog.attemptAll`: what is done with a log, also if entries are refused.
* `RunLog.Doing.verdict`, `RunLog.Doing.kept`: whether it is done, and what is done if not.
* `actWithin_eq`: to do something within limits is to do what is kept of it.
* `gives_attempt`, `gives_attemptAll`: one doing, and by induction all of them.
* `result_eq_ok_iff`, `fits_of_mem_sent`: what ends well, and what is put in files.
-/

namespace TapeMachine.RunLog

variable {limits : Json.Limits}

/-! ### Taken entries -/

section Entries

variable {es : List Json} {e : Json}

theorem taken_cons (limits : Json.Limits) (e : Json) (es : List Json) :
    taken limits (e :: es) = if e.refusal? limits = none then e :: taken limits es else [] := by
  rw [taken, List.takeWhile_cons]
  cases e.refusal? limits <;> rfl

theorem taken_singleton (limits : Json.Limits) (e : Json) :
    taken limits [e] = if e.refusal? limits = none then [e] else [] := taken_cons limits e []

theorem verdict_cons (limits : Json.Limits) (e : Json) (es : List Json) :
    verdict limits (e :: es) = match e.refusal? limits with
      | some fault => .error fault
      | none => verdict limits es := by
  rw [verdict, List.findSome?_cons]
  cases e.refusal? limits <;> rfl

theorem verdict_singleton (limits : Json.Limits) (e : Json) :
    verdict limits [e] = match e.refusal? limits with
      | some fault => .error fault
      | none => .ok () := verdict_cons limits e []

theorem refusal?_of_mem_taken (h : e ∈ taken limits es) :
    e ∈ es ∧ e.refusal? limits = none := by
  have hnone : (e.refusal? limits).isNone = true :=
    List.mem_takeWhile_imp (p := fun e => (Json.refusal? limits e).isNone) h
  exact ⟨List.takeWhile_subset _ h, Option.isNone_iff_eq_none.1 hnone⟩

theorem verdict_eq_ok_iff :
    verdict limits es = .ok () ↔ ∀ e ∈ es, e.refusal? limits = none := by
  rw [verdict, ← List.findSome?_eq_none_iff]
  cases es.findSome? (Json.refusal? limits) with
  | none => exact iff_of_true rfl rfl
  | some fault => exact iff_of_false nofun nofun

theorem taken_of_verdict (h : verdict limits es = .ok ()) : taken limits es = es :=
  List.takeWhile_eq_self_iff.2 fun e he => Option.isNone_iff_eq_none.2 (verdict_eq_ok_iff.1 h e he)

theorem recordWithin_of_refusal? (h : e.refusal? limits.inner.inner = none) (log : RunLog) :
    log.recordWithin limits e = log.record e := by
  simp only [recordWithin, noteWithin, writeWithin, writeOutcomeWithin, taken_singleton,
    verdict_singleton, h, if_true, Job.take, bind_pure_unit, record]

/-- **Records of runs** are taken, with brackets enough for their tapes. -/
theorem recordWithin_toJson {r : RunRecord}
    (h : r.toJson.Fits limits.digits (limits.nesting - 1 - 1)) (log : RunLog) :
    log.recordWithin limits r.toJson = log.record r.toJson :=
  recordWithin_of_refusal? ((Json.refusalWithin?_eq_none_iff h).2 h) log

end Entries

/-! ### Doings -/

namespace Doing

def entries : Doing → List Json
  | .log entry => [entry]
  | .logBatch entries => entries
  | .logOutcome _ entries => entries
  | .logRun members => [.obj members]
  | .rotate => []
  | .setClock _ => []

/-- The limits within which the entries of a doing are written. -/
def within (limits : Json.Limits) : Doing → Json.Limits
  | .log _ => limits.inner
  | .logBatch _ => limits
  | .logOutcome _ _ => limits.inner
  | .logRun _ => limits.inner.inner
  | .rotate => limits
  | .setClock _ => limits

def actWithin (limits : Json.Limits) (log : RunLog) : Doing → Job RunLog
  | .log entry => do
    log.noteWithin limits entry
    return log
  | .logBatch entries => do
    log.writeWithin limits entries
    return log
  | .logOutcome outcome entries => do
    log.writeOutcomeWithin limits outcome entries
    return log
  | .logRun members => do
    log.recordWithin limits (.obj members)
    return log
  | .rotate => log.rotate
  | .setClock clock => do
    modify fun d => { d with clock }
    return log

/-- Does it, and tells how it ended; after a fault the log is what it was. -/
def attempt (limits : Json.Limits) (log : RunLog) (doing : Doing) :
    Job (RunLog × Except Fault Unit) := do
  match ← Job.attempt (doing.actWithin limits log) with
  | .ok log => return (log, .ok ())
  | .error fault => return (log, .error fault)

/-- Whether all entries are within the limits, or else why the first one that is not is refused. -/
def verdict (limits : Json.Limits) (doing : Doing) : Except Json.WriteFault Unit :=
  RunLog.verdict (doing.within limits) doing.entries

/-- What is done of it: the entries before the first one that is refused are put in the file.  A run
that the main file refuses goes to no other file. -/
def kept (limits : Json.Limits) : Doing → Doing
  | .log entry => .logBatch (taken limits.inner [entry])
  | .logBatch entries => .logBatch (taken limits entries)
  | .logOutcome outcome entries => .logOutcome outcome (taken limits.inner entries)
  | .logRun members =>
    if (Json.obj members).refusal? limits.inner.inner = none then .logRun members else .logBatch []
  | .rotate => .rotate
  | .setClock clock => .setClock clock

/-! ### One doing within limits -/

variable {doing : Doing} {moments : Moment × Moment}

/-- **To do something within limits** is to do what is kept of it, and then to tell of the first
entry that is refused. -/
theorem actWithin_eq (limits : Json.Limits) (log : RunLog) (doing : Doing) :
    doing.actWithin limits log = do
      let log ← (doing.kept limits).act log
      Job.take .unwritten (doing.verdict limits)
      return log := by
  cases doing with
  | log entry => simp only [actWithin, noteWithin, writeWithin, kept, act, bind_assoc, pure_bind]; rfl
  | logBatch entries => simp only [actWithin, writeWithin, kept, act, bind_assoc, pure_bind]; rfl
  | logOutcome outcome entries =>
    simp only [actWithin, writeOutcomeWithin, kept, act, bind_assoc, pure_bind]; rfl
  | logRun members =>
    rw [actWithin, kept, verdict, Doing.entries, Doing.within, verdict_singleton]
    cases hr : (Json.obj members).refusal? limits.inner.inner with
    | none =>
      rw [recordWithin_of_refusal? hr, if_pos rfl]
      simp only [act, Job.take, bind_assoc, pure_bind]
    | some fault =>
      simp only [recordWithin, noteWithin, writeWithin, taken_singleton, verdict_singleton, hr, act,
        Job.take, bind_assoc, pure_bind, Job.fail_bind, reduceCtorEq, if_false]
  | rotate => rfl
  | setClock clock => rfl

theorem Told.kept (h : doing.Told) (limits : Json.Limits) : (doing.kept limits).Told := by
  cases doing with
  | logRun members =>
    rw [Doing.kept]
    split
    · exact h
    · trivial
  | _ => trivial

theorem pass_kept (limits : Json.Limits) (doing : Doing) (moments : Moment × Moment) :
    (doing.kept limits).pass moments = doing.pass moments := by
  cases doing with
  | logRun members =>
    rw [kept]
    split <;> rfl
  | _ => rfl

theorem foldl_pass_kept (limits : Json.Limits) (doings : List Doing) (moments : Moment × Moment) :
    (doings.map (kept limits)).foldl pass moments = doings.foldl pass moments := by
  induction doings generalizing moments with
  | nil => rfl
  | cons doing doings ih => rw [List.map_cons, List.foldl_cons, List.foldl_cons, pass_kept, ih]

theorem pass_of_verdict {fault : Json.WriteFault} (h : doing.verdict limits = .error fault)
    (moments : Moment × Moment) : doing.pass moments = moments := by
  cases doing with
  | rotate => cases h
  | setClock clock => cases h
  | _ => rfl

theorem appends_kept (h : doing.verdict limits = .ok ()) (log : RunLog) :
    (doing.kept limits).appends log = doing.appends log := by
  cases doing with
  | log entry => exact congrArg (fun es => [(log.mainFile, es)]) (taken_of_verdict h)
  | logBatch entries => exact congrArg (fun es => [(log.mainFile, es)]) (taken_of_verdict h)
  | logOutcome outcome entries =>
    exact congrArg (fun es => [(log.outcomeFile outcome, es)]) (taken_of_verdict h)
  | logRun members =>
    have hnone : (Json.obj members).refusal? limits.inner.inner = none :=
      verdict_eq_ok_iff.1 h _ List.mem_cons_self
    rw [kept, if_pos hnone]
  | rotate => rfl
  | setClock clock => rfl

theorem refusal?_of_mem_appends {log : RunLog} {a : String × List Json} {e : Json}
    (ha : a ∈ (doing.kept limits).appends log) (he : e ∈ a.2) :
    e ∈ doing.entries ∧ e.refusal? (doing.within limits) = none := by
  cases doing with
  | log entry =>
    obtain rfl := List.mem_singleton.1 ha
    exact refusal?_of_mem_taken he
  | logBatch entries =>
    obtain rfl := List.mem_singleton.1 ha
    exact refusal?_of_mem_taken he
  | logOutcome outcome entries =>
    obtain rfl := List.mem_singleton.1 ha
    exact refusal?_of_mem_taken he
  | logRun members =>
    rw [kept] at ha
    split at ha
    · next hnone =>
      have hrun : e = .obj members := by
        rcases List.mem_cons.1 ha with rfl | ha
        · exact List.mem_singleton.1 he
        · obtain rfl := List.mem_singleton.1 ha
          exact List.mem_singleton.1 he
      subst hrun
      exact ⟨List.mem_cons_self, hnone⟩
    · obtain rfl := List.mem_singleton.1 ha
      cases he
  | rotate => cases ha
  | setClock clock => cases ha

end Doing

/-! ### Histories within limits -/

section Histories

variable {place : String → Place} {d : Desk} {doing : Doing} {doings : List Doing}
  {directory fileStart : String} {moments : Moment × Moment}

def result (limits : Json.Limits) (doing : Doing) : Except Fault Unit :=
  (doing.verdict limits).mapError .unwritten

/-- Does all that is to be done, whatever is refused, and tells how each doing ended. -/
def attemptAll (limits : Json.Limits) (log : RunLog) :
    List Doing → Job (RunLog × List (Except Fault Unit))
  | [] => return (log, [])
  | doing :: doings => do
    let (log, ended) ← doing.attempt limits log
    let (log, later) ← attemptAll limits log doings
    return (log, ended :: later)

/-- **What one doing does within limits.** -/
theorem gives_attempt (hm : d.clock = moments.2) (ht : doing.Told)
    (hw : Writable place d.disk
      ((doing.kept limits).appends (ofDay directory fileStart moments.1))) :
    d.Gives (doing.attempt limits (ofDay directory fileStart moments.1))
      (ofDay directory fileStart (doing.pass moments).1, result limits doing)
      { d with
        disk := filed place d.disk
          ((doing.kept limits).appends (ofDay directory fileStart moments.1))
        clock := (doing.pass moments).2 } := by
  have hact := gives_act hm (ht.kept limits) hw
  rw [Doing.pass_kept] at hact
  intro events
  obtain ⟨events', hact⟩ := hact events
  refine ⟨events', ?_⟩
  rw [Doing.attempt, Desk.perform_bind_of_ok (Desk.perform_attempt _ _), Doing.actWithin_eq,
    Desk.perform_bind_of_ok hact, result]
  cases hv : doing.verdict limits with
  | ok => rfl
  | error fault => rw [Doing.pass_of_verdict hv]; rfl

theorem gives_attemptAll (hm : d.clock = moments.2) (ht : ∀ doing ∈ doings, doing.Told)
    (hw : Writable place d.disk
      (appends directory fileStart moments (doings.map (Doing.kept limits)))) :
    d.Gives (attemptAll limits (ofDay directory fileStart moments.1) doings)
      (ofDay directory fileStart (doings.foldl Doing.pass moments).1, doings.map (result limits))
      { d with
        disk := filed place d.disk
          (appends directory fileStart moments (doings.map (Doing.kept limits)))
        clock := (doings.foldl Doing.pass moments).2 } := by
  induction doings generalizing d moments with
  | nil =>
    have hd : { d with clock := moments.2 } = d := by rw [← hm]
    exact hd ▸ .pure d _
  | cons doing doings ih =>
    rw [List.forall_mem_cons] at ht
    obtain ⟨hfirst, hrest⟩ := Writable.append_iff.1 hw
    rw [Doing.pass_kept] at hrest
    simp only [List.map_cons]
    rw [appends, filed_append, List.foldl_cons, Doing.pass_kept]
    exact .bind (gives_attempt hm ht.1 hfirst)
      (.bind (ih rfl ht.2 (hrest.of_grows hfirst.grows_filed)) (.pure _ _))

theorem attemptAll_append (limits : Json.Limits) (log : RunLog) (earlier later : List Doing) :
    attemptAll limits log (earlier ++ later) = do
      let (log, ended) ← attemptAll limits log earlier
      let (log, ended') ← attemptAll limits log later
      return (log, ended ++ ended') := by
  induction earlier generalizing log with
  | nil => exact (bind_pure _).symm
  | cons doing earlier ih =>
    simp only [List.cons_append, attemptAll, ih, bind_assoc, pure_bind]

theorem exists_of_mem_appends {a : String × List Json}
    (h : a ∈ appends directory fileStart moments doings) :
    ∃ doing ∈ doings, ∃ log, a ∈ doing.appends log := by
  induction doings generalizing moments with
  | nil => cases h
  | cons doing doings ih =>
    rcases List.mem_append.1 h with h | h
    · exact ⟨doing, List.mem_cons_self, _, h⟩
    · obtain ⟨doing', hmem, hlog⟩ := ih h
      exact ⟨doing', List.mem_cons_of_mem _ hmem, hlog⟩

theorem appends_map_kept (h : ∀ doing ∈ doings, result limits doing = .ok ()) :
    appends directory fileStart moments (doings.map (Doing.kept limits)) =
      appends directory fileStart moments doings := by
  induction doings generalizing moments with
  | nil => rfl
  | cons doing doings ih =>
    rw [List.forall_mem_cons] at h
    rw [List.map_cons, appends, appends, ih h.2, Doing.pass_kept,
      Doing.appends_kept (mapError_eq_ok_iff.1 h.1)]

theorem result_eq_ok_iff (h : ∀ e ∈ doing.entries, e.Exact) :
    result limits doing = .ok () ↔
      ∀ e ∈ doing.entries, e.Fits (doing.within limits).digits (doing.within limits).nesting := by
  rw [result, mapError_eq_ok_iff, Doing.verdict, verdict_eq_ok_iff]
  refine forall₂_congr fun e he => ?_
  obtain ⟨_, _, _, hfits⟩ := h e he
  exact Json.refusalWithin?_eq_none_iff hfits

theorem within_le (limits : Json.Limits) (doing : Doing) :
    (doing.within limits).digits = limits.digits ∧
      (doing.within limits).nesting ≤ limits.nesting := by
  cases doing with
  | logRun members =>
    exact ⟨rfl, (Nat.sub_le _ _).trans (Nat.sub_le _ _)⟩
  | log entry => exact ⟨rfl, Nat.sub_le _ _⟩
  | logOutcome outcome entries => exact ⟨rfl, Nat.sub_le _ _⟩
  | _ => exact ⟨rfl, Nat.le_refl _⟩

/-- **What is in the files** is within the limits. -/
theorem fits_of_mem_sent {clock : Moment} {p : Place} {e : Json}
    (hexact : ∀ doing ∈ doings, ∀ e ∈ doing.entries, e.Exact)
    (he : e ∈ sent directory fileStart clock (doings.map (Doing.kept limits)) place p) :
    e.Whole ∧ e.Fits limits.digits limits.nesting := by
  obtain ⟨a, ha, he⟩ := List.mem_flatMap.1 he
  obtain ⟨kept, hkept, log, ha⟩ := exists_of_mem_appends (List.mem_of_mem_filter ha)
  obtain ⟨doing, hdoing, rfl⟩ := List.mem_map.1 hkept
  obtain ⟨hentry, hnone⟩ := Doing.refusal?_of_mem_appends ha he
  obtain ⟨hwhole, _, _, hfits⟩ := hexact doing hdoing e hentry
  obtain ⟨hdigits, hnesting⟩ := within_le limits doing
  exact ⟨hwhole, ((Json.refusalWithin?_eq_none_iff hfits).1 hnone).mono hdigits.le hnesting⟩

end Histories

end TapeMachine.RunLog

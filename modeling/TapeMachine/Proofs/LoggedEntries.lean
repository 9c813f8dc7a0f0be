import TapeMachine.Proofs.RefusedEntries

/-!
# Logged entries

Whatever is done with a log from its making on, the date of its files is that of its last turn, no
file loses what is in it, and the lines that a file gets are the entries that were meant for it, in
order, but for those that are refused.

* `RunLog.history_of_create`: from the making of the log on, with any limits.
* `exists_not_logged`: entries that are in no file, for their limits or for want of a folder.
-/

namespace TapeMachine.RunLog

variable {limits : Json.Limits}

/-! ### From the making of a log on -/

/-- **The history of a log.**  What is done ends well exactly if all its entries are within the
limits.  At every moment the files of the log have the date of its last turn; no file loses what is
in it; and what is put in a file is the lines of the entries that were meant for it, in order.  Of
what ends with a fault, these are the entries before the first one that is refused. -/
theorem history_of_create {d₀ d₁ : Desk} {directory fileStart : String} {log : RunLog}
    {place : String → Place} {doings : List Doing}
    (hcreate : d₀.perform (create directory fileStart) = (.ok log, d₁))
    (htold : ∀ doing ∈ doings, doing.Told)
    (hexact : ∀ doing ∈ doings, ∀ e ∈ doing.entries, e.Exact)
    (hplace : Writable place d₁.disk
      (appends directory fileStart (d₀.clock, d₀.clock) (doings.map (Doing.kept limits)))) :
    let kept := doings.map (Doing.kept limits)
    (∀ doing ∈ doings, (result limits doing = .ok () ↔
      ∀ e ∈ doing.entries, e.Fits (doing.within limits).digits (doing.within limits).nesting)) ∧
    ((∀ doing ∈ doings, result limits doing = .ok ()) → ∀ p,
      sent directory fileStart d₀.clock kept place p =
        sent directory fileStart d₀.clock doings place p) ∧
    ∃ log' d',
      d₁.perform (attemptAll limits log doings) = (.ok (log', doings.map (result limits)), d') ∧
      (∀ earlier later, doings = earlier ++ later → ∃ log'' d'',
        d₁.perform (attemptAll limits log earlier) =
          (.ok (log'', earlier.map (result limits)), d'') ∧
        d''.perform (attemptAll limits log'' later) =
          (.ok (log', later.map (result limits)), d') ∧
        log''.mainFile = Path.join directory
          (fileStart ++ (lastTurn d₀.clock earlier).date ++ ".jsonl") ∧
        (∀ o, log''.outcomeFile o = Path.join directory
          (o.fileStart ++ (lastTurn d₀.clock earlier).date ++ ".jsonl")) ∧
        ∀ p, d''.disk.content p <+: d'.disk.content p) ∧
      ∀ p, ∃ bytes, d'.disk.content p = d₁.disk.content p ++ bytes ∧
        (∀ e ∈ sent directory fileStart d₀.clock kept place p,
          e.Fits limits.digits limits.nesting) ∧
        ∀ limit nesting,
          (∀ e ∈ sent directory fileStart d₀.clock kept place p, e.Fits limit nesting) →
          readLines limit nesting bytes = some (sent directory fileStart d₀.clock kept place p) := by
  obtain ⟨rfl, hclock⟩ := of_perform_create hcreate
  have hmoments : d₁.clock = (d₀.clock, d₀.clock).2 := hclock
  obtain ⟨events, hall⟩ := gives_attemptAll hmoments htold hplace d₁.events
  intro kept
  refine ⟨fun doing hd => result_eq_ok_iff (hexact doing hd), fun hok p => ?_, _, _, hall,
    fun earlier later hsplit => ?_, fun p => ?_⟩
  · rw [sent, sent, appends_map_kept hok]
  · subst hsplit
    rw [List.map_append, appends_append] at hplace
    obtain ⟨hfirst, hrest⟩ := Writable.append_iff.1 hplace
    obtain ⟨events', hearlier⟩ := gives_attemptAll hmoments
      (fun doing hd => htold doing (List.mem_append_left _ hd)) hfirst d₁.events
    have hrest := hrest.of_grows hfirst.grows_filed
    rw [Doing.foldl_pass_kept] at hrest
    obtain ⟨events'', hlater⟩ := gives_attemptAll (d := { d₁ with
        disk := filed place d₁.disk
          (appends directory fileStart (d₀.clock, d₀.clock) (earlier.map (Doing.kept limits)))
        clock := (earlier.foldl Doing.pass (d₀.clock, d₀.clock)).2 })
      rfl (fun doing hd => htold doing (List.mem_append_right _ hd)) hrest events'
    -- all of it is one part after the other
    have hboth := hall
    rw [attemptAll_append, Desk.perform_bind_of_ok hearlier] at hboth
    dsimp only at hboth
    rw [Desk.perform_bind_of_ok hlater] at hboth
    have hdesk := (Prod.mk.inj hboth).2
    refine ⟨_, _, hearlier, ?_, rfl, fun o => rfl, fun p => ?_⟩
    · rw [hlater, hdesk, List.foldl_append]
    · dsimp only
      rw [List.map_append, appends_append, filed_append, Doing.foldl_pass_kept,
        content_filed hrest]
      exact List.prefix_append _ _
  · have hsent : ∀ e ∈ sent directory fileStart d₀.clock kept place p,
        e.Whole ∧ e.Fits limits.digits limits.nesting := fun e he => fits_of_mem_sent hexact he
    exact ⟨_, content_filed hplace p, fun e he => (hsent e he).2, fun limit nesting hfits =>
      readLines_lines (fun e he => (hsent e he).1) hfits⟩

/-! ### Files with entries missing -/

def usualLimits : Json.Limits := ⟨4300, 986⟩

def notedRun : List (String × Json) := [("halted", .bool true), ("note", .str "a\n\"b\" \u00e9")]

def runWith (value : Json) : List (String × Json) := [("halted", .bool true), ("n", value)]

theorem fits_notedRun : (Json.obj notedRun).Fits 1 1 :=
  .obj (by decide) (List.forall_mem_cons.2 ⟨.bool _, List.forall_mem_singleton.2 (.str _)⟩)

theorem exact_notedRun : (Json.obj notedRun).Exact :=
  ⟨.obj (List.forall_mem_cons.2 ⟨.bool _, List.forall_mem_singleton.2 (.str _)⟩), 1, 1,
    fits_notedRun⟩

theorem exact_runWith {value : Json} (h : value.Exact) : (Json.obj (runWith value)).Exact := by
  obtain ⟨hwhole, limit, room, hfits⟩ := h
  have hnames : ((runWith value).map Prod.fst).Nodup := by simp [runWith]
  exact ⟨.obj (List.forall_mem_cons.2 ⟨.bool _, List.forall_mem_singleton.2 hwhole⟩),
    limit, room + 1,
    .obj hnames (List.forall_mem_cons.2 ⟨.bool _, List.forall_mem_singleton.2 hfits⟩)⟩

theorem refusal?_notedRun {limits : Json.Limits} (hd : 1 ≤ limits.digits)
    (hn : 1 ≤ limits.nesting) : (Json.obj notedRun).refusal? limits = none :=
  (Json.refusalWithin?_eq_none_iff fits_notedRun).2 (fits_notedRun.mono hd hn)

theorem refusalWithin?_runWith (limit room : Nat) (value : Json) :
    (Json.obj (runWith value)).refusalWithin? limit (room + 1) =
      value.refusalWithin? limit room := by
  rw [runWith, Json.refusalWithin?, Json.membersRefusal?, Json.membersRefusal?,
    Json.membersRefusal?, Option.or_none]
  rfl

def longValue : Json := .int (10 ^ 4300)

theorem exact_longValue : longValue.Exact := ⟨.int _, _, 0, .int (Nat.le_refl _)⟩

theorem refusal?_longRun : (Json.obj (runWith longValue)).refusal? usualLimits =
    some (.tooLong 4300) :=
  (refusalWithin?_runWith 4300 985 longValue).trans (Json.refusalWithin?_pow (by decide) 985)

/-- Of a batch with an entry that is too long, those before it are kept. -/
theorem kept_longBatch :
    (Doing.logBatch [.obj notedRun, .obj (runWith longValue), .obj notedRun]).kept usualLimits =
      .logBatch [.obj notedRun] := by
  have hnoted : (Json.obj notedRun).refusal? usualLimits = none :=
    refusal?_notedRun (by decide) (by decide)
  simp only [Doing.kept, taken_cons, hnoted, refusal?_longRun, if_true, reduceCtorEq, if_false]

theorem result_longBatch :
    result usualLimits (.logBatch [.obj notedRun, .obj (runWith longValue), .obj notedRun]) =
      .error (.unwritten (.tooLong 4300)) := by
  have hnoted : (Json.obj notedRun).refusal? usualLimits = none :=
    refusal?_notedRun (by decide) (by decide)
  simp only [result, Doing.verdict, Doing.entries, Doing.within, verdict_cons, hnoted,
    refusal?_longRun]
  rfl

/-- A run, entries after midnight of which the second one is refused, and only then a turn. -/
def lateDoings : List Doing :=
  [.logRun notedRun, .setClock ⟨2024, 3, 1, 0, 0, 0, 0⟩,
    .logBatch [.obj notedRun, .obj (runWith longValue), .obj notedRun], .rotate]

theorem refusal?_notedRun_inner : (Json.obj notedRun).refusal? usualLimits.inner.inner = none :=
  refusal?_notedRun (by decide) (by decide)

theorem map_kept_lateDoings : lateDoings.map (Doing.kept usualLimits) =
    [.logRun notedRun, .setClock ⟨2024, 3, 1, 0, 0, 0, 0⟩, .logBatch [.obj notedRun], .rotate] := by
  have hrun : (Doing.logRun notedRun).kept usualLimits = .logRun notedRun := by
    simp only [Doing.kept, refusal?_notedRun_inner, if_true]
  rw [lateDoings, List.map_cons, List.map_cons, List.map_cons, hrun, kept_longBatch]
  rfl

theorem map_result_lateDoings : lateDoings.map (result usualLimits) =
    [.ok (), .ok (), .error (.unwritten (.tooLong 4300)), .ok ()] := by
  have hrun : result usualLimits (.logRun notedRun) = .ok () := by
    simp only [result, Doing.verdict, Doing.entries, Doing.within, verdict_cons,
      refusal?_notedRun_inner]
    rfl
  rw [lateDoings, List.map_cons, List.map_cons, List.map_cons, hrun, result_longBatch]
  rfl

def haltingPlace : Place := ["work", "logs", "halting_2024-02-29.jsonl"]

/-- The main file is that of the runs that halted, too, and an entry is refused. -/
theorem history_of_create_same_file :
    ∃ log' d', logDesk.perform
        (attemptAll usualLimits (ofDay "logs/" "halting_" logDesk.clock) lateDoings) =
        (.ok (log', [.ok (), .ok (), .error (.unwritten (.tooLong 4300)), .ok ()]), d') ∧
      log'.mainFile = "logs/halting_2024-03-01.jsonl" ∧
      readLines 1 1 (d'.disk.content haltingPlace) =
        some [.obj notedRun, .obj notedRun, .obj notedRun] := by
  have hcreate : logDesk.perform (create "logs/" "halting_") =
      (.ok (ofDay "logs/" "halting_" logDesk.clock), logDesk) := by
    with_unfolding_all rfl
  have htarget : logDesk.disk.target "logs/halting_2024-02-29.jsonl" = .ok (haltingPlace, []) := by
    decide +kernel
  have hold : logDesk.disk.content haltingPlace = [] := by
    decide +kernel
  have hputs : appends "logs/" "halting_" (logDesk.clock, logDesk.clock)
      (lateDoings.map (Doing.kept usualLimits)) =
      List.replicate 3 ("logs/halting_2024-02-29.jsonl", [.obj notedRun]) := by
    rw [map_kept_lateDoings]
    with_unfolding_all rfl
  have hsent : sent "logs/" "halting_" logDesk.clock (lateDoings.map (Doing.kept usualLimits))
      (fun _ => haltingPlace) haltingPlace = List.replicate 3 (.obj notedRun) := by
    rw [sent, hputs]
    rfl
  have htold : ∀ doing ∈ lateDoings, doing.Told := by
    simp only [lateDoings, List.forall_mem_cons]
    exact ⟨.inr rfl, trivial, trivial, trivial, List.forall_mem_nil _⟩
  have hexact : ∀ doing ∈ lateDoings, ∀ e ∈ doing.entries, e.Exact := by
    simp only [lateDoings, Doing.entries, List.forall_mem_cons]
    exact ⟨⟨exact_notedRun, List.forall_mem_nil _⟩, List.forall_mem_nil _,
      ⟨exact_notedRun, exact_runWith exact_longValue, exact_notedRun, List.forall_mem_nil _⟩,
      List.forall_mem_nil _, List.forall_mem_nil _⟩
  have hplace : Writable (fun _ => haltingPlace) logDesk.disk
      (appends "logs/" "halting_" (logDesk.clock, logDesk.clock)
        (lateDoings.map (Doing.kept usualLimits))) := by
    intro a ha
    rw [hputs] at ha
    obtain rfl := List.eq_of_mem_replicate ha
    exact ⟨[], htarget⟩
  obtain ⟨_, _, log', d', hall, hmoments, hfiles⟩ :=
    history_of_create hcreate htold hexact hplace
  rw [map_result_lateDoings] at hall
  obtain ⟨log'', d'', hend, hrest, hname, _⟩ := hmoments _ [] (List.append_nil _).symm
  rw [map_result_lateDoings] at hend
  obtain rfl := (Prod.mk.inj (Except.ok.inj (Prod.mk.inj (hend.symm.trans hall)).1)).1
  obtain ⟨bytes, hbytes, _, hread⟩ := hfiles haltingPlace
  refine ⟨_, d', hall, hname.trans (by decide +kernel), ?_⟩
  rw [hbytes, hold, List.nil_append, hread 1 1, hsent]
  · rfl
  · intro e he
    rw [hsent] at he
    obtain rfl := List.eq_of_mem_replicate he
    exact fits_notedRun

def deepValue : Json := .nest 983

theorem exact_deepValue : deepValue.Exact :=
  ⟨Json.whole_nest 983, 0, 984, Json.fits_nest_iff.2 (Nat.lt_succ_self 983)⟩

theorem refusal?_deepRun : (Json.obj (runWith deepValue)).refusal? usualLimits.inner.inner =
    some .tooDeep :=
  (refusalWithin?_runWith 4300 983 deepValue).trans (Json.refusalWithin?_nest (Nat.le_refl 983))

def deskLog : RunLog := ofDay "logs/" "turing_" logDesk.clock

def mainPlace : Place := ["work", "logs", "turing_2024-02-29.jsonl"]

theorem exists_perform_at_logDesk {doing : Doing} {es : List Json}
    (hkept : doing.kept usualLimits = .logBatch es) (ht : doing.Told) :
    ∃ d', logDesk.perform (attemptAll usualLimits deskLog [doing]) =
        (.ok (deskLog, [result usualLimits doing]), d') ∧
      ∀ p, d'.disk.content p = logDesk.disk.content p ++
        Text.encodeUtf8 (lines (if mainPlace = p then es else [])) := by
  have hputs : appends "logs/" "turing_" (logDesk.clock, logDesk.clock)
      ([doing].map (Doing.kept usualLimits)) = [(deskLog.mainFile, es)] := by
    rw [List.map_singleton, hkept]
    rfl
  have htarget : logDesk.disk.target deskLog.mainFile = .ok (mainPlace, []) := by
    decide +kernel
  have hplace : Writable (fun _ => mainPlace) logDesk.disk [(deskLog.mainFile, es)] :=
    List.forall_mem_singleton.2 ⟨[], htarget⟩
  have hmoments : logDesk.clock = (logDesk.clock, logDesk.clock).2 := rfl
  obtain ⟨events, hall⟩ := gives_attemptAll hmoments (List.forall_mem_singleton.2 ht)
    (hputs ▸ hplace) logDesk.events
  have hpass : doing.pass (logDesk.clock, logDesk.clock) = (logDesk.clock, logDesk.clock) := by
    rw [← Doing.pass_kept usualLimits, hkept]
    rfl
  rw [List.foldl_cons, List.foldl_nil, hpass, hputs] at hall
  refine ⟨_, hall, fun p => ?_⟩
  dsimp only
  rw [content_filed hplace, sentTo_cons]
  exact congrArg (fun es => _ ++ Text.encodeUtf8 (lines es)) (List.append_nil _)

/-- **Not all that is to be logged is in the files.**  An integer that is too long ends a batch
after its first entry; a run with brackets that are too deep is in no file; and the folder that the
start of the names leads to is not made, so that a run is in no file, either. -/
theorem exists_not_logged :
    (∀ members ∈ [notedRun, runWith longValue, runWith deepValue], (Json.obj members).Exact ∧
      (Doing.logRun members).Told) ∧
    logDesk.perform (create "logs/" "turing_") = (.ok deskLog, logDesk) ∧
    (∃ d', logDesk.perform (attemptAll usualLimits deskLog
        [.logBatch [.obj notedRun, .obj (runWith longValue), .obj notedRun]]) =
        (.ok (deskLog, [.error (.unwritten (.tooLong 4300))]), d') ∧
      readLines 1 1 (d'.disk.content mainPlace) = some [.obj notedRun]) ∧
    (∃ d', logDesk.perform (attemptAll usualLimits deskLog [.logRun (runWith deepValue)]) =
        (.ok (deskLog, [.error (.unwritten .tooDeep)]), d') ∧
      ∀ p, d'.disk.content p = logDesk.disk.content p) ∧
    ∃ log, logDesk.perform (create "logs/" "sub/run_") = (.ok log, logDesk) ∧
      logDesk.perform (attemptAll usualLimits log [.logRun notedRun]) =
        (.ok (log, [.error (.disk (.system .missing "logs/sub/run_2024-02-29.jsonl"))]),
          logDesk) := by
  refine ⟨?_, by with_unfolding_all rfl, ?_, ?_, ?_⟩
  · simp only [List.forall_mem_cons]
    exact ⟨⟨exact_notedRun, .inr rfl⟩, ⟨exact_runWith exact_longValue, .inr rfl⟩,
      ⟨exact_runWith exact_deepValue, .inr rfl⟩, List.forall_mem_nil _⟩
  · obtain ⟨d', hall, hcontent⟩ := exists_perform_at_logDesk kept_longBatch trivial
    have hold : logDesk.disk.content mainPlace = [] := by
      decide +kernel
    refine ⟨d', result_longBatch ▸ hall, ?_⟩
    rw [hcontent, hold, if_pos rfl, List.nil_append]
    exact readLines_lines (List.forall_mem_singleton.2 exact_notedRun.1)
      (List.forall_mem_singleton.2 fits_notedRun)
  · have hkept : (Doing.logRun (runWith deepValue)).kept usualLimits = .logBatch [] := by
      simp only [Doing.kept, refusal?_deepRun, reduceCtorEq, if_false]
    obtain ⟨d', hall, hcontent⟩ := exists_perform_at_logDesk hkept (.inr rfl)
    have hresult : result usualLimits (.logRun (runWith deepValue)) =
        .error (.unwritten .tooDeep) := by
      simp only [result, Doing.verdict, Doing.entries, Doing.within, verdict_cons,
        refusal?_deepRun]
      rfl
    refine ⟨d', hresult ▸ hall, fun p => ?_⟩
    rw [hcontent, ite_self]
    exact List.append_nil _
  · exact ⟨ofDay "logs/" "sub/run_" logDesk.clock, by with_unfolding_all rfl,
      by with_unfolding_all rfl⟩

end TapeMachine.RunLog

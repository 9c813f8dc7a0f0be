import TapeMachine.Proofs.Batches

/-!
# Faults of batches

A batch goes on behind a program that is not there, is a folder or has a wrong source: such a
program has a record that says so.  What it does not go on behind is a file whose bytes are no text,
or a path with a NUL: the fault is not one of those that make a program unreadable.

* `Disk.Illegible`: files that are no text; `Disk.not_legible_iff`.
* `Batch.single_cases`: the record of a program, or that of the fault in the way of it.
* `Batch.fails_runFrom`: a batch ends at the first file that is no text.
* `Batch.run_returns_iff_legible`: **a batch comes to its end if and only if its files are texts.**
* `Batch.run_not_returns`: one file of a single byte ends a batch of programs that run.
-/

namespace TapeMachine

/-! ### Files without texts -/

/-- The path cannot be read, or what is read is no text; the fault says which. -/
inductive Disk.Illegible (d : Disk) (path : String) : Fault → Prop
  | nulByte : Disk.hasNul path = true → Disk.Illegible d path (.disk .nulByte)
  | noText {bytes : List UInt8} {fault : Text.Utf8Fault} : d.read path = .ok bytes →
      Text.decodeUtf8 bytes = .error fault → Disk.Illegible d path (.encoding fault)

namespace Disk

variable {d d' : Disk} {path : String} {fault : Fault}

theorem read_of_hasNul (h : hasNul path = true) : d.read path = .error .nulByte := by
  unfold read named
  rw [if_pos h]

theorem not_legible_iff : ¬ d.Legible path ↔ ∃ fault, d.Illegible path fault := by
  constructor
  · intro h
    by_cases hn : hasNul path = true
    · exact ⟨_, .nulByte hn⟩
    · cases hr : d.read path with
      | error diskFault => exact absurd (.of_error diskFault (by simpa using hn) hr) h
      | ok bytes =>
        cases ht : Text.decodeUtf8 bytes with
        | error textFault => exact ⟨_, .noText hr ht⟩
        | ok text => exact absurd (.of_text bytes text (by simpa using hn) hr ht) h
  · rintro ⟨fault, hi⟩ h
    cases hi with
    | nulByte hn => exact absurd h.noNul (by simp [hn])
    | noText hr ht =>
      obtain ⟨text, hdec⟩ := h.decoded _ hr
      rw [ht] at hdec
      cases hdec

theorem Illegible.source_eq (h : d.Illegible path fault) : d.source path = .error fault := by
  cases h with
  | nulByte hn => rw [source, read_of_hasNul hn]
  | noText hr ht =>
    rw [source, hr]
    simp only [ht]

theorem Illegible.isUnreadable_eq_false (h : d.Illegible path fault) :
    fault.isUnreadable = false := by
  cases h with
  | nulByte _ => rfl
  | noText _ _ => rfl

end Disk

namespace Batch

variable {plan : Plan} {path text : String} {read : SymbolReader} {d : Desk} {fault : Fault}

/-! ### Records of programs -/

/-- **The record of a program**: that of its run, or that of the fault in the way of it. -/
theorem single_cases (d : Desk) (plan : Plan) (path : String) :
    (∃ m, Program.readied d.disk path plan.tape plan.kind = .ok m ∧
      single d plan path = .ofRun path (m.run plan.maxSteps) plan.trimBlanks d.clock) ∨
    ∃ fault, Program.readied d.disk path plan.tape plan.kind = .error fault ∧
      single d plan path = .ofUnreadable path fault.message d.clock := by
  rw [single_eq, Plan.outcome]
  cases Program.readied d.disk path plan.tape plan.kind with
  | ok m => exact .inl ⟨m, rfl, rfl⟩
  | error fault => exact .inr ⟨fault, rfl, rfl⟩

/-! ### Programs that end a batch -/

theorem outcome_of_illegible (h : d.disk.Illegible path fault) :
    plan.outcome d.disk d.clock path = .error fault := by
  rw [Plan.outcome, Program.readied, Program.fetched, h.source_eq]
  rfl

theorem fails_entry (h : d.disk.Illegible path fault) : d.Fails (entry path plan) fault := by
  intro events
  have hi : ({ d with events } : Desk).disk.Illegible path fault := h
  obtain ⟨events', he⟩ := perform_simulate_unwatched { d with events } plan path
  rw [outcome_of_illegible hi] at he
  refine ⟨{ d with events := events' }, ?_⟩
  rw [entry, Desk.perform_rescue, he]
  simp only [h.isUnreadable_eq_false, Bool.false_eq_true, if_false]
  rfl

theorem fails_runFrom (before after : List String) (hk : plan.kind.resolve = .ok read)
    (ht : plan.tape = .str text) (hp : ∀ p ∈ before, d.disk.Legible p)
    (h : d.disk.Illegible path fault) (done total : Nat) :
    d.Fails (runFrom done total plan none (before ++ path :: after)) fault := by
  induction before generalizing done with
  | nil => exact (fails_entry h).bind.bind
  | cons p before ih =>
    obtain ⟨hp, hbefore⟩ := List.forall_mem_cons.1 hp
    have hone := (Keeping.of_none d.disk).gives_runOne hk ht hp (fun _ hs => hs.elim) (.refl _ _)
      rfl
    exact .after hone (.after (.of_shows (Job.onlyShows_emit _) d) (ih hbefore (done + 1)).bind)

theorem fails_run (before after : List String) (hk : plan.kind.resolve = .ok read)
    (ht : plan.tape = .str text) (hp : ∀ p ∈ before, d.disk.Legible p)
    (h : d.disk.Illegible path fault) :
    d.Fails (run (before ++ path :: after) plan none) fault :=
  .after (.of_shows (Job.onlyShows_console _) d)
    (.after (.pure d none) (fails_runFrom before after hk ht hp h 0 _).bind)

theorem gives_run_unlogged {paths : List String} (hk : plan.kind.resolve = .ok read)
    (ht : plan.tape = .str text) (hp : ∀ path ∈ paths, d.disk.Legible path) :
    d.Gives (run paths plan none) (paths.map (single d plan), none) d := by
  have hnone (path : String) (_ : path ∈ paths) (p : Place) (hs : False) : d.disk.Avoids path p :=
    hs.elim
  have hrun := Keeping.gives_run none (.of_none d.disk) hk ht hp hnone
  rw [List.foldl_fixed] at hrun
  exact hrun

theorem exists_first_illegible {paths : List String} (h : ¬ ∀ path ∈ paths, d.disk.Legible path) :
    ∃ before path after fault, paths = before ++ path :: after ∧
      (∀ p ∈ before, d.disk.Legible p) ∧ d.disk.Illegible path fault := by
  induction paths with
  | nil => simp at h
  | cons p paths ih =>
    by_cases hp : d.disk.Legible p
    · rw [List.forall_mem_cons] at h
      obtain ⟨before, path, after, fault, rfl, hbefore, hi⟩ := ih fun hall => h ⟨hp, hall⟩
      exact ⟨p :: before, path, after, fault, rfl, List.forall_mem_cons.2 ⟨hp, hbefore⟩, hi⟩
    · obtain ⟨fault, hi⟩ := Disk.not_legible_iff.1 hp
      exact ⟨[], p, paths, fault, rfl, by simp, hi⟩

/-! ### Whole batches -/

/-- **A batch comes to its end if and only if its files are texts.**  Then it has one record for
each path in order, each of which is what the program gives by itself.  Else it ends with the fault
of the first file that is no text. -/
theorem run_returns_iff_legible (d : Desk) (plan : Plan) (paths : List String)
    (hk : plan.kind.resolve = .ok read) (ht : plan.tape = .str text) :
    ((d.perform (run paths plan none)).1.isOk = true ↔ ∀ path ∈ paths, d.disk.Legible path) ∧
    ((∀ path ∈ paths, d.disk.Legible path) →
      (∃ events, d.perform (run paths plan none) =
        (.ok (paths.map (single d plan), none), { d with events })) ∧
      ∀ path ∈ paths, ∀ fault,
        Program.readied d.disk path plan.tape plan.kind = .error fault →
          fault.isUnreadable = true ∧ (single d plan path).error = some fault.message) ∧
    ∀ before path after, paths = before ++ path :: after → (∀ p ∈ before, d.disk.Legible p) →
      ¬ d.disk.Legible path →
        ∃ fault, d.disk.Illegible path fault ∧
          (d.perform (run paths plan none)).1 = .error fault := by
  have hends (hp : ∀ path ∈ paths, d.disk.Legible path) := gives_run_unlogged hk ht hp d.events
  have hfails (before : List String) (path : String) (after : List String) (fault : Fault)
      (he : paths = before ++ path :: after) (hp : ∀ p ∈ before, d.disk.Legible p)
      (hi : d.disk.Illegible path fault) : (d.perform (run paths plan none)).1 = .error fault := by
    subst he
    obtain ⟨d', hd⟩ := fails_run before after hk ht hp hi d.events
    exact congrArg Prod.fst hd
  refine ⟨⟨?_, ?_⟩, ?_, ?_⟩
  · intro hok
    by_contra hall
    obtain ⟨before, path, after, fault, he, hp, hi⟩ := exists_first_illegible hall
    rw [hfails before path after fault he hp hi] at hok
    cases hok
  · intro hp
    obtain ⟨events, he⟩ := hends hp
    rw [he]
    rfl
  · intro hp
    refine ⟨hends hp, ?_⟩
    intro path hpath fault hr
    refine ⟨isUnreadable_of_readied (hp path hpath) hk (ht ▸ hr), ?_⟩
    obtain ⟨m, hm, _⟩ | ⟨fault', hf, hs⟩ := single_cases d plan path
    · rw [hr] at hm
      cases hm
    · rw [hr] at hf
      cases hf
      rw [hs]
      rfl
  · intro before path after he hp hi
    obtain ⟨fault, hi⟩ := Disk.not_legible_iff.1 hi
    exact ⟨fault, hi, hfails before path after fault he hp hi⟩

/-! ### A desk with a file that is no text -/

/-- The working folder has one more file, of a single byte that begins no character. -/
def spoiltDesk : Desk :=
  { writableDesk with disk := writableDesk.disk.put ["work", "bad.tm"] (.file [0xFF]) }

theorem legible_one : spoiltDesk.disk.Legible "one.tm" :=
  .of_text (Text.encodeUtf8 programText) programText (by decide) (by decide +kernel)
    (by decide +kernel)

theorem legible_two : spoiltDesk.disk.Legible "two.tm" :=
  .of_error (.system .missing "two.tm") (by decide) (by decide +kernel)

theorem illegible_bad :
    spoiltDesk.disk.Illegible "bad.tm" (.encoding ⟨.badStart, 0, [0xFF]⟩) := by
  have hread : spoiltDesk.disk.read "bad.tm" = .ok [0xFF] := by decide +kernel
  exact .noText hread (by decide +kernel)

/-- A program that is not there stops nothing, one that is no text does. -/
theorem run_returns_two :
    (∃ events, spoiltDesk.perform (run ["two.tm", "one.tm"] {} none) =
      (.ok (["two.tm", "one.tm"].map (single spoiltDesk {}), none), { spoiltDesk with events })) ∧
    (spoiltDesk.perform (run ["two.tm", "bad.tm", "one.tm"] {} none)).1.isOk = false := by
  have hk : (default : KindSpec).resolve = .ok SymbolKind.truth.read := rfl
  have hp : ∀ path ∈ ["two.tm", "one.tm"], spoiltDesk.disk.Legible path := by
    simp [legible_one, legible_two]
  have hbad : ¬ ∀ path ∈ ["two.tm", "bad.tm", "one.tm"], spoiltDesk.disk.Legible path := by
    intro h
    exact Disk.not_legible_iff.2 ⟨_, illegible_bad⟩ (h "bad.tm" (by simp))
  obtain ⟨_, hends, _⟩ := run_returns_iff_legible spoiltDesk {} ["two.tm", "one.tm"] hk rfl
  obtain ⟨hiff, _, _⟩ :=
    run_returns_iff_legible spoiltDesk {} ["two.tm", "bad.tm", "one.tm"] hk rfl
  refine ⟨(hends hp).1, ?_⟩
  rw [← Bool.not_eq_true, hiff]
  exact hbad

/-- **A file can end a batch**, whatever the programs beside it do. -/
theorem run_not_returns :
    ¬ ∀ (d : Desk) (plan : Plan) (paths : List String) (kind : SymbolKind) (text : String),
      plan.kind.resolve = .ok kind.read → plan.tape = .str text →
      (∀ path ∈ paths, Disk.hasNul path = false) →
      ∃ records d', d.perform (run paths plan none) = (.ok (records, none), d') ∧
        records.length = paths.length := by
  intro h
  obtain ⟨records, d', hrun, _⟩ := h spoiltDesk {} ["one.tm", "bad.tm", "one.tm"] .truth "" rfl rfl
    (by decide)
  have hk : ({} : Plan).kind.resolve = .ok SymbolKind.truth.read := rfl
  have ht : ({} : Plan).tape = .str "" := rfl
  have hone : ∀ p ∈ ["one.tm"], spoiltDesk.disk.Legible p := by simpa using legible_one
  obtain ⟨d'', hfails⟩ :=
    fails_run ["one.tm"] ["one.tm"] hk ht hone illegible_bad spoiltDesk.events
  have hsame := hrun.symm.trans hfails
  cases hsame

end Batch

end TapeMachine

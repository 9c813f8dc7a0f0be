import Mathlib.Logic.Relation
import TapeMachine.Proofs.Folders

/-!
# Folders that are made

A folder that was made with the folders above it is there afterwards, but for one case: a path whose
last name stands for where one is may lead to a file, over folders that have to be made first.  To
make such a folder once more is complained of, so after two makings without a complaint there is a
folder.

* `Disk.of_makeFolder_taken`, `exists_of_makeFolder_taken`: what is in the place of a folder.
* `Disk.MakesFolder`, `reflTransGen_of_makeFoldersWithin`: folders are made one by one.
* `Disk.of_makeFoldersWithin_of_missing`, `of_makeFoldersWithin_twice`: folders with those above, by
  induction on these.
* `Disk.isFolder_of_makeFolders`, `makeFolders_of_isFolder`: a folder that was made twice, and one
  that is there.
-/

namespace TapeMachine.Disk

variable {d d' d'' : Disk} {p q : Place} {path head tail name : String}

/-! ### Something else in the place of a folder -/

theorem walk_ne_taken (d : Disk) (p : Place) (names : List String) :
    d.walk p names ≠ .error .taken := by
  fun_induction Disk.walk d p names with
  | case1 | case2 | case6 =>
    intro h
    cases h
  | case3 p names hf ih => exact ih
  | case4 p names hf hh ih => exact ih
  | case5 p name names hf hh ha cause hl =>
    intro h
    cases h
    rw [look] at hl
    split at hl
    · cases hl
    · cases hl
  | case7 p name names hf hh ha node hl ih => exact ih

theorem spot_ne_taken (d : Disk) (path : String) : d.spot path ≠ .error .taken := by
  intro h
  unfold spot at h
  split at h
  · cases h
  · split at h
    · split at h <;> cases h
    · split at h
      · next hw =>
        cases h
        exact walk_ne_taken d _ _ hw
      · split at h
        · cases h
        · split at h <;> cases h

theorem of_makeFolder_taken {taken : String}
    (h : d.makeFolder path = .error (.system .taken taken)) :
    hasNul path = false ∧ (d.spot path = .ok .unnamed ∨
      ∃ p name node, d.spot path = .ok (.named p name) ∧ d.look p name = .ok (some node)) := by
  cases hnul : hasNul path with
  | true =>
    unfold makeFolder named at h
    rw [if_pos hnul] at h
    cases h
  | false =>
    refine ⟨rfl, ?_⟩
    unfold makeFolder named at h
    rw [if_neg (by simp [hnul])] at h
    cases hs : d.spot path with
    | error cause =>
      rw [hs] at h
      cases h
      exact absurd hs (spot_ne_taken d path)
    | ok spot =>
      cases spot with
      | unnamed => exact .inl rfl
      | named p name =>
        rw [hs] at h
        dsimp only at h
        cases hl : d.look p name with
        | error cause =>
          rw [hl] at h
          cases h
          rw [look] at hl
          split at hl <;> cases hl
        | ok node? =>
          cases node? with
          | none =>
            rw [hl] at h
            cases h
          | some node => exact .inr ⟨p, name, node, rfl, hl⟩

theorem fromRoot_of_names_nil (h : Path.names path = []) (he : path ≠ "") :
    Path.fromRoot path = true := by
  cases hcs : path.toList with
  | nil => exact absurd (String.toList_eq_nil_iff.1 hcs) he
  | cons c cs =>
    by_cases hc : c = '/'
    · rw [Path.fromRoot, hcs, hc]
      rfl
    · rw [Path.names, hcs, Text.splitAt, if_neg hc] at h
      cases hsplit : Text.splitAt '/' cs with
      | nil => simp [hsplit] at h
      | cons piece pieces => simp [hsplit] at h

theorem isFolder_of_unnamed (hr : d.Rooted) (hn : hasNul path = false)
    (h : d.spot path = .ok .unnamed) : d.isFolder path = true := by
  have hl : path.utf8ByteSize < pathLimit := by
    rw [spot] at h
    split at h
    · cases h
    · next hl => exact Nat.not_le.1 hl
  have hroot : d.node? [] = some .folder := if_pos rfl
  rcases List.eq_nil_or_concat' (Path.names path) with hnil | ⟨names, name, hnames⟩
  · have he : path ≠ "" := by
      rintro rfl
      cases h
    refine isFolder_iff.2 ⟨hn, he, hl, [], ?_, hroot⟩
    rw [hnil, startOf, if_pos (fromRoot_of_names_nil hnil he)]
    rfl
  · have he : path ≠ "" := by
      rintro rfl
      exact List.concat_ne_nil _ _ hnames.symm
    rw [spot_of_names hnames, if_neg (Nat.not_le.2 hl)] at h
    split at h
    · cases h
    · next p hw =>
      split at h
      · cases h
      · next hf =>
        rw [Decidable.not_not] at hf
        split at h
        · next hname =>
          have habove : d.node? p.dropLast = some .folder := by
            rcases List.eq_nil_or_concat' p with rfl | ⟨q, last, rfl⟩
            · exact hroot
            · rw [List.dropLast_concat]
              exact hr q last (by rw [hf]; exact Option.some_ne_none _)
          rcases hname with rfl | rfl
          · refine isFolder_iff.2 ⟨hn, he, hl, p, ?_, hf⟩
            rw [hnames, walk_append_of_ok hw, walk_here hf]
          · refine isFolder_iff.2 ⟨hn, he, hl, p.dropLast, ?_, habove⟩
            rw [hnames, walk_append_of_ok hw]
            simp [Disk.walk, hf, Path.here, Path.above]
        · cases h

theorem exists_of_makeFolder_taken {taken : String} (hr : d.Rooted)
    (h : d.makeFolder path = .error (.system .taken taken))
    (hends : Path.names path = [] ∨ Path.endsInSlash path = false) : d.exists? path = true := by
  obtain ⟨hn, hs | ⟨p, name, node, hs, hlook⟩⟩ := of_makeFolder_taken h
  · exact exists_of_isFolder (isFolder_of_unnamed hr hn hs)
  · obtain ⟨hl, hlast, hw, hf, hh, ha⟩ := spot_eq_named_iff.1 hs
    obtain ⟨names, hnames⟩ := List.getLast?_eq_some_iff.1 hlast
    rw [hnames, List.dropLast_concat] at hw
    have hslash : Path.endsInSlash path = false := by
      refine hends.resolve_left fun hnil => ?_
      rw [hnil] at hlast
      cases hlast
    have he : path ≠ "" := by
      rintro rfl
      cases hlast
    have hfind : d.find path = .ok (p ++ [name]) := by
      refine find_eq_ok_iff.2 ⟨he, hl, ?_⟩
      rw [way, hslash, if_neg Bool.false_ne_true, hnames]
      exact walk_concat hw hf hh ha hlook
    have hnode : d.nodeAt? path = some node :=
      nodeAt?_eq_some_iff.2 ⟨hn, _, hfind, (look_eq_ok_iff.1 hlook).2⟩
    rw [exists?, hnode]
    rfl

theorem isFolder_parent_of_taken {taken : String} (h : Path.Parted path head tail)
    (hm : d.makeFolder path = .error (.system .taken taken)) : d.isFolder head = true := by
  obtain ⟨hn, hs⟩ := of_makeFolder_taken hm
  obtain ⟨spot, hs⟩ : ∃ spot, d.spot path = .ok spot := by
    rcases hs with hs | ⟨p, name, _, hs, _⟩
    · exact ⟨_, hs⟩
    · exact ⟨_, hs⟩
  rw [spot_of_names h.names] at hs
  split at hs
  · cases hs
  · next hl =>
    split at hs
    · cases hs
    · next p hw =>
      split at hs
      · cases hs
      · next hf =>
        exact isFolder_of_parted h hn (Nat.not_le.1 hl) hw (Decidable.not_not.1 hf)

/-! ### Folders with those above -/

section Within

variable {depth : Nat} {result result' : Except DiskFault Unit}

/-- There is a folder, or something else is in its place. -/
def Settled (result : Except DiskFault Unit) : Prop :=
  result = .ok () ∨ ∃ path, result = .error (.system .taken path)

theorem makeFoldersWithin_of_exists (hp : Path.parent path = (head, tail))
    (h : head = "" ∨ tail = "" ∨ d.exists? head = true) (depth : Nat) :
    makeFoldersWithin (depth + 1) d path = d.ensureFolder path := by
  have hnot : ¬ (head ≠ "" ∧ tail ≠ "" ∧ (!d.exists? head) = true) := by
    rintro ⟨hh, ht, he⟩
    rcases h with rfl | rfl | h
    · exact hh rfl
    · exact ht rfl
    · rw [h] at he
      cases he
  rw [makeFoldersWithin, hp]
  exact if_neg hnot

/-- **A folder in one that is not there**, which is made first. -/
theorem of_makeFoldersWithin_of_missing (hp : Path.parent path = (head, tail)) (hh : head ≠ "")
    (ht : tail ≠ "") (he : d.exists? head = false)
    (h : makeFoldersWithin (depth + 1) d path = (d', result)) :
    ∃ d₁ result₁, makeFoldersWithin depth d head = (d₁, result₁) ∧
      (Settled result₁ ∧ tail = Path.here ∧ d' = d₁ ∧ result = .ok () ∨
        Settled result₁ ∧ tail ≠ Path.here ∧ d₁.ensureFolder path = (d', result) ∨
        ¬ Settled result₁ ∧ d' = d₁ ∧ result = result₁) := by
  have hc : head ≠ "" ∧ tail ≠ "" ∧ (!d.exists? head) = true := ⟨hh, ht, by rw [he]; rfl⟩
  rw [makeFoldersWithin, hp] at h
  dsimp only at h
  rw [if_pos hc] at h
  rcases hrec : makeFoldersWithin depth d head with ⟨d₁, result₁⟩
  refine ⟨d₁, result₁, rfl, ?_⟩
  rw [hrec] at h
  have hgo (hs : Settled result₁)
      (h : (if tail = Path.here then (d₁, .ok ()) else d₁.ensureFolder path) = (d', result)) :
      Settled result₁ ∧ tail = Path.here ∧ d' = d₁ ∧ result = .ok () ∨
        Settled result₁ ∧ tail ≠ Path.here ∧ d₁.ensureFolder path = (d', result) ∨
        ¬ Settled result₁ ∧ d' = d₁ ∧ result = result₁ := by
    split at h
    · next hhere =>
      obtain ⟨rfl, rfl⟩ := Prod.mk.inj h
      exact .inl ⟨hs, hhere, rfl, rfl⟩
    · next hhere => exact .inr (.inl ⟨hs, hhere, h⟩)
  split at h
  · next hr =>
    obtain ⟨rfl, rfl⟩ := Prod.mk.inj hr
    exact hgo (.inr ⟨_, rfl⟩) h
  · next hr =>
    obtain ⟨rfl, rfl⟩ := Prod.mk.inj hr
    exact hgo (.inl rfl) h
  · next fault hnot hr =>
    obtain ⟨rfl, rfl⟩ := Prod.mk.inj hr
    obtain ⟨rfl, rfl⟩ := Prod.mk.inj h
    refine .inr (.inr ⟨?_, rfl, rfl⟩)
    rintro (h | ⟨taken, h⟩)
    · cases h
    · exact hnot taken (Except.error.inj h)

/-- The second disk is the first one with a folder that was made. -/
def MakesFolder (d d' : Disk) : Prop := ∃ path, d.makeFolder path = .ok d'

theorem reflTransGen_of_ensureFolder (h : d.ensureFolder path = (d', result)) :
    Relation.ReflTransGen MakesFolder d d' := by
  rcases (of_ensureFolder h).1 with rfl | hm
  · exact .refl
  · exact .single ⟨path, hm⟩

/-- **Folders are made one by one**: what each of them keeps is kept by all. -/
theorem reflTransGen_of_makeFoldersWithin
    (h : makeFoldersWithin depth d path = (d', result)) :
    Relation.ReflTransGen MakesFolder d d' := by
  induction depth generalizing d d' path result with
  | zero =>
    cases h
    exact .refl
  | succ depth ih =>
    obtain ⟨head, tail, hp⟩ : ∃ head tail, Path.parent path = (head, tail) := ⟨_, _, rfl⟩
    by_cases hc : head = "" ∨ tail = "" ∨ d.exists? head = true
    · rw [makeFoldersWithin_of_exists hp hc] at h
      exact reflTransGen_of_ensureFolder h
    · rw [not_or, not_or, Bool.not_eq_true] at hc
      obtain ⟨d₁, result₁, hrec, hcases⟩ :=
        of_makeFoldersWithin_of_missing hp hc.1 hc.2.1 hc.2.2 h
      rcases hcases with ⟨_, _, rfl, _⟩ | ⟨_, _, hfolder⟩ | ⟨_, rfl, _⟩
      · exact ih hrec
      · exact (ih hrec).trans (reflTransGen_of_ensureFolder hfolder)
      · exact ih hrec

theorem widens_of_makeFoldersWithin
    (h : makeFoldersWithin depth d path = (d', result)) : Widens d d' := by
  replace h := reflTransGen_of_makeFoldersWithin h
  induction h with
  | refl => exact .refl d
  | tail _ hstep ih =>
    obtain ⟨path, hm⟩ := hstep
    exact ih.trans (widens_of_makeFolder hm)

theorem of_ensureFolder_twice (hr : d.Rooted) (h : d.ensureFolder path = (d', result))
    (hs : Settled result) (h' : d'.ensureFolder path = (d'', result')) :
    (result' = .ok () → d'.isFolder path = true) ∧
      (Path.names path = [] ∨ Path.endsInSlash path = false → d'.exists? path = true) := by
  rcases (of_ensureFolder h).2 with ⟨_, hf⟩ | ⟨rfl, _, fault, rfl, hm⟩
  · exact ⟨fun _ => hf, fun _ => exists_of_isFolder hf⟩
  · obtain ⟨taken, rfl⟩ : ∃ taken, fault = .system .taken taken := by
      rcases hs with hs | ⟨taken, hs⟩
      · cases hs
      · exact ⟨taken, Except.error.inj hs⟩
    obtain ⟨_, rfl⟩ := Prod.mk.inj (h'.symm.trans h)
    exact ⟨nofun, exists_of_makeFolder_taken hr hm⟩

theorem isFolder_parent_of_ensureFolder (hparted : Path.Parted path head tail)
    (h : d.ensureFolder path = (d', result)) (hs : Settled result) : d'.isFolder head = true := by
  rcases (of_ensureFolder h).2 with ⟨_, hf⟩ | ⟨rfl, _, fault, rfl, hm⟩
  · exact isFolder_parent hparted (exists_of_isFolder hf)
  · rcases hs with hs | ⟨taken, hs⟩
    · cases hs
    · obtain rfl := Except.error.inj hs
      exact isFolder_parent_of_taken hparted hm

theorem eq_of_ensureFolder_here (hparted : Path.Parted path head Path.here)
    (h : d.ensureFolder path = (d', result)) : d' = d := by
  refine (of_ensureFolder h).1.resolve_right fun hm => ?_
  obtain ⟨_, p, name, hs, _⟩ := makeFolder_eq_ok_iff.1 hm
  obtain ⟨_, hlast, _, _, hh, _⟩ := spot_eq_named_iff.1 hs
  rw [hparted.names, List.getLast?_concat] at hlast
  exact hh (Option.some.inj hlast).symm

/-- **To make a folder twice**, with the folders above it: if the second time nothing is complained
of, then there is a folder after the first time. -/
theorem of_makeFoldersWithin_twice (hr : d.Rooted)
    (h : makeFoldersWithin depth d path = (d', result)) (hs : Settled result)
    (h' : makeFoldersWithin depth d' path = (d'', result')) (hs' : Settled result') :
    (result' = .ok () → d'.isFolder path = true) ∧
      (Path.names path = [] ∨ Path.endsInSlash path = false → d'.exists? path = true) := by
  induction depth generalizing d d' d'' path result result' with
  | zero =>
    cases h
    rcases hs with hs | ⟨_, hs⟩ <;> cases hs
  | succ depth ih =>
    obtain ⟨head, tail, hp⟩ : ∃ head tail, Path.parent path = (head, tail) := ⟨_, _, rfl⟩
    have hwide := widens_of_makeFoldersWithin h
    by_cases hc : head = "" ∨ tail = "" ∨ d.exists? head = true
    · -- the folder above is there, and so it is the second time
      have hc' : head = "" ∨ tail = "" ∨ d'.exists? head = true :=
        hc.imp_right (Or.imp_right hwide.exists_of_exists)
      rw [makeFoldersWithin_of_exists hp hc] at h
      rw [makeFoldersWithin_of_exists hp hc'] at h'
      exact of_ensureFolder_twice hr h hs h'
    · rw [not_or, not_or, Bool.not_eq_true] at hc
      obtain ⟨hh, ht, he⟩ := hc
      have hparted := Path.parted_of_parent hp hh ht
      obtain ⟨d₁, result₁, hrec, hcases⟩ := of_makeFoldersWithin_of_missing hp hh ht he h
      have hr₁ : d₁.Rooted := (widens_of_makeFoldersWithin hrec).rooted hr
      rcases hcases with ⟨hs₁, rfl, rfl, _⟩ | ⟨_, _, hfolder⟩ | ⟨hs₁, _, rfl⟩
      · cases he' : d'.exists? head with
        | true =>
          -- nothing is made now, so what is there now was there before
          rw [makeFoldersWithin_of_exists hp (.inr (.inr he'))] at h'
          obtain rfl := eq_of_ensureFolder_here hparted h'
          exact of_ensureFolder_twice hr₁ h' hs' h'
        | false =>
          -- the folder above is asked for again, and cannot be missing then
          obtain ⟨d₂, result₂, hrec', hcases'⟩ := of_makeFoldersWithin_of_missing hp hh ht he' h'
          have hs₂ : Settled result₂ := by
            rcases hcases' with ⟨hs₂, _⟩ | ⟨hs₂, _⟩ | ⟨_, _, rfl⟩
            · exact hs₂
            · exact hs₂
            · exact hs'
          have he'' := (ih hr hrec hs₁ hrec' hs₂).2 hparted.ends
          rw [he'] at he''
          cases he''
      · have hf := isFolder_parent_of_ensureFolder hparted hfolder hs
        rw [makeFoldersWithin_of_exists hp (.inr (.inr (exists_of_isFolder hf)))] at h'
        exact of_ensureFolder_twice hr₁ hfolder hs h'
      · exact absurd hs hs₁

end Within

theorem widens_of_makeFolders {result : Except DiskFault Unit}
    (h : d.makeFolders path = (d', result)) : Widens d d' :=
  widens_of_makeFoldersWithin h

/-- **A folder that was made twice** without a complaint is there. -/
theorem isFolder_of_makeFolders (hr : d.Rooted) (h : d.makeFolders path = (d', .ok ()))
    (h' : d'.makeFolders path = (d'', .ok ())) : d''.isFolder path = true :=
  (widens_of_makeFolders h').isFolder
    ((of_makeFoldersWithin_twice hr h (.inl rfl) h' (.inl rfl)).1 rfl)

/-- **A folder that is there** is not made again. -/
theorem makeFolders_of_isFolder (h : d.isFolder path = true) :
    d.makeFolders path = (d, .ok ()) := by
  obtain ⟨head, tail, hp⟩ : ∃ head tail, Path.parent path = (head, tail) := ⟨_, _, rfl⟩
  have hc : head = "" ∨ tail = "" ∨ d.exists? head = true := by
    by_cases hh : head = ""
    · exact .inl hh
    · by_cases ht : tail = ""
      · exact .inr (.inl ht)
      · exact .inr (.inr (exists_of_isFolder
          (isFolder_parent (Path.parted_of_parent hp hh ht) (exists_of_isFolder h))))
  exact (makeFoldersWithin_of_exists hp hc _).trans (ensureFolder_of_isFolder h)

end TapeMachine.Disk

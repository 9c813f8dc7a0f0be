import Mathlib.Data.List.Induction
import TapeMachine.Proofs.MadeFolders

/-!
# What is read beside new folders

To make folders changes no file, and where a way leads depends on its names alone.  So two disks
that come from one by the making of folders give the same bytes for a path, if both give any.  Only
by a way that turns back from a new folder can one of them give what the other has not.

* `Disk.Furnishes`: a disk with more folders; `furnishes_of_makeFolders`.
* `Disk.eq_of_walk`: ways lead to the same place on all disks.
* `Furnishes.read_eq`: a path that can be read on two disks.
* `Furnishes.isOk_read_eq`: paths that do not turn back.
-/

namespace TapeMachine.Disk

variable {d d' d₁ d₂ : Disk} {p q : Place} {path : String} {bytes : List UInt8}

/-! ### Disks with more folders -/

/-- All that there was is there, and what is new are folders. -/
structure Furnishes (d d' : Disk) : Prop extends Widens d d' where
  file : ∀ {p bytes}, d'.node? p = some (.file bytes) → d.node? p = some (.file bytes)

namespace Furnishes

theorem refl (d : Disk) : Furnishes d d := ⟨.refl d, id⟩

theorem trans {d'' : Disk} (h : Furnishes d d') (g : Furnishes d' d'') : Furnishes d d'' :=
  ⟨h.toWidens.trans g.toWidens, h.file ∘ g.file⟩

end Furnishes

theorem furnishes_of_makeFolder (h : d.makeFolder path = .ok d') : Furnishes d d' := by
  refine ⟨widens_of_makeFolder h, fun {p bytes} hp => ?_⟩
  obtain ⟨_, folder, name, _, _, _, rfl⟩ := makeFolder_eq_ok_iff.1 h
  rw [node?_put d (List.concat_ne_nil _ _)] at hp
  split at hp
  · cases hp
  · exact hp

/-- **Where folders were made** nothing else is new. -/
theorem furnishes_of_makeFolders {result : Except DiskFault Unit}
    (h : d.makeFolders path = (d', result)) : Furnishes d d' := by
  replace h := reflTransGen_of_makeFoldersWithin h
  induction h with
  | refl => exact .refl d
  | tail _ hstep ih =>
    obtain ⟨path, hm⟩ := hstep
    exact ih.trans (furnishes_of_makeFolder hm)

/-! ### The places of ways -/

/-- **A way leads to one place**, on whatever disk it leads anywhere. -/
theorem eq_of_walk {names : List String} {p' : Place} (h : d.walk p names = .ok q)
    (h' : d'.walk p names = .ok p') : q = p' := by
  fun_induction Disk.walk d p names with
  | case1 p =>
    cases h
    cases h'
    rfl
  | case2 => cases h
  | case3 p names hf ih =>
    rw [Disk.walk, if_neg (not_not_intro (node?_of_walk_cons h')), if_pos rfl] at h'
    exact ih h h'
  | case4 p names hf hh ih =>
    rw [Disk.walk, if_neg (not_not_intro (node?_of_walk_cons h')), if_neg hh, if_pos rfl] at h'
    exact ih h h'
  | case5 => cases h
  | case6 => cases h
  | case7 p name names hf hh ha node hl ih =>
    rw [walk_cons_of_ne (node?_of_walk_cons h') hh ha] at h'
    split at h'
    · cases h'
    · cases h'
    · exact ih h h'

theorem read_eq_ok_iff :
    d.read path = .ok bytes ↔
      hasNul path = false ∧ ∃ p, d.find path = .ok p ∧ d.node? p = some (.file bytes) := by
  rw [read, named_eq_ok_iff]
  refine and_congr_right fun _ => ?_
  constructor
  · intro h
    split at h
    · cases h
    · next p hfind =>
      split at h
      · next hnode =>
        cases h
        exact ⟨p, hfind, hnode⟩
      · cases h
      · cases h
  · rintro ⟨p, hfind, hnode⟩
    simp only [hfind, hnode]

namespace Furnishes

theorem read_eq {bytes' : List UInt8} (h₁ : Furnishes d d₁) (h₂ : Furnishes d d₂)
    (hr₁ : d₁.read path = .ok bytes) (hr₂ : d₂.read path = .ok bytes') : bytes = bytes' := by
  obtain ⟨_, p, hf₁, hn₁⟩ := read_eq_ok_iff.1 hr₁
  obtain ⟨_, q, hf₂, hn₂⟩ := read_eq_ok_iff.1 hr₂
  obtain ⟨_, _, hw₁⟩ := find_eq_ok_iff.1 hf₁
  obtain ⟨_, _, hw₂⟩ := find_eq_ok_iff.1 hf₂
  rw [h₁.startOf] at hw₁
  rw [h₂.startOf] at hw₂
  obtain rfl := eq_of_walk hw₁ hw₂
  have hsame := (h₁.file hn₁).symm.trans (h₂.file hn₂)
  exact Node.file.inj (Option.some.inj hsame)

end Furnishes

/-! ### Ways that do not turn back -/

theorem isPrefix_of_walk {names : List String} (ha : Path.above ∉ names)
    (h : d.walk p names = .ok q) : p <+: q := by
  fun_induction Disk.walk d p names with
  | case1 p =>
    cases h
    exact List.prefix_rfl
  | case2 => cases h
  | case3 p names hf ih => exact ih (fun hmem => ha (List.mem_cons_of_mem _ hmem)) h
  | case4 p names hf hh ih => exact absurd List.mem_cons_self ha
  | case5 => cases h
  | case6 => cases h
  | case7 p name names hf hh ha' node hl ih =>
    have hrest := ih (fun hmem => ha (List.mem_cons_of_mem _ hmem)) h
    exact (List.prefix_append p [name]).trans hrest

theorem Rooted.folder_of_isPrefix (hr : d.Rooted) (h : p <+: q) (hne : p ≠ q)
    (hq : d.node? q ≠ none) : d.node? p = some .folder := by
  obtain ⟨rest, rfl⟩ := h
  induction rest using List.reverseRecOn with
  | nil => exact absurd (List.append_nil p).symm hne
  | append_singleton rest name ih =>
    rw [← List.append_assoc] at hq
    have hfolder := hr _ _ hq
    cases rest with
    | nil => rwa [List.append_nil] at hfolder
    | cons x rest =>
      refine ih ?_ (by rw [hfolder]; exact Option.some_ne_none _)
      intro he
      have hl := congrArg List.length he
      simp at hl

namespace Furnishes

/-- A way to a file that does not turn back leads through folders that were there. -/
theorem walk_of_file (h : Furnishes d d') (hr : d.Rooted) {names : List String}
    (ha : Path.above ∉ names) (hw : d'.walk p names = .ok q)
    (hq : d'.node? q = some (.file bytes)) : d.walk p names = .ok q := by
  have hthere : d.node? q ≠ none := by
    rw [h.file hq]
    exact Option.some_ne_none _
  -- a place on the way where there is a folder is not the file, so it is above it
  have hfolder {p : Place} (hp : d'.node? p = some .folder) (hpq : p <+: q) :
      d.node? p = some .folder := by
    refine hr.folder_of_isPrefix hpq ?_ hthere
    rintro rfl
    rw [hq] at hp
    cases hp
  fun_induction Disk.walk d' p names with
  | case1 p => exact hw
  | case2 => cases hw
  | case3 p names hf ih =>
    have hf' := Decidable.not_not.1 hf
    have ha' : Path.above ∉ names := fun hmem => ha (List.mem_cons_of_mem _ hmem)
    rw [Disk.walk, if_neg (not_not_intro (hfolder hf' (isPrefix_of_walk ha' hw))), if_pos rfl]
    exact ih ha' hw
  | case4 p names hf hh ih => exact absurd List.mem_cons_self ha
  | case5 => cases hw
  | case6 => cases hw
  | case7 p name names hf hh habove node hl ih =>
    have hf' := Decidable.not_not.1 hf
    have ha' : Path.above ∉ names := fun hmem => ha (List.mem_cons_of_mem _ hmem)
    have hnext := isPrefix_of_walk ha' hw
    obtain ⟨hle, hnode⟩ := look_eq_ok_iff.1 hl
    obtain ⟨node', hnode'⟩ : ∃ node', d.node? (p ++ [name]) = some node' := by
      by_cases he : p ++ [name] = q
      · exact ⟨_, he ▸ h.file hq⟩
      · exact ⟨_, hr.folder_of_isPrefix hnext he hthere⟩
    rw [walk_cons_of_ne (hfolder hf' ((List.prefix_append p [name]).trans hnext)) hh habove,
      look_eq_ok_iff.2 ⟨hle, hnode'⟩]
    exact ih ha' hw

/-- **A path that does not turn back** can be read if and only if it could before. -/
theorem isOk_read_eq (h : Furnishes d d') (hr : d.Rooted)
    (ha : Path.above ∉ Path.names path) : (d'.read path).isOk = (d.read path).isOk := by
  have hway : Path.above ∉ way path := by
    rw [way]
    split
    · rw [List.mem_append, not_or]
      exact ⟨ha, by decide⟩
    · exact ha
  cases hnew : d'.read path with
  | ok bytes =>
    obtain ⟨hn, q, hfind, hnode⟩ := read_eq_ok_iff.1 hnew
    obtain ⟨hne, hl, hw⟩ := find_eq_ok_iff.1 hfind
    rw [h.startOf] at hw
    have hfind' : d.find path = .ok q := find_eq_ok_iff.2 ⟨hne, hl, h.walk_of_file hr hway hw hnode⟩
    rw [read_eq_ok_iff.2 ⟨hn, q, hfind', h.file hnode⟩]
  | error fault =>
    cases hold : d.read path with
    | ok bytes =>
      rw [h.read_of_ok hold] at hnew
      cases hnew
    | error fault' => rfl

end Furnishes

end TapeMachine.Disk

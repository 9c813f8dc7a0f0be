import TapeMachine.Proofs.GrowingFiles
import TapeMachine.Proofs.PathNames
import TapeMachine.Proofs.Results

/-!
# Folders

A path is that of a folder if its names lead to one, and then the folders above it are there too.
To make a folder keeps all that there was, and a folder that is there is not made again.

* `Disk.isFolder_iff`, `isFolder_parent`: folders that are there.
* `Disk.Widens`: a disk on which folders were made; `Widens.walk_of_ok`, `Widens.isFolder`.
* `Disk.ensureFolder_of_isFolder`, `of_ensureFolder`: what comes of one folder.
-/

namespace TapeMachine.Disk

variable {d d' d'' : Disk} {p q : Place} {path head tail name : String}

/-! ### Folders that are there -/

theorem find_eq_ok_iff :
    d.find path = .ok p ↔ path ≠ "" ∧ path.utf8ByteSize < pathLimit ∧
      d.walk (d.startOf path) (way path) = .ok p := by
  rw [find_eq]
  by_cases he : path = ""
  · simp [he]
  · by_cases hl : pathLimit ≤ path.utf8ByteSize
    · simp [he, hl, Nat.not_lt.2 hl]
    · simp [he, hl, Nat.not_le.1 hl]

theorem nodeAt?_eq_some_iff {node : Node} :
    d.nodeAt? path = some node ↔
      hasNul path = false ∧ ∃ p, d.find path = .ok p ∧ d.node? p = some node := by
  unfold nodeAt?
  cases hasNul path <;> cases d.find path <;> simp

theorem walk_here (hf : d.node? p = some .folder) : d.walk p [Path.here] = .ok p := by
  simp [Disk.walk, hf]

theorem node?_of_walk_cons {names : List String} (h : d.walk p (name :: names) = .ok q) :
    d.node? p = some .folder := by
  rw [Disk.walk] at h
  split at h
  · cases h
  · next hf => exact Decidable.not_not.1 hf

theorem isFolder_iff :
    d.isFolder path = true ↔ hasNul path = false ∧ path ≠ "" ∧ path.utf8ByteSize < pathLimit ∧
      ∃ p, d.walk (d.startOf path) (Path.names path) = .ok p ∧ d.node? p = some .folder := by
  rw [isFolder, beq_iff_eq, nodeAt?_eq_some_iff]
  simp only [find_eq_ok_iff, way]
  refine and_congr_right fun _ => ?_
  constructor
  · rintro ⟨p, ⟨he, hl, hw⟩, hf⟩
    refine ⟨he, hl, p, ?_, hf⟩
    split at hw
    · obtain ⟨q, hq, hw⟩ := bind_eq_ok_iff.1 ((walk_append d _ _ _).symm.trans hw)
      rw [walk_here (node?_of_walk_cons hw)] at hw
      rw [hq, hw]
    · exact hw
  · rintro ⟨he, hl, p, hw, hf⟩
    refine ⟨p, ⟨he, hl, ?_⟩, hf⟩
    split
    · rw [walk_append_of_ok hw, walk_here hf]
    · exact hw

theorem exists_of_isFolder (h : d.isFolder path = true) : d.exists? path = true := by
  rw [isFolder, beq_iff_eq] at h
  rw [exists?, h]
  rfl

theorem utf8ByteSize_le_of_isPrefix (h : head.toList <+: path.toList) :
    head.utf8ByteSize ≤ path.utf8ByteSize := by
  obtain ⟨cs, hcs⟩ := h
  have hpath : path = head ++ .ofList cs := by
    rw [← String.toList_inj, String.toList_append, String.toList_ofList, hcs]
  rw [hpath, String.utf8ByteSize_append]
  omega

theorem hasNul_of_isPrefix (h : head.toList <+: path.toList) (hn : hasNul path = false) :
    hasNul head = false := by
  have hmem (t : String) : hasNul t = false ↔ '\x00' ∉ t.toList := by simp [hasNul]
  exact (hmem head).2 fun hm => (hmem path).1 hn (h.subset hm)

theorem isFolder_of_parted (h : Path.Parted path head tail) (hn : hasNul path = false)
    (hl : path.utf8ByteSize < pathLimit) (hw : d.walk (d.startOf path) (Path.names head) = .ok p)
    (hf : d.node? p = some .folder) : d.isFolder head = true := by
  have hstart : d.startOf head = d.startOf path := by rw [startOf, startOf, h.root]
  exact isFolder_iff.2 ⟨hasNul_of_isPrefix h.start hn, h.nonempty,
    (utf8ByteSize_le_of_isPrefix h.start).trans_lt hl, p, hstart ▸ hw, hf⟩

/-- **The folder of a path** to something that is there is there. -/
theorem isFolder_parent (h : Path.Parted path head tail) (he : d.exists? path = true) :
    d.isFolder head = true := by
  obtain ⟨node, hnode⟩ := Option.isSome_iff_exists.1 he
  obtain ⟨hn, q, hfind, _⟩ := nodeAt?_eq_some_iff.1 hnode
  obtain ⟨_, hl, hw⟩ := find_eq_ok_iff.1 hfind
  have hway : ∃ names, way path = Path.names head ++ tail :: names := by
    rw [way, h.names]
    split
    · exact ⟨[Path.here], by rw [List.append_assoc, List.singleton_append]⟩
    · exact ⟨[], rfl⟩
  obtain ⟨names, hway⟩ := hway
  rw [hway, walk_append] at hw
  obtain ⟨p, hp, hw⟩ := bind_eq_ok_iff.1 hw
  exact isFolder_of_parted h hn hl hp (node?_of_walk_cons hw)

theorem Grows.read_of_ok {shelf : Place → Prop} {bytes : List UInt8} (h : Grows shelf d d')
    (hr : d.read path = .ok bytes) (hp : ∀ p, d.find path = .ok p → ¬ shelf p) :
    d'.read path = d.read path := by
  refine h.read fun p hs => ⟨fun hfind => hp p hfind hs, ?_⟩
  obtain ⟨_, hr⟩ := named_eq_ok_iff.1 hr
  cases hfind : d.find path with
  | error cause =>
    rw [hfind] at hr
    cases hr
  | ok q => exact exists_of_walk (find_eq_ok_iff.1 hfind).2.2 p

theorem Grows.isFolder {shelf : Place → Prop} (h : Grows shelf d d')
    (hf : d.isFolder path = true) : d'.isFolder path = true := by
  obtain ⟨hn, he, hl, p, hw, hp⟩ := isFolder_iff.1 hf
  have hstart : d'.startOf path = d.startOf path := by rw [startOf, startOf, h.work]
  exact isFolder_iff.2 ⟨hn, he, hl, p, hstart ▸ h.walk_of_ok hw, (h.folder p).2 hp⟩

/-! ### Disks on which folders were made -/

/-- What there is stands in a folder. -/
def Rooted (d : Disk) : Prop := ∀ p name, d.node? (p ++ [name]) ≠ none → d.node? p = some .folder

theorem rooted_of_nodes
    (h : ∀ m ∈ d.nodes, m.1 = [] ∨ d.node? m.1.dropLast = some .folder) : d.Rooted := by
  intro p name hp
  rw [node?, if_neg (List.concat_ne_nil _ _)] at hp
  obtain ⟨node, hnode⟩ := Option.ne_none_iff_exists'.1 hp
  obtain ⟨before, after, hnodes, _⟩ := List.lookup_eq_some_iff.1 hnode
  have hmem : (p ++ [name], node) ∈ d.nodes := by
    rw [hnodes]
    exact List.mem_append_right before List.mem_cons_self
  have hparent := (h _ hmem).resolve_left (List.concat_ne_nil _ _)
  rwa [List.dropLast_concat] at hparent

/-- All that there was is there, and new things stand in folders. -/
structure Widens (d d' : Disk) : Prop where
  work : d'.work = d.work
  kept : ∀ {p node}, d.node? p = some node → d'.node? p = some node
  rooted : d.Rooted → d'.Rooted

namespace Widens

theorem refl (d : Disk) : Widens d d := ⟨rfl, id, id⟩

theorem trans (h : Widens d d') (g : Widens d' d'') : Widens d d'' :=
  ⟨g.work.trans h.work, g.kept ∘ h.kept, g.rooted ∘ h.rooted⟩

theorem startOf (h : Widens d d') (path : String) : d'.startOf path = d.startOf path := by
  rw [Disk.startOf, Disk.startOf, h.work]

theorem walk_of_ok (h : Widens d d') {names : List String} (hw : d.walk p names = .ok q) :
    d'.walk p names = .ok q := by
  fun_induction Disk.walk d p names with
  | case1 p => exact hw
  | case2 => cases hw
  | case3 p names hf ih =>
    rw [Disk.walk, if_neg (not_not_intro (h.kept (Decidable.not_not.1 hf))), if_pos rfl, ih hw]
  | case4 p names hf hh ih =>
    rw [Disk.walk, if_neg (not_not_intro (h.kept (Decidable.not_not.1 hf))), if_neg hh, if_pos rfl,
      ih hw]
  | case5 => cases hw
  | case6 => cases hw
  | case7 p name names hf hh ha node hl ih =>
    obtain ⟨hle, hn⟩ := look_eq_ok_iff.1 hl
    have hl' : d'.look p name = .ok (some node) := look_eq_ok_iff.2 ⟨hle, h.kept hn⟩
    rw [walk_cons_of_ne (h.kept (Decidable.not_not.1 hf)) hh ha, hl']
    exact ih hw

theorem isFolder (h : Widens d d') (hf : d.isFolder path = true) : d'.isFolder path = true := by
  obtain ⟨hn, he, hl, p, hw, hp⟩ := isFolder_iff.1 hf
  exact isFolder_iff.2 ⟨hn, he, hl, p, h.startOf path ▸ h.walk_of_ok hw, h.kept hp⟩

theorem exists_of_exists (h : Widens d d') (he : d.exists? path = true) : d'.exists? path = true := by
  obtain ⟨node, hnode⟩ := Option.isSome_iff_exists.1 he
  obtain ⟨hn, p, hfind, hp⟩ := nodeAt?_eq_some_iff.1 hnode
  obtain ⟨hne, hl, hw⟩ := find_eq_ok_iff.1 hfind
  have hfind' : d'.find path = .ok p :=
    find_eq_ok_iff.2 ⟨hne, hl, h.startOf path ▸ h.walk_of_ok hw⟩
  rw [exists?, nodeAt?_eq_some_iff.2 ⟨hn, p, hfind', h.kept hp⟩]
  rfl

theorem read_of_ok (h : Widens d d') {bytes : List UInt8} (hr : d.read path = .ok bytes) :
    d'.read path = .ok bytes := by
  obtain ⟨hn, hr⟩ := named_eq_ok_iff.1 hr
  refine named_eq_ok_iff.2 ⟨hn, ?_⟩
  cases hf : d.find path with
  | error cause =>
    rw [hf] at hr
    cases hr
  | ok p =>
    obtain ⟨he, hl, hw⟩ := find_eq_ok_iff.1 hf
    rw [find_eq_ok_iff.2 ⟨he, hl, h.startOf path ▸ h.walk_of_ok hw⟩]
    rw [hf] at hr
    dsimp only at hr ⊢
    cases hnode : d.node? p with
    | none =>
      rw [hnode] at hr
      cases hr
    | some node =>
      rw [hnode] at hr
      rw [h.kept hnode]
      exact hr

theorem put_folder (hf : d.node? p = some .folder) (hn : d.node? (p ++ [name]) = none) :
    Widens d (d.put (p ++ [name]) .folder) := by
  have hnode (q : Place) : (d.put (p ++ [name]) .folder).node? q =
      if q = p ++ [name] then some .folder else d.node? q :=
    node?_put d (List.concat_ne_nil _ _) q .folder
  have hkept {q : Place} {node : Node} (h : d.node? q = some node) :
      (d.put (p ++ [name]) .folder).node? q = some node := by
    rw [hnode, if_neg ?_, h]
    rintro rfl
    rw [hn] at h
    cases h
  refine ⟨rfl, hkept, fun hr q last hq => ?_⟩
  rw [hnode] at hq
  split at hq
  · next heq =>
    obtain ⟨rfl, -⟩ := List.append_singleton_inj.1 heq
    exact hkept hf
  · exact hkept (hr q last hq)

end Widens

/-! ### One folder -/

theorem spot_of_names {names : List String} (h : Path.names path = names ++ [name]) :
    d.spot path =
      if pathLimit ≤ path.utf8ByteSize then .error .tooLong
      else
        match d.walk (d.startOf path) names with
        | .error cause => .error cause
        | .ok p =>
          if d.node? p ≠ some .folder then .error .notFolder
          else if name = Path.here ∨ name = Path.above then .ok .unnamed
          else .ok (.named p name) := by
  rewrite [spot, h, List.getLast?_concat, List.dropLast_concat]
  rfl

theorem makeFolder_eq_ok_iff :
    d.makeFolder path = .ok d' ↔ hasNul path = false ∧ ∃ p name,
      d.spot path = .ok (.named p name) ∧ name.utf8ByteSize ≤ nameLimit ∧
        d.node? (p ++ [name]) = none ∧ d' = d.put (p ++ [name]) .folder := by
  rw [makeFolder, named_eq_ok_iff]
  refine and_congr_right fun _ => ?_
  constructor
  · intro h
    split at h
    · cases h
    · cases h
    · next p name hs =>
      split at h
      · cases h
      · next hl =>
        obtain ⟨hle, hn⟩ := look_eq_ok_iff.1 hl
        cases h
        exact ⟨p, name, hs, hle, hn, rfl⟩
      · cases h
  · rintro ⟨p, name, hs, hle, hn, rfl⟩
    rw [hs]
    dsimp only
    rw [look_eq_ok_iff.2 ⟨hle, hn⟩]

theorem widens_of_makeFolder (h : d.makeFolder path = .ok d') : Widens d d' := by
  obtain ⟨_, p, name, hs, _, hn, rfl⟩ := makeFolder_eq_ok_iff.1 h
  exact .put_folder (spot_eq_named_iff.1 hs).2.2.2.1 hn

theorem isFolder_of_makeFolder (h : d.makeFolder path = .ok d') : d'.isFolder path = true := by
  obtain ⟨hnul, p, name, hs, hle, hn, rfl⟩ := makeFolder_eq_ok_iff.1 h
  obtain ⟨hl, hlast, hw, hf, hh, ha⟩ := spot_eq_named_iff.1 hs
  obtain ⟨names, hnames⟩ := List.getLast?_eq_some_iff.1 hlast
  rw [hnames, List.dropLast_concat] at hw
  have hwide := Widens.put_folder hf hn
  have hnode : (d.put (p ++ [name]) .folder).node? (p ++ [name]) = some .folder := by
    rw [node?_put d (List.concat_ne_nil _ _), if_pos rfl]
  have he : path ≠ "" := by
    rintro rfl
    cases hlast
  refine isFolder_iff.2 ⟨hnul, he, hl, p ++ [name], ?_, hnode⟩
  rw [hnames, hwide.startOf]
  exact walk_concat (hwide.walk_of_ok hw) (hwide.kept hf) hh ha (look_eq_ok_iff.2 ⟨hle, hnode⟩)

theorem exists_of_makeFolder_of_isFolder (h : d.isFolder path = true) :
    ∃ cause, d.makeFolder path = .error (.system cause path) := by
  obtain ⟨hnul, -, -, q, hw, -⟩ := isFolder_iff.1 h
  cases hm : d.makeFolder path with
  | ok d' =>
    -- the way to the folder leads over the place where nothing was
    obtain ⟨_, p, name, hs, _, hn, rfl⟩ := makeFolder_eq_ok_iff.1 hm
    obtain ⟨_, hlast, hw', hf, hh, ha⟩ := spot_eq_named_iff.1 hs
    obtain ⟨names, hnames⟩ := List.getLast?_eq_some_iff.1 hlast
    rw [hnames, List.dropLast_concat] at hw'
    rw [hnames, walk_append_of_ok hw', walk_cons_of_ne hf hh ha] at hw
    split at hw
    · cases hw
    · cases hw
    · next hl =>
      rw [(look_eq_ok_iff.1 hl).2] at hn
      cases hn
  | error fault =>
    unfold makeFolder named at hm
    rw [if_neg (by simp [hnul])] at hm
    split at hm
    · cases hm
    · cases hm
      exact ⟨_, rfl⟩

theorem ensureFolder_of_isFolder (h : d.isFolder path = true) :
    d.ensureFolder path = (d, .ok ()) := by
  obtain ⟨cause, hm⟩ := exists_of_makeFolder_of_isFolder h
  simp only [ensureFolder, hm, h, if_true]

/-- **What comes of one folder**: it is there, or nothing was made. -/
theorem of_ensureFolder {result : Except DiskFault Unit}
    (h : d.ensureFolder path = (d', result)) :
    (d' = d ∨ d.makeFolder path = .ok d') ∧
      (result = .ok () ∧ d'.isFolder path = true ∨
        d' = d ∧ d.isFolder path = false ∧ ∃ fault, result = .error fault ∧
          d.makeFolder path = .error fault) := by
  cases hf : d.isFolder path with
  | true =>
    rw [ensureFolder_of_isFolder hf] at h
    obtain ⟨rfl, rfl⟩ := Prod.mk.inj h
    exact ⟨.inl rfl, .inl ⟨rfl, hf⟩⟩
  | false =>
    rw [ensureFolder] at h
    cases hm : d.makeFolder path with
    | ok made =>
      rw [hm] at h
      obtain ⟨rfl, rfl⟩ := Prod.mk.inj h
      exact ⟨.inr rfl, .inl ⟨rfl, isFolder_of_makeFolder hm⟩⟩
    | error fault =>
      have hsame : (d, Except.error fault) = (d', result) := by
        rw [hm] at h
        dsimp only at h
        split at h
        · rwa [hf, if_neg Bool.false_ne_true] at h
        · exact h
      obtain ⟨rfl, rfl⟩ := Prod.mk.inj hsame
      exact ⟨.inl rfl, .inr ⟨rfl, rfl, fault, rfl, rfl⟩⟩

end TapeMachine.Disk

import TapeMachine.Disk

/-!
# Files that grow

A file that is appended to changes a disk at one place only, and there is a file afterwards.  So the
folders are the same, ways through them lead where they led, and a file that is appended to again is
found again.  A path is read as before unless it names a file that grew, or leads by a place where
there was none.

* `Disk.Grows`: a disk on which files at some places grew.
* `Disk.stations`: the places that a way leads by; `Grows.walk`, `Grows.walk_of_ok`: ways.
* `target_eq_ok_iff`: the file that is appended to; `Grows.target`: and its place later on;
  `find_of_target`: it is found there.
* `Disk.Avoids`, `Grows.read`: paths that are read as before.
-/

namespace TapeMachine.Disk

variable {shelf : Place → Prop} {d d' d'' : Disk} {p q : Place} {path name : String}
  {bytes old : List UInt8}

/-! ### Growing -/

/-- Files at the places of the shelf grew, or were made; all else is as it was. -/
structure Grows (shelf : Place → Prop) (d d' : Disk) : Prop where
  work : d'.work = d.work
  elsewhere : ∀ p, ¬ shelf p → d'.node? p = d.node? p
  folder : ∀ p, d'.node? p = some .folder ↔ d.node? p = some .folder
  kept : ∀ p, d'.node? p = none → d.node? p = none

namespace Grows

theorem refl (shelf : Place → Prop) (d : Disk) : Grows shelf d d :=
  ⟨rfl, fun _ _ => rfl, fun _ => Iff.rfl, fun _ => id⟩

theorem trans (h : Grows shelf d d') (g : Grows shelf d' d'') : Grows shelf d d'' where
  work := g.work.trans h.work
  elsewhere p hp := (g.elsewhere p hp).trans (h.elsewhere p hp)
  folder p := (g.folder p).trans (h.folder p)
  kept p hp := h.kept p (g.kept p hp)

end Grows

/-- What is in the file at a place; nothing if there is none. -/
def content (d : Disk) (p : Place) : List UInt8 :=
  match d.node? p with
  | some (.file bytes) => bytes
  | _ => []

def grow (d : Disk) (p : Place) (bytes : List UInt8) : Disk :=
  d.put p (.file (d.content p ++ bytes))

theorem node?_grow (hp : p ≠ []) (q : Place) :
    (d.grow p bytes).node? q =
      if q = p then some (.file (d.content p ++ bytes)) else d.node? q :=
  node?_put d hp q _

theorem grows_grow (hp : p ≠ []) (hf : d.node? p ≠ some .folder) (hs : shelf p) :
    Grows shelf d (d.grow p bytes) where
  work := rfl
  elsewhere q hq := by
    have hqp : q ≠ p := fun h => hq (h ▸ hs)
    rw [node?_grow hp, if_neg hqp]
  folder q := by
    rw [node?_grow hp]
    split
    · next hq =>
      subst hq
      constructor
      · intro h
        cases h
      · intro h
        exact absurd h hf
    · exact Iff.rfl
  kept q h := by
    rw [node?_grow hp] at h
    split at h
    · exact nomatch h
    · exact h

/-! ### Ways -/

/-- The places that a way by names leads by, as far as it leads. -/
def stations (d : Disk) (p : Place) : List String → List Place
  | [] => []
  | name :: names =>
    if d.node? p ≠ some .folder then []
    else if name = Path.here then d.stations p names
    else if name = Path.above then d.stations p.dropLast names
    else (p ++ [name]) :: d.stations (p ++ [name]) names

theorem look_eq_ok_iff {node? : Option Node} :
    d.look p name = .ok node? ↔ name.utf8ByteSize ≤ nameLimit ∧ d.node? (p ++ [name]) = node? := by
  rw [look]
  by_cases h : nameLimit < name.utf8ByteSize
  · rw [if_pos h]
    constructor
    · intro hl
      cases hl
    · intro hl
      exact absurd h (Nat.not_lt.2 hl.1)
  · rw [if_neg h, Except.ok.injEq]
    exact ⟨fun he => ⟨Nat.not_lt.1 h, he⟩, And.right⟩

theorem walk_cons_of_ne {names : List String} (hf : d.node? p = some .folder)
    (hh : name ≠ Path.here) (ha : name ≠ Path.above) :
    d.walk p (name :: names) =
      match d.look p name with
      | .error cause => .error cause
      | .ok none => .error .missing
      | .ok (some _) => d.walk (p ++ [name]) names := by
  rewrite [Disk.walk, if_neg (not_not_intro hf), if_neg hh, if_neg ha]
  rfl

theorem walk_append (d : Disk) (p : Place) (names names' : List String) :
    d.walk p (names ++ names') = d.walk p names >>= fun q => d.walk q names' := by
  fun_induction Disk.walk d p names with
  | case1 p => rfl
  | case2 p name names hf => rw [List.cons_append, Disk.walk, if_pos hf]; rfl
  | case3 p names hf ih => rw [List.cons_append, Disk.walk, if_neg hf, if_pos rfl, ih]
  | case4 p names hf hh ih =>
    rw [List.cons_append, Disk.walk, if_neg hf, if_neg hh, if_pos rfl, ih]
  | case5 p name names hf hh ha cause hl =>
    rw [List.cons_append, walk_cons_of_ne (Decidable.not_not.1 hf) hh ha, hl]
    rfl
  | case6 p name names hf hh ha hl =>
    rw [List.cons_append, walk_cons_of_ne (Decidable.not_not.1 hf) hh ha, hl]
    rfl
  | case7 p name names hf hh ha node hl ih =>
    rw [List.cons_append, walk_cons_of_ne (Decidable.not_not.1 hf) hh ha, hl]
    exact ih

theorem walk_append_of_ok {names : List String} (h : d.walk p names = .ok q)
    (names' : List String) : d.walk p (names ++ names') = d.walk q names' := by
  rw [walk_append, h]
  rfl

theorem exists_of_walk {names : List String} (hw : d.walk p names = .ok q) :
    ∀ r ∈ d.stations p names, d.node? r ≠ none := by
  fun_induction Disk.walk d p names with
  | case1 p => exact fun _ hr => absurd hr List.not_mem_nil
  | case2 p name names hf => exact nomatch hw
  | case3 p names hf ih =>
    rw [stations, if_neg hf, if_pos rfl]
    exact ih hw
  | case4 p names hf hh ih =>
    rw [stations, if_neg hf, if_neg hh, if_pos rfl]
    exact ih hw
  | case5 => exact nomatch hw
  | case6 => exact nomatch hw
  | case7 p name names hf hh ha node hl ih =>
    rw [stations, if_neg hf, if_neg hh, if_neg ha]
    intro r hr
    rcases List.mem_cons.1 hr with rfl | hr
    · rw [(look_eq_ok_iff.1 hl).2]
      exact Option.some_ne_none node
    · exact ih hw r hr

/-- **A way** leads where it led, if it does not lead by a place where there was nothing and there
may be something now. -/
theorem Grows.walk (h : Grows shelf d d') (names : List String)
    (hs : ∀ q ∈ d.stations p names, shelf q → d.node? q ≠ none) :
    d'.walk p names = d.walk p names := by
  have hfolder (p : Place) : d'.node? p ≠ some .folder ↔ d.node? p ≠ some .folder :=
    not_congr (h.folder p)
  fun_induction Disk.walk d p names with
  | case1 p => rfl
  | case2 p name names hf => rw [Disk.walk, if_pos ((hfolder p).2 hf)]
  | case3 p names hf ih =>
    rw [stations, if_neg hf, if_pos rfl] at hs
    rw [Disk.walk, if_neg (mt (hfolder p).1 hf), if_pos rfl, ih hs]
  | case4 p names hf hh ih =>
    rw [stations, if_neg hf, if_neg hh, if_pos rfl] at hs
    rw [Disk.walk, if_neg (mt (hfolder p).1 hf), if_neg hh, if_pos rfl, ih hs]
  | case5 p name names hf hh ha cause hl =>
    have hl' : d'.look p name = .error cause := by
      rw [look] at hl ⊢
      split at hl
      · next hlong => rw [if_pos hlong, ← hl]
      · exact nomatch hl
    rw [Disk.walk, if_neg (mt (hfolder p).1 hf), if_neg hh, if_neg ha, hl']
  | case6 p name names hf hh ha hl =>
    -- nothing was there, so nothing grew there
    rw [stations, if_neg hf, if_neg hh, if_neg ha] at hs
    obtain ⟨hle, hn⟩ := look_eq_ok_iff.1 hl
    have hq : ¬ shelf (p ++ [name]) := fun hq => hs _ List.mem_cons_self hq hn
    have hl' : d'.look p name = .ok none :=
      look_eq_ok_iff.2 ⟨hle, (h.elsewhere _ hq).trans hn⟩
    rw [Disk.walk, if_neg (mt (hfolder p).1 hf), if_neg hh, if_neg ha, hl']
  | case7 p name names hf hh ha node hl ih =>
    rw [stations, if_neg hf, if_neg hh, if_neg ha] at hs
    obtain ⟨hle, hn⟩ := look_eq_ok_iff.1 hl
    have hn' : d'.node? (p ++ [name]) ≠ none := fun hn' => by
      rw [h.kept _ hn'] at hn
      exact nomatch hn
    obtain ⟨node', hn'⟩ := Option.ne_none_iff_exists'.1 hn'
    have hl' : d'.look p name = .ok (some node') := look_eq_ok_iff.2 ⟨hle, hn'⟩
    rw [Disk.walk, if_neg (mt (hfolder p).1 hf), if_neg hh, if_neg ha, hl']
    exact ih fun q hq => hs q (List.mem_cons_of_mem _ hq)

theorem Grows.walk_of_ok (h : Grows shelf d d') {names : List String}
    (hw : d.walk p names = .ok q) : d'.walk p names = .ok q :=
  (h.walk names fun r hr _ => exists_of_walk hw r hr).trans hw

/-! ### Files that are appended to -/

theorem named_eq_ok_iff {α : Type} {result : Except DiskCause α} {a : α} :
    named path result = .ok a ↔ hasNul path = false ∧ result = .ok a := by
  unfold named
  cases hasNul path <;> cases result <;> simp

theorem spot_eq_named_iff :
    d.spot path = .ok (.named p name) ↔
      path.utf8ByteSize < pathLimit ∧ (Path.names path).getLast? = some name ∧
        d.walk (d.startOf path) (Path.names path).dropLast = .ok p ∧
          d.node? p = some .folder ∧ name ≠ Path.here ∧ name ≠ Path.above := by
  constructor
  · intro h
    unfold spot at h
    split at h
    · cases h
    · next hl =>
      split at h
      · split at h <;> cases h
      · next last hn =>
        split at h
        · cases h
        · next folder hw =>
          split at h
          · cases h
          · next hf =>
            split at h
            · cases h
            · next hh =>
              cases h
              rw [not_or] at hh
              exact ⟨Nat.not_le.1 hl, hn, hw, Decidable.not_not.1 hf, hh⟩
  · rintro ⟨hl, hn, hw, hf, hh, ha⟩
    simp [spot, Nat.not_le.2 hl, hn, hw, hf, hh, ha]

/-- **The file that is appended to.**  Its place ends with the last name of the path, in a folder,
and there is no folder at it. -/
theorem target_eq_ok_iff :
    d.target path = .ok (p, old) ↔
      hasNul path = false ∧ Path.endsInSlash path = false ∧
        ∃ folder name, d.spot path = .ok (.named folder name) ∧
          name.utf8ByteSize ≤ nameLimit ∧ p = folder ++ [name] ∧
            d.node? p ≠ some .folder ∧ old = d.content p := by
  rw [target, named_eq_ok_iff]
  refine and_congr_right fun _ => ?_
  constructor
  · intro h
    split at h
    · cases h
    · cases h
    · next folder name hs =>
      split at h
      · cases h
      · next hslash =>
        refine ⟨by simpa using hslash, folder, name, hs, ?_⟩
        cases hl : d.look folder name with
        | error cause =>
          rw [hl] at h
          cases h
        | ok node? =>
          rw [hl] at h
          obtain ⟨hle, hn⟩ := look_eq_ok_iff.1 hl
          cases node? with
          | none =>
            cases h
            exact ⟨hle, rfl, by simp [hn], by simp [content, hn]⟩
          | some node =>
            cases node with
            | folder => cases h
            | file bytes =>
              cases h
              exact ⟨hle, rfl, by simp [hn], by simp [content, hn]⟩
  · rintro ⟨hslash, folder, name, hs, hle, rfl, hf, rfl⟩
    rw [hs]
    simp only [hslash, Bool.false_eq_true, if_false]
    cases hn : d.node? (folder ++ [name]) with
    | none => simp [look_eq_ok_iff.2 ⟨hle, hn⟩, content, hn]
    | some node =>
      cases node with
      | folder => exact absurd hn hf
      | file bytes => simp [look_eq_ok_iff.2 ⟨hle, hn⟩, content, hn]

theorem ne_nil_of_target (h : d.target path = .ok (p, old)) : p ≠ [] := by
  obtain ⟨_, _, _, _, _, _, rfl, _⟩ := target_eq_ok_iff.1 h
  exact List.concat_ne_nil _ _

theorem getLast?_of_target (h : d.target path = .ok (p, old)) :
    p.getLast? = (Path.names path).getLast? := by
  obtain ⟨_, _, _, _, hs, _, rfl, _⟩ := target_eq_ok_iff.1 h
  rw [List.getLast?_concat, (spot_eq_named_iff.1 hs).2.1]

theorem append_of_target (h : d.target path = .ok (p, old)) (bytes : List UInt8) :
    d.append path bytes = .ok (d.grow p bytes) := by
  obtain ⟨_, _, _, _, _, _, _, _, ho⟩ := target_eq_ok_iff.1 h
  rw [append, h, grow, ← ho]
  rfl

theorem grows_of_target (h : d.target path = .ok (p, old)) (hs : shelf p) (bytes : List UInt8) :
    Grows shelf d (d.grow p bytes) := by
  obtain ⟨_, _, _, _, _, _, _, hf, _⟩ := target_eq_ok_iff.1 h
  exact grows_grow (ne_nil_of_target h) hf hs

/-- **A file that can be appended to still can be**, at the same place. -/
theorem Grows.target (h : Grows shelf d d') (ht : d.target path = .ok (p, old)) :
    d'.target path = .ok (p, d'.content p) := by
  obtain ⟨hnul, hslash, folder, name, hs, hle, hp, hf, _⟩ := target_eq_ok_iff.1 ht
  obtain ⟨hl, hn, hw, hfolder, hname⟩ := spot_eq_named_iff.1 hs
  have hstart : d'.startOf path = d.startOf path := by rw [startOf, startOf, h.work]
  have hs' : d'.spot path = .ok (.named folder name) :=
    spot_eq_named_iff.2 ⟨hl, hn, hstart ▸ h.walk_of_ok hw, (h.folder folder).2 hfolder, hname⟩
  exact target_eq_ok_iff.2
    ⟨hnul, hslash, folder, name, hs', hle, hp, mt (h.folder p).1 hf, rfl⟩

/-! ### Paths that are read -/

def way (path : String) : List String :=
  if Path.endsInSlash path then Path.names path ++ [Path.here] else Path.names path

/-- The path does not name the place, and does not lead by it if there is nothing yet. -/
def Avoids (d : Disk) (path : String) (p : Place) : Prop :=
  d.find path ≠ .ok p ∧ (p ∈ d.stations (d.startOf path) (way path) → d.node? p ≠ none)

theorem find_eq (d : Disk) (path : String) :
    d.find path =
      if path = "" then .error .missing
      else if pathLimit ≤ path.utf8ByteSize then .error .tooLong
      else d.walk (d.startOf path) (way path) := rfl

/-- The path leads to the place, or a file that is made by the path is made there. -/
def Names (d : Disk) (path : String) (p : Place) : Prop :=
  d.find path = .ok p ∨ ∃ old, d.target path = .ok (p, old)

theorem walk_concat {names : List String} (hw : d.walk p names = .ok q)
    (hf : d.node? q = some .folder) (hh : name ≠ Path.here) (ha : name ≠ Path.above)
    {node : Node} (hl : d.look q name = .ok (some node)) :
    d.walk p (names ++ [name]) = .ok (q ++ [name]) := by
  rw [walk_append_of_ok hw, walk_cons_of_ne hf hh ha, hl]
  rfl

theorem find_of_target (h : d.target path = .ok (p, old)) {node : Node}
    (hn : d.node? p = some node) : d.find path = .ok p := by
  obtain ⟨_, hslash, folder, name, hs, hle, rfl, _, _⟩ := target_eq_ok_iff.1 h
  obtain ⟨hlen, hlast, hw, hf, hh, ha⟩ := spot_eq_named_iff.1 hs
  obtain ⟨names, hnames⟩ := List.getLast?_eq_some_iff.1 hlast
  rw [hnames, List.dropLast_concat] at hw
  have hway : way path = names ++ [name] := by
    rw [way, hslash, if_neg Bool.false_ne_true, hnames]
  have hempty : path ≠ "" := by
    rintro rfl
    cases hlast
  rw [find_eq, if_neg hempty, if_neg (Nat.not_le.2 hlen), hway]
  exact walk_concat hw hf hh ha (look_eq_ok_iff.2 ⟨hle, hn⟩)

/-- **A path is read as before** if it avoids the files that grew. -/
theorem Grows.read (h : Grows shelf d d') (hp : ∀ p, shelf p → d.Avoids path p) :
    d'.read path = d.read path := by
  have hstart : d'.startOf path = d.startOf path := by rw [startOf, startOf, h.work]
  have hfind : d'.find path = d.find path := by
    rw [find_eq, find_eq, hstart, h.walk (way path) fun q hq hs => (hp q hs).2 hq]
  rw [Disk.read, Disk.read, hfind]
  cases hf : d.find path with
  | error cause => rfl
  | ok p =>
    have hnode : d'.node? p = d.node? p := h.elsewhere p fun hs => (hp p hs).1 hf
    simp only [hnode]

end TapeMachine.Disk

import Mathlib.Data.List.Basic
import Mathlib.Data.List.TakeWhile
import TapeMachine.Path

/-!
# Names of paths

A path is parted at its slashes, so a text before a slash and a text after it have the names of the
whole, and slashes at the end have none.  The folder of a path has all its names but the last.

* `Path.names_append_slash`, `names_append_slashes`: names of joined texts.
* `Path.getLast?_names_join`, `exists_getLast?_names`: the last name.
* `Path.Parted`: a path with its folder and its last name; `parted_of_parent`: `parent` parts it.
-/

namespace TapeMachine.Path

open Text

variable {path head tail name : String} {cs ds : List Char}

/-! ### Names of joined texts -/

theorem names_append_slash (cs ds : List Char) :
    names (.ofList (cs ++ '/' :: ds)) = names (.ofList cs) ++ names (.ofList ds) := by
  simp only [names, String.toList_ofList, splitAt_append_sep, List.filter_append, List.map_append]

theorem names_of_notMem (hs : '/' ∉ cs) (hne : cs ≠ []) : names (.ofList cs) = [.ofList cs] := by
  simp [names, splitAt_of_notMem hs, hne]

theorem names_of_slashes (h : cs.all isSlash = true) : names (.ofList cs) = [] := by
  induction cs with
  | nil => rfl
  | cons c cs ih =>
    rw [List.all_cons, Bool.and_eq_true] at h
    obtain rfl : c = '/' := eq_of_beq h.1
    exact (names_append_slash [] cs).trans (ih h.2)

theorem names_append_slashes (cs : List Char) (h : ds.all isSlash = true) :
    names (.ofList (cs ++ ds)) = names (.ofList cs) := by
  cases ds with
  | nil => rw [List.append_nil]
  | cons d ds =>
    rw [List.all_cons, Bool.and_eq_true] at h
    obtain rfl : d = '/' := eq_of_beq h.1
    rw [names_append_slash, names_of_slashes h.2, List.append_nil]

/-! ### The last name -/

theorem getLast?_names_join (hs : '/' ∉ name.toList) (hn : name ≠ "") (folder : String) :
    (names (join folder name)).getLast? = some name := by
  have hroot : fromRoot name = false := by
    rw [fromRoot, beq_eq_false_iff_ne]
    intro h
    exact hs (List.mem_of_mem_head? h)
  have hempty : name.toList ≠ [] := mt String.toList_eq_nil_iff.1 hn
  have hname : names name = [name] := by
    rw [← String.ofList_toList (s := name), names_of_notMem hs hempty]
  have hlast (cs : List Char) :
      (names (.ofList (cs ++ '/' :: name.toList))).getLast? = some name := by
    rw [names_append_slash, String.ofList_toList, hname, List.getLast?_concat]
  unfold join
  rw [hroot]
  simp only [Bool.false_eq_true, if_false]
  split
  · next h =>
    rcases h with rfl | h
    · rw [String.empty_append, hname, List.getLast?_singleton]
    · -- the folder ends in the slash that parts it from the name
      obtain ⟨cs, hcs⟩ : ∃ cs, folder.toList = cs ++ ['/'] :=
        List.getLast?_eq_some_iff.1 (eq_of_beq h)
      rw [← String.ofList_toList (s := folder ++ name), String.toList_append, hcs,
        List.append_assoc, List.singleton_append]
      exact hlast cs
  · have hslash : "/".toList = ['/'] := rfl
    rw [← String.ofList_toList (s := folder ++ "/" ++ name), String.toList_append,
      String.toList_append, hslash, List.append_assoc, List.singleton_append]
    exact hlast folder.toList

theorem getLast?_toList_join {c : Char} (h : name.toList.getLast? = some c) (folder : String) :
    (join folder name).toList.getLast? = some c := by
  unfold join
  split
  · exact h
  · split <;> simp [List.getLast?_append, List.getLast?_cons, h]

theorem exists_getLast?_names {c : Char} (h : path.toList.getLast? = some c) (hc : c ≠ '/') :
    ∃ name, (names path).getLast? = some name ∧ name.toList.getLast? = some c := by
  obtain ⟨cs, hcs⟩ := List.getLast?_eq_some_iff.1 h
  obtain ⟨ps, p, hp⟩ := splitAt_eq_concat '/' cs
  refine ⟨.ofList (p ++ [c]), ?_, ?_⟩
  · simp [names, hcs, splitAt_append_of_ne hc hp]
  · rw [String.toList_ofList, List.getLast?_concat]

/-! ### Folders of paths -/

theorem exists_dropSlashes (cs : List Char) :
    ∃ slashes, slashes.all isSlash = true ∧ cs = dropSlashes cs ++ slashes ∧
      ((dropSlashes cs).all isSlash = true ∨ (dropSlashes cs).getLast? ≠ some '/') := by
  unfold dropSlashes
  split
  · next h => exact ⟨[], rfl, (List.append_nil cs).symm, .inl h⟩
  · refine ⟨(cs.reverse.takeWhile isSlash).reverse, ?_, ?_, .inr ?_⟩
    · rw [List.all_reverse]
      exact List.all_takeWhile
    · rw [← List.reverse_append, List.takeWhile_append_dropWhile, List.reverse_reverse]
    · rw [List.getLast?_reverse]
      intro h
      have hn := List.head?_dropWhile_not isSlash cs.reverse
      rw [h] at hn
      cases hn

/-- The folder of a path, with all its names but the last; only a path of slashes ends in one. -/
structure Parted (path head tail : String) : Prop where
  names : names path = names head ++ [tail]
  root : fromRoot head = fromRoot path
  start : head.toList <+: path.toList
  ends : Path.names head = [] ∨ endsInSlash head = false
  nonempty : head ≠ ""

theorem of_split (h : split path = (head, tail)) (hh : head ≠ "") :
    '/' ∉ tail.toList ∧ ∃ cs, path.toList = cs ++ '/' :: tail.toList ∧
      head.toList = dropSlashes (cs ++ ['/']) := by
  obtain ⟨cs, hpath⟩ : ∃ cs : List Char, path.toList = cs.reverse :=
    ⟨_, (List.reverse_reverse _).symm⟩
  obtain ⟨rfl, rfl⟩ := Prod.mk.inj h
  rw [Ne, ← String.toList_eq_nil_iff, String.toList_ofList] at hh
  rw [String.toList_ofList, String.toList_ofList, List.mem_reverse]
  rw [hpath, List.reverse_reverse] at hh ⊢
  refine ⟨fun hm => by simpa [isSlash] using List.mem_takeWhile_imp hm, ?_⟩
  have hcs : cs = cs.takeWhile (fun c => !isSlash c) ++ cs.dropWhile (fun c => !isSlash c) :=
    List.takeWhile_append_dropWhile.symm
  cases hd : cs.dropWhile (fun c => !isSlash c) with
  | nil =>
    rw [hd] at hh
    exact absurd rfl hh
  | cons c before =>
    have hc := List.head?_dropWhile_not (fun c => !isSlash c) cs
    rw [hd] at hc hcs
    obtain rfl : c = '/' := by simpa [isSlash] using hc
    refine ⟨before.reverse, ?_, by rw [List.reverse_cons]⟩
    rw [List.append_cons, ← List.reverse_cons, ← List.reverse_append, ← hcs]

theorem names_of_split (h : split path = (head, tail)) (hh : head ≠ "") :
    names path = names head ++ names tail ∧ head.toList <+: path.toList ∧
      (names head = [] ∨ endsInSlash head = false) := by
  obtain ⟨_, cs, hpath, hhead⟩ := of_split h hh
  obtain ⟨slashes, hs, hcs, hends⟩ := exists_dropSlashes (cs ++ ['/'])
  rw [← hhead] at hcs hends
  have hnames : names head = names (.ofList cs) := by
    have hslash : names (.ofList (cs ++ ['/'])) = names (.ofList cs) := names_append_slashes cs rfl
    rw [← hslash, hcs, names_append_slashes _ hs, String.ofList_toList]
  refine ⟨?_, ⟨slashes ++ tail.toList, ?_⟩, hends.imp (fun hall => ?_) fun hlast => ?_⟩
  · rw [hnames, ← String.ofList_toList (s := path), hpath, names_append_slash,
      String.ofList_toList]
  · rw [← List.append_assoc, ← hcs, hpath, List.append_assoc, List.singleton_append]
  · rw [← String.ofList_toList (s := head), names_of_slashes hall]
  · rw [endsInSlash, beq_eq_false_iff_ne]
    exact hlast

theorem fromRoot_of_isPrefix (h : head.toList <+: path.toList) (hh : head ≠ "") :
    fromRoot head = fromRoot path := by
  obtain ⟨cs, hcs⟩ := h
  rw [fromRoot, fromRoot, ← hcs, List.head?_append_of_ne_nil _ (mt String.toList_eq_nil_iff.1 hh)]

/-- **The folder of a path** with slashes at its end, or none. -/
theorem parted_of_parent (h : parent path = (head, tail)) (hh : head ≠ "") (ht : tail ≠ "") :
    Parted path head tail := by
  have htail {path : String} (h : split path = (head, tail)) : names tail = [tail] := by
    rw [← String.ofList_toList (s := tail),
      names_of_notMem (of_split h hh).1 (mt String.toList_eq_nil_iff.1 ht)]
  unfold parent at h
  split at h
  next head' tail' hs =>
  split at h
  · next hempty =>
    -- the path ends in slashes, and what is before them is split
    subst hempty
    have hhead' : head' ≠ "" := by
      rintro rfl
      exact hh (Prod.mk.inj h).1.symm
    obtain ⟨hnames', hprefix', _⟩ := names_of_split hs hhead'
    obtain ⟨hnames, hprefix, hends⟩ := names_of_split h hh
    have hstart := hprefix.trans hprefix'
    refine ⟨?_, fromRoot_of_isPrefix hstart hh, hstart, hends, hh⟩
    rw [hnames', hnames, htail h, List.append_assoc]
    exact congrArg _ (List.append_nil _)
  · obtain ⟨rfl, rfl⟩ := Prod.mk.inj h
    obtain ⟨hnames, hstart, hends⟩ := names_of_split hs hh
    exact ⟨htail hs ▸ hnames, fromRoot_of_isPrefix hstart hh, hstart, hends, hh⟩

end TapeMachine.Path

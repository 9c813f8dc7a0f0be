import Mathlib.Data.List.DropRight
import TapeMachine.Proofs.Sources

/-!
# Fields that are printed

Fields are printed in a line with commas between them, a field without text by its word.  The fields
of such a line are the fields that were printed, since none of them has a comma or is the word for
another one, and the blanks that stand behind the commas are no part of them.  Only a group drops
its last field, if that is empty.

* `Field.Plain`, `Field.Grouped`: fields that can be printed.
* `Written.grouped`: the fields of written groups are such.
* `fields_line`, `groupFields_line`: the fields of a printed line; `spells_line`: a printed group.
-/

namespace TapeMachine

open Text

namespace Text

/-! ### Texts without blanks at their ends -/

section Strip

variable {cs w : List Char} {c : Char}

theorem strip_eq_rdropWhile (cs : List Char) :
    strip cs = (cs.dropWhile isBlank).rdropWhile isBlank := rfl

theorem strip_sublist (cs : List Char) : (strip cs).Sublist cs :=
  (List.rdropWhile_prefix isBlank _).sublist.trans (List.dropWhile_sublist isBlank)

theorem dropWhile_strip (cs : List Char) : (strip cs).dropWhile isBlank = strip cs := by
  rcases h : strip cs with _ | ⟨c, rest⟩
  · rfl
  · obtain ⟨ds, hd⟩ : c :: rest <+: cs.dropWhile isBlank := h ▸ List.rdropWhile_prefix isBlank _
    have hc := List.head?_dropWhile_not isBlank cs
    rw [← hd, List.cons_append, List.head?_cons] at hc
    rw [List.dropWhile_cons_of_neg (by simpa using hc)]

@[simp]
theorem strip_strip (cs : List Char) : strip (strip cs) = strip cs := by
  rw [strip_eq_rdropWhile (strip cs), dropWhile_strip, strip_eq_rdropWhile cs,
    List.rdropWhile_idempotent]

theorem strip_cons_of_blank (hc : isBlank c = true) (cs : List Char) :
    strip (c :: cs) = strip cs := by
  rw [strip_eq_rdropWhile, List.dropWhile_cons_of_pos hc, strip_eq_rdropWhile]

theorem strip_ne_nil_of_mem (h : c ∈ cs) (hc : isBlank c = false) : strip cs ≠ [] := by
  intro hs
  have hd : c ∈ cs.dropWhile isBlank := by
    have hm := List.takeWhile_append_dropWhile (p := isBlank) (l := cs)
    rw [← hm, List.mem_append] at h
    rcases h with h | h
    · rw [List.mem_takeWhile_imp h] at hc
      exact nomatch hc
    · exact h
  rw [strip_eq_rdropWhile, List.rdropWhile_eq_nil_iff] at hs
  rw [hs c hd] at hc
  exact nomatch hc

theorem strip_of_forall (h : ∀ c ∈ cs, isBlank c = false) : strip cs = cs := by
  have hn : ∀ ds : List Char, (∀ c ∈ ds, isBlank c = false) → ds.dropWhile isBlank = ds := by
    rintro (_ | ⟨c, ds⟩) hd
    · rfl
    · exact List.dropWhile_cons_of_neg (by simp [hd c List.mem_cons_self])
  have hr : ∀ c ∈ cs.reverse, isBlank c = false := fun c hc => h c (List.mem_reverse.1 hc)
  rw [strip, stripBy, hn cs h, hn cs.reverse hr, List.reverse_reverse]

end Strip

/-! ### Pieces -/

section Pieces

variable {sep : Char} {cs : List Char}

theorem of_mem_splitAt {p : List Char} (h : p ∈ splitAt sep cs) :
    sep ∉ p ∧ ∀ c ∈ p, c ∈ cs := by
  induction cs generalizing p with
  | nil =>
    rw [List.mem_singleton.1 h]
    exact ⟨List.not_mem_nil, fun _ hc => hc⟩
  | cons d cs ih =>
    rw [splitAt] at h
    split at h
    · rcases List.mem_cons.1 h with rfl | h
      · exact ⟨List.not_mem_nil, fun _ hc => absurd hc List.not_mem_nil⟩
      · exact ⟨(ih h).1, fun c hc => List.mem_cons_of_mem d ((ih h).2 c hc)⟩
    · next hd =>
      cases hs : splitAt sep cs with
      | nil => exact absurd hs (splitAt_ne_nil sep cs)
      | cons q qs =>
        rw [hs] at h
        rcases List.mem_cons.1 h with rfl | h
        · have hq := ih (hs ▸ List.mem_cons_self)
          refine ⟨fun hm => ?_, fun c hc => ?_⟩
          · rcases List.mem_cons.1 hm with hm | hm
            · exact hd hm.symm
            · exact hq.1 hm
          · rcases List.mem_cons.1 hc with rfl | hc
            · exact List.mem_cons_self
            · exact List.mem_cons_of_mem d (hq.2 c hc)
        · have hp := ih (hs ▸ List.mem_cons_of_mem q h)
          exact ⟨hp.1, fun c hc => List.mem_cons_of_mem d (hp.2 c hc)⟩

end Pieces

end Text

/-! ### Fields that were read -/

namespace Field

variable {c : Char} {f : Field} {p : List Char}

/-- No text of the field has blanks at its ends, and none is the word for a field without text. -/
def Whole (f : Field) : Prop := ∀ s ∈ f, strip s.toList = s.toList ∧ s ≠ absent

/-- The character is not in the text of the field. -/
def Free (c : Char) (f : Field) : Prop := ∀ s ∈ f, c ∉ s.toList

/-- The field can be printed between commas. -/
structure Plain (f : Field) : Prop where
  whole : f.Whole
  free_comma : f.Free ','

structure Grouped (f : Field) : Prop extends f.Plain where
  free_close : f.Free ')'

def word (f : Field) : String := f.getD absent

theorem whole_none : Whole none := fun _ h => nomatch h

theorem free_none : Free c none := fun _ h => nomatch h

theorem whole_some {s : String} (h : strip s.toList = s.toList) (hs : s ≠ absent) :
    Whole (some s) := by
  intro t ht
  obtain rfl := Option.some.inj ht
  exact ⟨h, hs⟩

theorem free_some {s : String} (h : c ∉ s.toList) : Free c (some s) := by
  intro t ht
  obtain rfl := Option.some.inj ht
  exact h

theorem mem_ofPiece {s : String} (h : s ∈ ofPiece p) : s.toList = strip p ∧ s ≠ absent := by
  simp only [ofPiece] at h
  split at h
  · exact nomatch h
  · next hs =>
    obtain rfl := Option.some.inj h
    exact ⟨String.toList_ofList, hs⟩

theorem whole_ofPiece (p : List Char) : Whole (ofPiece p) := by
  intro s hs
  obtain ⟨ht, hne⟩ := mem_ofPiece hs
  exact ⟨by rw [ht, strip_strip], hne⟩

theorem free_ofPiece (h : c ∉ p) : Free c (ofPiece p) := by
  intro s hs hc
  rw [(mem_ofPiece hs).1] at hc
  exact h ((strip_sublist p).subset hc)

theorem ofPiece_word (h : f.Whole) : ofPiece f.word.toList = f := by
  cases f with
  | none => decide +kernel
  | some s =>
    obtain ⟨hs, hne⟩ := h s rfl
    rw [word, Option.getD_some, ofPiece, hs, String.ofList_toList]
    exact if_neg hne

theorem ofPiece_cons_of_blank (hc : isBlank c = true) (p : List Char) :
    ofPiece (c :: p) = ofPiece p := by
  rw [ofPiece, strip_cons_of_blank hc, ofPiece]

theorem notMem_word (h : f.Free c) (hc : c ∉ absent.toList) : c ∉ f.word.toList := by
  cases f with
  | none => exact hc
  | some s => exact h s rfl

theorem ofPiece_eq_empty_iff : ofPiece p = some "" ↔ strip p = [] := by
  constructor
  · intro h
    exact (mem_ofPiece h).1.symm
  · intro h
    rw [ofPiece, h]
    decide +kernel

end Field

open TapeMachine.Field

section Groups

variable {fs : List Field}

theorem mem_groupFields {body : List Char} {f : Field} (h : f ∈ groupFields body) :
    ∃ p ∈ splitAt ',' body, ofPiece p = f := by
  obtain ⟨ps, p, hp⟩ := splitAt_eq_concat ',' body
  rw [Scanner.groupFields_of_splitAt hp] at h
  rw [hp]
  split at h
  · obtain ⟨q, hq, rfl⟩ := List.mem_map.1 h
    exact ⟨q, List.mem_append_left _ hq, rfl⟩
  · exact List.mem_map.1 h

/-- **The fields of written groups** have no blanks at their ends and none of the characters that
end a field. -/
theorem Written.grouped {ts : List Token} {cs : List Char} (h : Written ts cs)
    (ht : .group fs ∈ ts) : ∀ f ∈ fs, f.Grouped := by
  induction h with
  | blank => exact absurd ht List.not_mem_nil
  | snoc _ hu _ ih =>
    rcases List.mem_append.1 ht with ht | ht
    · exact ih ht
    · obtain rfl := List.mem_singleton.1 ht
      cases hu with
      | @group body hb =>
        intro f hf
        obtain ⟨p, hp, rfl⟩ := mem_groupFields hf
        obtain ⟨hcomma, hsub⟩ := of_mem_splitAt hp
        exact ⟨⟨whole_ofPiece p, free_ofPiece hcomma⟩, free_ofPiece fun hc => hb (hsub _ hc)⟩

end Groups

/-! ### Printed lines -/

def Field.line (fs : List Field) : String := ", ".intercalate (fs.map word)

section Lines

variable {f : Field} {fs : List Field}

/-- The pieces of a printed line: all but the first have the blank that stands behind a comma. -/
theorem splitAt_line (h : ∀ g ∈ f :: fs, g.Free ',') :
    splitAt ',' (line (f :: fs)).toList =
      f.word.toList :: fs.map fun g => ' ' :: g.word.toList := by
  induction fs generalizing f with
  | nil =>
    have hf : ',' ∉ f.word.toList := notMem_word (h f List.mem_cons_self) (by decide +kernel)
    rw [line, List.map_cons, List.map_nil, String.intercalate_singleton, splitAt_of_notMem hf]
    rfl
  | cons g fs ih =>
    have hf : ',' ∉ f.word.toList := notMem_word (h f List.mem_cons_self) (by decide +kernel)
    have hg := ih fun k hk => h k (List.mem_cons_of_mem f hk)
    have hl : (line (f :: g :: fs)).toList =
        f.word.toList ++ ',' :: ' ' :: (line (g :: fs)).toList := by
      rw [line, List.map_cons, List.map_cons, String.intercalate_cons_cons, String.toList_append,
        String.toList_append, List.append_assoc]
      rfl
    rw [hl, splitAt_append_cons hf, splitAt, if_neg (by decide), hg]
    rfl

theorem map_ofPiece_splitAt_line (h : ∀ g ∈ f :: fs, g.Plain) :
    (splitAt ',' (line (f :: fs)).toList).map ofPiece = f :: fs := by
  have hfs : fs.map (ofPiece ∘ fun g => ' ' :: g.word.toList) = fs := by
    refine List.map_congr_left (g := id) (fun g hg => ?_) |>.trans (List.map_id fs)
    rw [Function.comp, ofPiece_cons_of_blank (by decide)]
    exact ofPiece_word (h g (List.mem_cons_of_mem f hg)).whole
  rw [splitAt_line fun g hg => (h g hg).free_comma, List.map_cons, List.map_map, hfs,
    ofPiece_word (h f List.mem_cons_self).whole]

/-- **A printed line has the fields that were printed.** -/
theorem fields_line (hne : fs ≠ []) (h : ∀ f ∈ fs, f.Plain) :
    fields (line fs).toList = fs := by
  obtain ⟨f, fs, rfl⟩ := List.exists_cons_of_ne_nil hne
  exact map_ofPiece_splitAt_line h

theorem strip_line_eq_nil_iff (h : ∀ f ∈ fs, f.Plain) :
    strip (line fs).toList = [] ↔ fs = [] ∨ fs = [some ""] := by
  rcases fs with _ | ⟨f, _ | ⟨g, fs⟩⟩
  · exact iff_of_true rfl (Or.inl rfl)
  · have hf : f.Plain := h f List.mem_cons_self
    rw [line, List.map_singleton, String.intercalate_singleton, ← ofPiece_eq_empty_iff,
      ofPiece_word hf.whole]
    simp
  · have hcomma : ',' ∈ (line (f :: g :: fs)).toList := by
      rw [line, List.map_cons, List.map_cons, String.intercalate_cons_cons]
      simp
    exact iff_of_false (strip_ne_nil_of_mem hcomma (by decide)) (by simp)

/-- **A printed group** has the fields that were printed, but for an empty one at its end. -/
theorem groupFields_line (h : ∀ g ∈ fs ++ [f], g.Plain) :
    groupFields (line (fs ++ [f])).toList = if f = some "" then fs else fs ++ [f] := by
  obtain ⟨ps, p, hp⟩ := splitAt_eq_concat ',' (line (fs ++ [f])).toList
  have hm : (ps ++ [p]).map ofPiece = fs ++ [f] := by
    rw [← hp]
    exact fields_line (by simp) h
  rw [List.map_append, List.map_singleton] at hm
  obtain ⟨hps, hf⟩ := List.append_singleton_inj.1 hm
  have hlast : (strip p).isEmpty = true ↔ f = some "" := by
    rw [List.isEmpty_iff, ← hf, ofPiece_eq_empty_iff]
  rw [Scanner.groupFields_of_splitAt hp, List.map_append, List.map_singleton, hps, hf]
  exact if_congr hlast rfl rfl

theorem close_notMem_line (h : ∀ f ∈ fs, f.Grouped) :
    ')' ∉ (line fs).toList := by
  induction fs with
  | nil => exact List.not_mem_nil
  | cons f fs ih =>
    obtain ⟨hf, hfs⟩ := List.forall_mem_cons.1 h
    have hword : ')' ∉ f.word.toList := notMem_word hf.free_close (by decide +kernel)
    cases fs with
    | nil =>
      rw [line, List.map_singleton, String.intercalate_singleton]
      exact hword
    | cons g fs =>
      rw [line, List.map_cons, List.map_cons, String.intercalate_cons_cons, ← List.map_cons]
      simp only [String.toList_append, List.mem_append, not_or]
      exact ⟨⟨hword, by decide +kernel⟩, ih hfs⟩

theorem spells_line (h : ∀ g ∈ fs ++ [f], g.Grouped) :
    Spells (.group (if f = some "" then fs else fs ++ [f]))
      ('(' :: ((line (fs ++ [f])).toList ++ [')'])) := by
  rw [← groupFields_line fun g hg => (h g hg).toPlain]
  exact .group (close_notMem_line h)

end Lines

end TapeMachine

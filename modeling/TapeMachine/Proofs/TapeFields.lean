import TapeMachine.Proofs.ClauseFaults
import TapeMachine.Proofs.PrintedFields

/-!
# Fields of tapes and of groups

The text of a tape is split at its commas, and so is the body of a group, but the one is split as a
whole and the other while it is scanned.  They come to the same fields, with one difference: nothing
but blanks behind the last comma is an empty field of a tape and no field of a group.  A text of
nothing but blanks has no fields at all, in either place.

* `lastPart`: what stands behind the last comma; `lastPart_of_splitAt`.
* `scan_parenthesised`: a text between parentheses is one group.
* `tapeFields`: the fields that a tape has, by those of the group; `tapeFields_groupFields`.
* `ofText_eq_mapM_tapeFields`: a tape is read field by field.
* `tape_reads_group_fields`: the tape of a text and its group.
-/

namespace TapeMachine

open Text

/-! ### The part behind the last comma -/

-- written out, as there is another instance that tries all characters
instance (w : List Char) : Decidable (IsBlankText w) :=
  List.decidableBAll (fun c => isBlank c = true) w

theorem strip_eq_nil_iff {cs : List Char} : strip cs = [] ↔ IsBlankText cs := by
  constructor
  · intro h c hc
    by_contra hb
    exact strip_ne_nil_of_mem hc (Bool.eq_false_iff.2 hb) h
  · intro h
    rw [strip_eq_rdropWhile, List.dropWhile_eq_nil_iff.2 h]
    rfl

/-- What stands behind the last comma; the whole text if it has none. -/
def lastPart (cs : List Char) : List Char := cs.rtakeWhile (· ≠ ',')

theorem lastPart_concat_comma (cs : List Char) : lastPart (cs ++ [',']) = [] :=
  List.rtakeWhile_concat_neg _ _ _ (by decide)

theorem lastPart_concat_of_ne {c : Char} (h : c ≠ ',') (cs : List Char) :
    lastPart (cs ++ [c]) = lastPart cs ++ [c] :=
  List.rtakeWhile_concat_pos _ _ _ (by simpa using h)

theorem lastPart_of_splitAt {cs : List Char} {ps : List (List Char)} {p : List Char}
    (h : splitAt ',' cs = ps ++ [p]) : lastPart cs = p := by
  induction cs using List.reverseRecOn generalizing ps p with
  | nil =>
    obtain ⟨rfl, rfl⟩ := List.append_singleton_inj.1 (show [] ++ [[]] = ps ++ [p] from h)
    rfl
  | append_singleton cs c ih =>
    obtain ⟨qs, q, hq⟩ := splitAt_eq_concat ',' cs
    by_cases hc : c = ','
    · subst hc
      rw [splitAt_append_self] at h
      obtain ⟨_, rfl⟩ := List.append_singleton_inj.1 h
      exact lastPart_concat_comma cs
    · rw [splitAt_append_of_ne hc hq] at h
      obtain ⟨_, rfl⟩ := List.append_singleton_inj.1 h
      rw [lastPart_concat_of_ne hc, ih hq]

/-! ### Fields -/

/-- **A text between parentheses** is one group, if it has no parenthesis that closes it before. -/
theorem scan_parenthesised {text : String} (h : ')' ∉ text.toList) :
    Token.scan ("(" ++ text ++ ")").toList = .ok [.group (groupFields text.toList)] := by
  have ht : ("(" ++ text ++ ")").toList = [] ++ ('(' :: (text.toList ++ [')'])) ++ [] := by
    rw [String.toList_append, String.toList_append, List.append_nil]
    rfl
  rw [ht]
  exact scan_of_written (.snoc (.blank isBlankText_nil) (.group h) isBlankText_nil)

/-- The fields that a tape has, by those of the group of its text: one more empty one stands behind
a comma at the end. -/
def tapeFields (text : String) (fs : List Field) : List Field :=
  if IsBlankText text.toList ∨ ¬ IsBlankText (lastPart text.toList) then fs else fs ++ [some ""]

/-- **The two ways of splitting** come to the same, but for an empty field at the end. -/
theorem tapeFields_groupFields (text : String) :
    tapeFields text (groupFields text.toList) =
      if (strip text.toList).isEmpty then [] else fields text.toList := by
  have hempty (cs : List Char) : (strip cs).isEmpty = true ↔ IsBlankText cs := by
    rw [List.isEmpty_iff, strip_eq_nil_iff]
  obtain ⟨ps, p, hp⟩ := splitAt_eq_concat ',' text.toList
  have hfields : fields text.toList = (ps ++ [p]).map Field.ofPiece := by
    rw [fields, pieces, hp]
  rw [tapeFields, lastPart_of_splitAt hp, Scanner.groupFields_of_splitAt hp, hfields]
  simp only [hempty]
  by_cases hblank : IsBlankText text.toList
  · -- there is no comma, so the blanks are the only piece
    have hcomma : ',' ∉ text.toList := fun hc => absurd (hblank _ hc) (by decide)
    rw [splitAt_of_notMem hcomma] at hp
    obtain ⟨rfl, rfl⟩ := List.append_singleton_inj.1 (show [] ++ [text.toList] = ps ++ [p] from hp)
    rw [if_pos (Or.inl hblank), if_pos hblank, if_pos hblank]
    rfl
  · rw [if_neg hblank]
    by_cases hlast : IsBlankText p
    · have hfield : Field.ofPiece p = some "" :=
        Field.ofPiece_eq_empty_iff.2 (strip_eq_nil_iff.2 hlast)
      rw [if_neg (not_or.2 ⟨hblank, not_not_intro hlast⟩), if_pos hlast, List.map_append,
        List.map_singleton, hfield]
    · rw [if_pos (Or.inr hlast), if_neg hlast]

/-! ### Tapes -/

section Tapes

variable {read : SymbolReader} {text : String}

theorem ofText_eq_mapM_tapeFields (read : SymbolReader) (text : String) :
    Tape.ofText read text =
      ((tapeFields text (groupFields text.toList)).mapM (symbolField read)).map Tape.ofList := by
  rw [Tape.ofText, tapeFields_groupFields]
  by_cases h : (strip text.toList).isEmpty = true
  · rw [if_pos h, if_pos h]
    rfl
  · rw [if_neg h, if_neg h]

theorem ofText_eq_ok_iff {t : Tape} :
    Tape.ofText read text = .ok t ↔ ∃ cells,
      List.Forall₂ (IsSymbol read) (tapeFields text (groupFields text.toList)) cells ∧
        Tape.ofList cells = t := by
  rw [ofText_eq_mapM_tapeFields, map_eq_ok_iff]
  simp only [mapM_eq_ok_iff, symbolField_eq_ok_iff]

/-- Every field without text is read, so the first that is not read has a text. -/
theorem ofText_eq_error_iff {fault : SourceFault} :
    Tape.ofText read text = .error fault ↔ ∃ before s behind,
      tapeFields text (groupFields text.toList) = before ++ some s :: behind ∧
        (∀ u, some u ∈ before → ∃ a, read u = .ok a) ∧ (∀ a, read s ≠ .ok a) ∧
        fault = .field s .symbol := by
  have hread (before : List Field) : (∀ f ∈ before, ∃ a, symbolField read f = .ok a) ↔
      ∀ u, some u ∈ before → ∃ a, read u = .ok a := by
    simp only [symbolField_eq_ok_iff]
    constructor
    · intro h u hu
      obtain ⟨a, ha⟩ := h _ hu
      cases ha with
      | text ha => exact ⟨a, ha⟩
    · rintro h (_ | u) hf
      · exact ⟨.blank, .blank⟩
      · obtain ⟨a, ha⟩ := h u hf
        exact ⟨a, .text ha⟩
  rw [ofText_eq_mapM_tapeFields, map_eq_error_iff, mapM_eq_error_iff]
  simp only [hread, symbolField_eq_error_iff]
  constructor
  · rintro ⟨before, f, behind, hfs, hbefore, hf⟩
    cases hf with
    | @text s hs => exact ⟨before, s, behind, hfs, hbefore, hs, rfl⟩
  · rintro ⟨before, s, behind, hfs, hbefore, hs, rfl⟩
    exact ⟨before, some s, behind, hfs, hbefore, .text hs⟩

theorem exists_ofText_iff :
    (∃ t, Tape.ofText read text = .ok t) ↔
      ∀ s, some s ∈ tapeFields text (groupFields text.toList) → ∃ a, read s = .ok a := by
  constructor
  · rintro ⟨t, ht⟩ s hs
    obtain ⟨cells, hcells, _⟩ := ofText_eq_ok_iff.1 ht
    have hall : ∀ f ∈ tapeFields text (groupFields text.toList), NamesSymbol read f :=
      ((List.forall₂_and_left _ _).1 (hcells.imp fun f a ha => ⟨⟨a, ha⟩, ha⟩)).1
    obtain ⟨a, ha⟩ := hall _ hs
    cases ha with
    | text ha => exact ⟨a, ha⟩
  · intro h
    cases ht : Tape.ofText read text with
    | ok t => exact ⟨t, rfl⟩
    | error fault =>
      obtain ⟨before, s, behind, hfs, _, hs, _⟩ := ofText_eq_error_iff.1 ht
      obtain ⟨a, ha⟩ := h s (hfs ▸ List.mem_append_right before List.mem_cons_self)
      exact absurd ha (hs a)

/-- **A tape is split as a group is.**  The cells of the tape of a text are the fields of the text
between parentheses, and an empty one more if nothing but blanks stands behind the last comma of a
text that is no blank.  A kind of symbols takes a text if it takes all of these fields, and it
complains of the first one that it does not take. -/
theorem tape_reads_group_fields (text : String) (h : ')' ∉ text.toList) :
    ∃ fs, Token.scan ("(" ++ text ++ ")").toList = .ok [.group fs] ∧
      (∃ t, (KindSpec.named (.str "str")).tapeOfText text = .ok t ∧ t.head = 0 ∧
        t.contents = (tapeFields text fs).map fun f => f.elim .blank .text) ∧
      ∀ read : SymbolReader,
        ((∃ t, Tape.ofText read text = .ok t) ↔
          ∀ s, some s ∈ tapeFields text fs → ∃ a, read s = .ok a) ∧
        (∀ t, Tape.ofText read text = .ok t →
          t = .ofList t.contents ∧ List.Forall₂ (IsSymbol read) (tapeFields text fs) t.contents) ∧
        (∀ fault, Tape.ofText read text = .error fault ↔ ∃ before s behind,
          tapeFields text fs = before ++ some s :: behind ∧
            (∀ u, some u ∈ before → ∃ a, read u = .ok a) ∧ (∀ a, read s ≠ .ok a) ∧
            fault = .field s .symbol) ∧
        ∀ spec : KindSpec, spec.resolve = .ok read →
          spec.tapeOfText text = inSource (Tape.ofText read text) := by
  refine ⟨_, scan_parenthesised h, ?_, fun read => ⟨exists_ofText_iff, fun t ht => ?_,
    fun fault => ofText_eq_error_iff, fun spec hs => ?_⟩⟩
  · have hcells : Tape.ofText SymbolKind.text.read text = .ok (.ofList
        ((tapeFields text (groupFields text.toList)).map fun f => f.elim .blank .text)) := by
      refine ofText_eq_ok_iff.2 ⟨_, List.forall₂_map_right_iff.2 (List.forall₂_same.2 ?_), rfl⟩
      rintro (_ | s) _
      · exact .blank
      · exact .text rfl
    have hkind : (KindSpec.named (.str "str")).resolve = .ok SymbolKind.text.read := rfl
    exact ⟨_, (KindSpec.tapeOfText_of_resolve hkind text).trans (inSource_eq_ok_iff.2 hcells),
      rfl, rfl⟩
  · obtain ⟨cells, hcells, rfl⟩ := ofText_eq_ok_iff.1 ht
    exact ⟨rfl, hcells⟩
  · exact KindSpec.tapeOfText_of_resolve hs text

/-- A comma at the end, behind a field without text and an empty one. -/
theorem tape_reads_group_fields_open_end :
    ')' ∉ " 1, None,, x , \t".toList ∧
    Token.scan "( 1, None,, x , \t)".toList = .ok [.group [some "1", none, some "", some "x"]] ∧
    (∃ t, (KindSpec.named (.str "str")).tapeOfText " 1, None,, x , \t" = .ok t ∧
      t.contents = [.text "1", .blank, .text "", .text "x", .text ""]) ∧
    Tape.ofText SymbolKind.number.read " 1, None,, x , \t" = .error (.field "" .symbol) := by
  have h : ')' ∉ " 1, None,, x , \t".toList := by decide
  obtain ⟨fs, hscan, ⟨t, ht, _, hcontents⟩, hread⟩ := tape_reads_group_fields _ h
  have hgroup : Token.scan "( 1, None,, x , \t)".toList =
      .ok [.group [some "1", none, some "", some "x"]] := by
    decide
  obtain rfl : fs = [some "1", none, some "", some "x"] := by
    have hsame := hscan.symm.trans hgroup
    simpa using hsame
  have hfields : tapeFields " 1, None,, x , \t" [some "1", none, some "", some "x"] =
      [some "1", none, some "", some "x", some ""] := by
    decide
  rw [hfields] at hcontents hread
  refine ⟨h, hgroup, ⟨t, ht, hcontents⟩, ((hread SymbolKind.number.read).2.2.1 _).2 ?_⟩
  have hone : SymbolKind.number.read "1" = .ok (.number 1) := by decide
  have hempty : (SymbolKind.number.read "").toOption = none := by decide
  refine ⟨[some "1", none], "", [some "x", some ""], rfl, fun u hu => ?_, fun a ha => ?_, rfl⟩
  · obtain rfl : u = "1" := by simpa using hu
    exact ⟨_, hone⟩
  · rw [ha] at hempty
    cases hempty

end Tapes

end TapeMachine

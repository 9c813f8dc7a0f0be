import TapeMachine.Proofs.JsonValues
import TapeMachine.Text.Newline
import TapeMachine.Text.Utf8

/-!
# Texts of written values

A value without fractions is written in printable ASCII characters, and in one line unless it is
indented.  So its text comes back from the bytes of a file, whole or line by line.

* `Text.decodeUtf8_encodeUtf8`: ASCII texts.
* `Text.splitAt_join_lines`: texts of lines.
* `Text.IsPlain`, `Json.isPlain_render`, `Json.isPlain_renderAt`: the characters of values.
-/

namespace TapeMachine

namespace Text

/-! ### ASCII -/

theorem decodeFrom_cons {b : UInt8} (h : b < 0x80) (position : Nat) (bytes : List UInt8) :
    decodeFrom position (b :: bytes) =
      (decodeFrom (position + 1) bytes).map (Char.ofNat b.toNat :: ·) := by
  have hf : followers? b = some (0, 0x80, 0xBF) := if_pos h
  have hl : leadBits b = b.toNat := if_pos h
  rw [decodeFrom]
  split
  · next hnone => rw [hf] at hnone; cases hnone
  · next count low high hsome =>
    obtain ⟨rfl, -⟩ := Prod.mk.inj (Option.some.inj (hf.symm.trans hsome))
    split
    · next herror => rw [continued] at herror; cases herror
    · next value rest hok =>
      rw [continued, hl] at hok
      obtain ⟨rfl, rfl⟩ := Prod.mk.inj (Except.ok.inj hok)
      rfl

theorem utf8EncodeChar_of_lt {c : Char} (h : c.toNat < 0x80) :
    String.utf8EncodeChar c = [UInt8.ofNat c.toNat] := if_pos (Nat.le_of_lt_succ h)

theorem decodeFrom_flatMap {cs : List Char} (h : ∀ c ∈ cs, c.toNat < 0x80) (position : Nat) :
    decodeFrom position (cs.flatMap String.utf8EncodeChar) = .ok cs := by
  induction cs generalizing position with
  | nil => rw [List.flatMap_nil, decodeFrom]
  | cons c cs ih =>
    rw [List.forall_mem_cons] at h
    have hn : (UInt8.ofNat c.toNat).toNat = c.toNat :=
      UInt8.toNat_ofNat_of_lt' (h.1.trans (by decide))
    have hlt : UInt8.ofNat c.toNat < 0x80 := by
      rw [UInt8.lt_iff_toNat_lt, hn]
      exact h.1
    rw [List.flatMap_cons, utf8EncodeChar_of_lt h.1, List.singleton_append, decodeFrom_cons hlt,
      ih h.2, hn, Char.ofNat_toNat]
    rfl

/-- **ASCII texts** come back from their bytes. -/
theorem decodeUtf8_encodeUtf8 {s : String} (h : ∀ c ∈ s.toList, c.toNat < 0x80) :
    decodeUtf8 (encodeUtf8 s) = .ok s := by
  rw [decodeUtf8, encodeUtf8, decodeFrom_flatMap h]
  exact congrArg Except.ok (String.ofList_toList)

/-! ### Plain characters -/

theorem forall_mem_of_all {p : Char → Prop} [DecidablePred p] {cs : List Char}
    (h : (cs.all fun c => decide (p c)) = true) : ∀ c ∈ cs, p c :=
  fun c hc => of_decide_eq_true (List.all_eq_true.1 h c hc)

def IsPlain (c : Char) : Prop := 0x20 ≤ c.toNat ∧ c.toNat < 0x7F

instance (c : Char) : Decidable (IsPlain c) := inferInstanceAs (Decidable (_ ∧ _))

theorem isPlain_hexDigit : ∀ n < 16, IsPlain (hexDigit n) := by decide

theorem isPlain_hexDigits (count n : Nat) : ∀ c ∈ hexDigits count n, IsPlain c := by
  induction count generalizing n with
  | zero => exact List.forall_mem_nil _
  | succ count ih =>
    rw [hexDigits, List.forall_mem_append, List.forall_mem_singleton]
    exact ⟨ih (n / 16), isPlain_hexDigit _ (Nat.mod_lt n (by decide))⟩

theorem IsPlain.of_isDigit {c : Char} (h : c.isDigit = true) : IsPlain c := by
  rw [Char.isDigit, Bool.and_eq_true, decide_eq_true_eq, decide_eq_true_eq] at h
  exact ⟨le_trans (by decide) h.1, lt_of_le_of_lt h.2 (by decide)⟩

end Text

/-! ### Pieces and lines -/

theorem forall_mem_intercalate {α : Type} {p : α → Prop} {sep : List α} {pieces : List (List α)}
    (hs : ∀ a ∈ sep, p a) (hp : ∀ piece ∈ pieces, ∀ a ∈ piece, p a) :
    ∀ a ∈ sep.intercalate pieces, p a := by
  induction pieces with
  | nil => exact List.forall_mem_nil p
  | cons piece pieces ih =>
    rw [List.forall_mem_cons] at hp
    cases pieces with
    | nil =>
      rw [List.intercalate_singleton]
      exact hp.1
    | cons next pieces =>
      rw [List.intercalate_cons_cons, List.forall_mem_append, List.forall_mem_append]
      exact ⟨⟨hp.1, hs⟩, ih hp.2⟩

/-- **Lines that have no line end in them** come back from their text. -/
theorem Text.splitAt_join_lines {texts : List String} (h : ∀ s ∈ texts, '\n' ∉ s.toList) :
    splitAt '\n' (String.join (texts.map fun s => s ++ "\n")).toList =
      texts.map String.toList ++ [[]] := by
  induction texts with
  | nil => rfl
  | cons s texts ih =>
    rw [List.forall_mem_cons] at h
    have hend : "\n".toList = ['\n'] := rfl
    rw [List.map_cons, String.join_cons, String.toList_append, String.toList_append, hend,
      List.append_assoc, List.singleton_append, splitAt_append_cons h.1, ih h.2, List.map_cons,
      List.cons_append]

namespace Json

open Text

/-! ### Characters of values -/

theorem isPlain_unitEscape (unit : Nat) : ∀ c ∈ unitEscape unit, IsPlain c :=
  List.forall_mem_cons.2 ⟨by decide, List.forall_mem_cons.2 ⟨by decide, isPlain_hexDigits 4 unit⟩⟩

theorem isPlain_escapeChar (c : Char) : ∀ d ∈ escapeChar c, IsPlain d := by
  unfold escapeChar
  split
  · next h => rcases h with rfl | rfl <;> exact forall_mem_of_all rfl
  split
  · exact forall_mem_of_all rfl
  split
  · exact forall_mem_of_all rfl
  split
  · exact forall_mem_of_all rfl
  split
  · exact forall_mem_of_all rfl
  split
  · exact forall_mem_of_all rfl
  split
  · next h => exact List.forall_mem_singleton.2 h
  · intro d hd
    obtain ⟨unit, _, hd⟩ := List.mem_flatMap.1 hd
    exact isPlain_unitEscape unit d hd

theorem isPlain_renderString (s : String) : ∀ c ∈ (renderString s).toList, IsPlain c := by
  rw [toList_renderString, List.forall_mem_cons, List.forall_mem_append]
  refine ⟨by decide, fun d hd => ?_, forall_mem_of_all rfl⟩
  obtain ⟨c, _, hd⟩ := List.mem_flatMap.1 hd
  exact isPlain_escapeChar c d hd

theorem isPlain_toString (n : Int) : ∀ c ∈ (toString n).toList, IsPlain c := by
  have hdigits : ∀ c ∈ Nat.toDigits 10 n.natAbs, IsPlain c := fun c hc =>
    .of_isDigit (Nat.isDigit_of_mem_toDigits (by decide) (by decide) hc)
  rw [toList_toString]
  split
  · exact hdigits
  · exact List.forall_mem_cons.2 ⟨by decide, hdigits⟩

theorem forall_mem_member {p : Char → Prop} (hp : ∀ c, IsPlain c → p c) (key : String)
    {text : String} (h : ∀ c ∈ text.toList, p c) :
    ∀ c ∈ (renderString key ++ ": " ++ text).toList, p c := by
  rw [String.toList_append, String.toList_append, List.forall_mem_append, List.forall_mem_append]
  have hcolon : ∀ c ∈ ": ".toList, IsPlain c := forall_mem_of_all rfl
  exact ⟨⟨fun c hc => hp c (isPlain_renderString key c hc), fun c hc => hp c (hcolon c hc)⟩, h⟩

/-- **One line.**  The characters of a value in one line are plain. -/
theorem isPlain_render {j : Json} (hw : j.Whole) : ∀ c ∈ j.render.toList, IsPlain c := by
  induction hw with
  | null => exact forall_mem_of_all rfl
  | bool b => cases b <;> exact forall_mem_of_all rfl
  | int n => exact isPlain_toString n
  | str s => exact isPlain_renderString s
  | arr items_whole ih =>
    rw [render, String.toList_append, String.toList_append, String.toList_intercalate,
      List.forall_mem_append, List.forall_mem_append, renderItems_eq_map, List.map_map]
    exact ⟨⟨forall_mem_of_all rfl, forall_mem_intercalate (forall_mem_of_all rfl)
      (List.forall_mem_map.2 ih)⟩, forall_mem_of_all rfl⟩
  | obj members_whole ih =>
    rw [render, String.toList_append, String.toList_append, String.toList_intercalate,
      List.forall_mem_append, List.forall_mem_append, renderMembers_eq_map, List.map_map]
    exact ⟨⟨forall_mem_of_all rfl, forall_mem_intercalate (forall_mem_of_all rfl)
      (List.forall_mem_map.2 fun m hm => forall_mem_member (fun _ hc => hc) m.1 (ih m hm))⟩,
      forall_mem_of_all rfl⟩

/-! ### Characters of indented values -/

def InLines (c : Char) : Prop := IsPlain c ∨ c = '\n'

instance (c : Char) : Decidable (InLines c) := inferInstanceAs (Decidable (_ ∨ _))

theorem InLines.lt {c : Char} (h : InLines c) : c.toNat < 0x80 := by
  rcases h with h | rfl
  · exact h.2.trans (by decide)
  · decide

theorem inLines_lineAt (level : Nat) : ∀ c ∈ (lineAt level).toList, InLines c := by
  rw [toList_lineAt, List.forall_mem_cons]
  refine ⟨by decide, fun c hc => ?_⟩
  rw [List.eq_of_mem_replicate hc]
  decide

theorem inLines_block (level : Nat) {opening closing : String} {items : List String}
    (ho : ∀ c ∈ opening.toList, InLines c) (hc : ∀ c ∈ closing.toList, InLines c)
    (hi : ∀ item ∈ items, ∀ c ∈ item.toList, InLines c) :
    ∀ c ∈ (block level opening closing items).toList, InLines c := by
  by_cases hne : items = []
  · subst hne
    rw [toList_block_nil, List.forall_mem_append]
    exact ⟨ho, hc⟩
  · rw [toList_block level opening closing hne]
    simp only [List.forall_mem_append]
    refine ⟨ho, inLines_lineAt _, forall_mem_intercalate ?_ (List.forall_mem_map.2 hi),
      inLines_lineAt _, hc⟩
    exact List.forall_mem_cons.2 ⟨by decide, inLines_lineAt _⟩

/-- **Indented lines.**  The characters of an indented value are plain or line ends. -/
theorem inLines_renderAt {j : Json} (hw : j.Whole) (level : Nat) :
    ∀ c ∈ (j.renderAt level).toList, InLines c := by
  have hplain {k : Json} (hk : k.Whole) : ∀ c ∈ k.render.toList, InLines c :=
    fun c hc => .inl (isPlain_render hk c hc)
  induction hw generalizing level with
  | null => exact hplain .null
  | bool b => exact hplain (.bool b)
  | int n => exact hplain (.int n)
  | str s => exact hplain (.str s)
  | arr items_whole ih =>
    rw [renderAt, renderItemsAt_eq_map]
    exact inLines_block level (forall_mem_of_all rfl) (forall_mem_of_all rfl)
      (List.forall_mem_map.2 fun item hi => ih item hi (level + 1))
  | obj members_whole ih =>
    rw [renderAt, renderMembersAt_eq_map]
    exact inLines_block level (forall_mem_of_all rfl) (forall_mem_of_all rfl)
      (List.forall_mem_map.2 fun m hm =>
        forall_mem_member (fun _ hc => .inl hc) m.1 (ih m hm (level + 1)))

end Json

end TapeMachine

import TapeMachine.Proofs.JsonWords

/-!
# Values of JSON that are read back

A value that is written is read as the same value, in one line as well as in indented lines: the
white space between the tokens makes no difference.  The value must be within the limits of the
reader and have no fractions, and no object may have a name twice.

* `Json.Fits`: values within limits; `Json.Whole`: values without fractions.
* `Json.Spells`: a text that is read as a value, whatever follows it; `spells_arr`, `spells_obj`.
* `spells_render`, `spells_renderAt`: the two ways to write a value.
* `readLimited_render`, `readLimited_renderIndented`: whole texts.
-/

namespace TapeMachine.Json

open Text

variable {limit room : Nat}

/-! ### Values within limits -/

/-- The integers of the value have at most `limit` digits, its brackets are at most `room` deep, and
no object has a name twice. -/
inductive Fits (limit : Nat) : Nat → Json → Prop
  | null {room : Nat} : Fits limit room .null
  | bool {room : Nat} (b : Bool) : Fits limit room (.bool b)
  | int {room : Nat} {n : Int} (digits : (Nat.toDigits 10 n.natAbs).length ≤ limit) :
      Fits limit room (.int n)
  | real {room : Nat} (x : Binary64) : Fits limit room (.real x)
  | str {room : Nat} (s : String) : Fits limit room (.str s)
  | arr {room : Nat} {items : List Json} (items_fit : ∀ item ∈ items, Fits limit room item) :
      Fits limit (room + 1) (.arr items)
  | obj {room : Nat} {members : List (String × Json)} (names : (members.map Prod.fst).Nodup)
      (members_fit : ∀ m ∈ members, Fits limit room m.2) : Fits limit (room + 1) (.obj members)

/-- No number of the value has a fraction or an exponent. -/
inductive Whole : Json → Prop
  | null : Whole .null
  | bool (b : Bool) : Whole (.bool b)
  | int (n : Int) : Whole (.int n)
  | str (s : String) : Whole (.str s)
  | arr {items : List Json} (items_whole : ∀ item ∈ items, Whole item) : Whole (.arr items)
  | obj {members : List (String × Json)} (members_whole : ∀ m ∈ members, Whole m.2) :
      Whole (.obj members)

theorem Whole.of_mem_items {items : List Json} (h : Whole (.arr items)) {item : Json}
    (hi : item ∈ items) : item.Whole := by
  cases h with
  | arr items_whole => exact items_whole item hi

theorem Whole.of_mem_members {members : List (String × Json)} (h : Whole (.obj members))
    {m : String × Json} (hm : m ∈ members) : m.2.Whole := by
  cases h with
  | obj members_whole => exact members_whole m hm

/-! ### Members of an object -/

theorem putBy_of_notMem {key : String} {value : Json} {members : List (String × Json)}
    (h : key ∉ members.map Prod.fst) :
    Pairs.put key value members = members ++ [(key, value)] := by
  induction members with
  | nil => rfl
  | cons m members ih =>
    rw [List.map_cons, List.mem_cons, not_or] at h
    have hne : ¬ (m.1 == key) = true := by simpa using Ne.symm h.1
    have hput := ih h.2
    rw [Pairs.put] at hput ⊢
    rw [Pairs.putBy, if_neg hne, hput, List.cons_append]

theorem foldl_put_of_nodup {done members : List (String × Json)}
    (h : ((done ++ members).map Prod.fst).Nodup) :
    members.foldl (fun acc m => Pairs.put m.1 m.2 acc) done = done ++ members := by
  induction members generalizing done with
  | nil => rw [List.foldl_nil, List.append_nil]
  | cons m members ih =>
    have hm : m.1 ∉ done.map Prod.fst := by
      intro hm
      rw [List.map_append, List.map_cons] at h
      exact (List.nodup_append.1 h).2.2 m.1 hm m.1 List.mem_cons_self rfl
    rw [List.append_cons] at h
    rw [List.foldl_cons, putBy_of_notMem hm, ih h, List.append_assoc, List.singleton_append]

theorem ofMembers_of_nodup {members : List (String × Json)}
    (h : (members.map Prod.fst).Nodup) : ofMembers members = .obj members := by
  have hnil : (([] ++ members).map Prod.fst).Nodup := h
  exact congrArg Json.obj (foldl_put_of_nodup hnil)

/-! ### White space -/

theorem skipSpace_append {w : List Char} (hw : ∀ c ∈ w, isSpace c = true) {c : Char}
    (hc : isSpace c = false) (rest : List Char) : skipSpace (w ++ c :: rest) = c :: rest := by
  rw [skipSpace, List.dropWhile_append_of_pos hw, List.dropWhile_cons_of_neg (by simp [hc])]

theorem ends_cons {c : Char} (h : isSpace c = true ∨ c ∈ [',', ':', ']', '\x7d'])
    (rest : List Char) : Ends (c :: rest) := by
  have hc : isAsciiDigit c = false ∧ c ≠ '.' ∧ c ≠ 'e' ∧ c ≠ 'E' := by
    rcases h with h | h
    · simp only [isSpace, Bool.or_eq_true, beq_iff_eq] at h
      rcases h with ((rfl | rfl) | rfl) | rfl <;> decide
    · simp only [List.mem_cons, List.not_mem_nil, or_false] at h
      rcases h with rfl | rfl | rfl | rfl <;> decide
  intro d hd
  obtain rfl := Option.some.inj hd
  exact hc

theorem ends_append {w : List Char} (hw : ∀ c ∈ w, isSpace c = true) {rest : List Char}
    (hr : Ends rest) : Ends (w ++ rest) := by
  cases w with
  | nil => exact hr
  | cons c w => exact ends_cons (.inl (hw c List.mem_cons_self)) _

/-- A text to which the reader comes after white space: no value, and no bracket is over. -/
def Starts (cs : List Char) : Prop :=
  ∃ c ds, cs = c :: ds ∧ isSpace c = false ∧ c ≠ ']' ∧ c ≠ '\x7d'

namespace Starts

variable {cs w : List Char}

theorem append (h : Starts cs) (ds : List Char) : Starts (cs ++ ds) := by
  obtain ⟨c, es, rfl, hc⟩ := h
  exact ⟨c, es ++ ds, rfl, hc⟩

theorem intercalate (h : Starts cs) (sep : List Char) (texts : List (List Char)) :
    Starts (sep.intercalate (cs :: texts)) := by
  cases texts with
  | nil =>
    rw [List.intercalate_singleton]
    exact h
  | cons text texts =>
    rw [List.intercalate_cons_cons, List.append_assoc]
    exact h.append _

theorem skip (h : Starts cs) (hw : ∀ c ∈ w, isSpace c = true) : skipSpace (w ++ cs) = cs := by
  obtain ⟨c, ds, rfl, hc, _⟩ := h
  exact skipSpace_append hw hc ds

end Starts

/-! ### Texts of values -/

/-- The text is read as the value, whatever follows it. -/
structure Spells (limit room : Nat) (j : Json) (cs : List Char) : Prop where
  starts : Starts cs
  reads : ∀ {fuel : Nat} {rest : List Char}, 2 * cs.length ≤ fuel → Ends rest →
    readValue limit fuel room (cs ++ rest) = .ok (j, rest)

theorem exists_succ_of_starts {cs : List Char} {fuel : Nat} (h : Starts cs)
    (hf : 2 * cs.length ≤ fuel) : ∃ n, fuel = n + 1 := by
  obtain ⟨c, ds, rfl, _⟩ := h
  rw [List.length_cons] at hf
  exact ⟨fuel - 1, by omega⟩

theorem spells_null : Spells limit room .null "null".toList where
  starts := ⟨'n', _, rfl, by decide⟩
  reads {fuel rest} hf _ := by
    obtain ⟨fuel, rfl⟩ := exists_succ_of_starts ⟨'n', _, rfl, by decide⟩ hf
    rfl

theorem spells_bool (b : Bool) :
    Spells limit room (.bool b) (if b then "true" else "false").toList := by
  have hs : Starts (if b then "true" else "false").toList := by
    cases b with
    | false => exact ⟨'f', _, rfl, by decide⟩
    | true => exact ⟨'t', _, rfl, by decide⟩
  refine ⟨hs, fun {fuel rest} hf _ => ?_⟩
  obtain ⟨fuel, rfl⟩ := exists_succ_of_starts hs hf
  cases b <;> rfl

theorem readValue_quote (fuel : Nat) (cs : List Char) :
    readValue limit (fuel + 1) room ('"' :: cs) =
      (readString fuel [] cs).map fun r => (.str r.1, r.2) := rfl

theorem spells_str (s : String) : Spells limit room (.str s) (renderString s).toList := by
  have hs : Starts (renderString s).toList := ⟨'"', _, toList_renderString s, by decide⟩
  refine ⟨hs, fun {fuel rest} hf _ => ?_⟩
  obtain ⟨fuel, rfl⟩ := exists_succ_of_starts hs hf
  have hlen : (renderString s).toList.length ≤ fuel := by omega
  have hread := readString_renderString hlen rest
  rw [toList_renderString, List.cons_append, List.append_assoc, List.singleton_append,
    readValue_quote, hread]
  rfl

theorem starts_of_isAsciiDigit {c : Char} (hc : isAsciiDigit c = true) (cs : List Char) :
    Starts (c :: cs) := by
  refine ⟨c, cs, rfl, ?_, ?_, ?_⟩
  · rw [← Bool.not_eq_true]
    intro hs
    simp only [isSpace, Bool.or_eq_true, beq_iff_eq] at hs
    rcases hs with ((rfl | rfl) | rfl) | rfl <;> exact absurd hc (by decide)
  · rintro rfl
    exact absurd hc (by decide)
  · rintro rfl
    exact absurd hc (by decide)

theorem readValue_of_isAsciiDigit {c : Char} (hc : isAsciiDigit c = true) (fuel : Nat)
    (cs : List Char) :
    readValue limit (fuel + 1) room (c :: cs) = readNumber limit false (c :: cs) := by
  rw [readValue]
  all_goals
    intro rest he
    obtain ⟨rfl, _⟩ := List.cons.inj he
    exact absurd hc (by decide)

theorem readValue_minus {c : Char} (hc : isAsciiDigit c = true) (fuel : Nat) (cs : List Char) :
    readValue limit (fuel + 1) room ('-' :: c :: cs) = readNumber limit true (c :: cs) := by
  rw [readValue]
  intro rest he
  obtain ⟨rfl, _⟩ := List.cons.inj he
  exact absurd hc (by decide)

theorem spells_int {n : Int} (h : (Nat.toDigits 10 n.natAbs).length ≤ limit) :
    Spells limit room (.int n) (toString n).toList := by
  obtain ⟨c, ds, hcs⟩ := List.exists_cons_of_ne_nil (Nat.toDigits_ne_nil (b := 10) (n := n.natAbs))
  have hc : isAsciiDigit c = true := isAsciiDigit_of_mem_toDigits (hcs ▸ List.mem_cons_self)
  have hread (negative : Bool) {rest : List Char} (hr : Ends rest) :
      readNumber limit negative (c :: (ds ++ rest)) =
        .ok (.int (if negative then -(n.natAbs : Int) else n.natAbs), rest) := by
    have hnumber := readNumber_toDigits h negative hr
    rwa [hcs] at hnumber
  rw [toList_toString, hcs]
  by_cases hn : 0 ≤ n
  · have habs : (n.natAbs : Int) = n := Int.natAbs_of_nonneg hn
    have hs : Starts (c :: ds) := starts_of_isAsciiDigit hc ds
    rw [if_pos hn]
    refine ⟨hs, fun {fuel rest} hf hr => ?_⟩
    obtain ⟨fuel, rfl⟩ := exists_succ_of_starts hs hf
    rw [List.cons_append, readValue_of_isAsciiDigit hc, hread false hr, if_neg Bool.false_ne_true,
      habs]
  · have habs : -(n.natAbs : Int) = n := by omega
    have hs : Starts ('-' :: c :: ds) := ⟨'-', c :: ds, rfl, by decide⟩
    rw [if_neg hn]
    refine ⟨hs, fun {fuel rest} hf hr => ?_⟩
    obtain ⟨fuel, rfl⟩ := exists_succ_of_starts hs hf
    rw [List.cons_append, List.cons_append, readValue_minus hc, hread true hr, if_pos rfl, habs]

/-! ### Arrays -/

section Arrays

variable {items : List Json} {texts : List (List Char)} {w₀ w w' : List Char}

theorem readItems_close {fuel : Nat} {cs rest rest' : List Char} {item : Json} (done : List Json)
    (hread : readValue limit fuel room cs = .ok (item, rest))
    (hrest : skipSpace rest = ']' :: rest') :
    readItems limit (fuel + 1) room done cs = .ok (.arr (item :: done).reverse, rest') := by
  rw [readItems, hread]
  dsimp only
  rw [hrest]
  rfl

theorem readItems_comma {fuel : Nat} {cs rest rest' : List Char} {item : Json} (done : List Json)
    (hread : readValue limit fuel room cs = .ok (item, rest))
    (hrest : skipSpace rest = ',' :: rest') :
    readItems limit (fuel + 1) room done cs =
      readItems limit fuel room (item :: done) (skipSpace rest') := by
  rw [readItems, hread]
  dsimp only
  rw [hrest]
  rfl

/-- **Items** with a comma and white space between them are read up to the closing bracket. -/
theorem readItems_of_spells (h : List.Forall₂ (Spells limit room) items texts) (hne : items ≠ [])
    (hw : ∀ c ∈ w, isSpace c = true) (hw' : ∀ c ∈ w', isSpace c = true) {fuel : Nat}
    (hf : 2 * ((',' :: w).intercalate texts).length < fuel) (done : List Json)
    (rest : List Char) :
    readItems limit fuel room done ((',' :: w).intercalate texts ++ (w' ++ ']' :: rest)) =
      .ok (.arr (done.reverse ++ items), rest) := by
  induction h generalizing fuel done with
  | nil => exact absurd rfl hne
  | @cons item text items texts hitem hrest ih =>
    obtain ⟨fuel, rfl⟩ : ∃ k, fuel = k + 1 := ⟨fuel - 1, by omega⟩
    cases hrest with
    | nil =>
      rw [List.intercalate_singleton] at hf ⊢
      have hends : Ends (w' ++ ']' :: rest) := ends_append hw' (ends_cons (by simp) rest)
      rw [readItems_close done (hitem.reads (by omega) hends)
        (skipSpace_append hw' (by decide) rest), List.reverse_cons]
    | @cons next text' items texts hnext hrest =>
      rw [List.intercalate_cons_cons] at hf ⊢
      simp only [List.length_append, List.length_cons] at hf
      simp only [List.append_assoc, List.cons_append]
      have hstarts := (hnext.starts.intercalate (',' :: w) texts).append (w' ++ ']' :: rest)
      rw [readItems_comma done (hitem.reads (by omega) (ends_cons (by simp) _))
        (skipSpace_append (w := []) (by simp) (by decide) _), hstarts.skip hw,
        ih (by simp) (by omega), List.reverse_cons, List.append_assoc, List.singleton_append]

theorem spells_arr_nil : Spells limit (room + 1) (.arr []) ['[', ']'] where
  starts := ⟨'[', _, rfl, by decide⟩
  reads {fuel rest} hf _ := by
    obtain ⟨fuel, rfl⟩ : ∃ k, fuel = k + 1 := ⟨fuel - 1, by rw [List.length_cons] at hf; omega⟩
    rfl

theorem readValue_bracket (fuel : Nat) (cs : List Char) :
    readValue limit (fuel + 1) (room + 1) ('[' :: cs) =
      match skipSpace cs with
      | ']' :: rest => .ok (.arr [], rest)
      | rest => readItems limit fuel room [] rest := rfl

/-- **An array** of items in brackets, with white space between. -/
theorem spells_arr (h : List.Forall₂ (Spells limit room) items texts) (hne : items ≠ [])
    (hw₀ : ∀ c ∈ w₀, isSpace c = true) (hw : ∀ c ∈ w, isSpace c = true)
    (hw' : ∀ c ∈ w', isSpace c = true) :
    Spells limit (room + 1) (.arr items)
      ('[' :: (w₀ ++ ((',' :: w).intercalate texts ++ (w' ++ [']'])))) := by
  refine ⟨⟨'[', _, rfl, by decide⟩, fun {fuel rest} hf _ => ?_⟩
  obtain ⟨fuel, rfl⟩ : ∃ k, fuel = k + 1 := ⟨fuel - 1, by rw [List.length_cons] at hf; omega⟩
  simp only [List.length_cons, List.length_append] at hf
  have hlen : 2 * ((',' :: w).intercalate texts).length < fuel := by omega
  have hitems := readItems_of_spells h hne hw hw' hlen [] rest
  have hstarts : Starts ((',' :: w).intercalate texts ++ (w' ++ ']' :: rest)) := by
    cases h with
    | nil => exact absurd rfl hne
    | cons hitem _ => exact (hitem.starts.intercalate _ _).append _
  simp only [List.cons_append, List.append_assoc, List.nil_append]
  rw [readValue_bracket, hstarts.skip hw₀]
  obtain ⟨c, ds, hcs, _, hc, _⟩ := hstarts
  rw [hcs] at hitems ⊢
  split
  · next he => exact absurd (List.cons.inj he).1 hc
  · exact hitems

end Arrays

/-! ### Objects -/

section Objects

variable {members : List (String × Json)} {texts : List (List Char)} {w₀ w w' : List Char}

/-- The text of a member: its name, a colon and the text of its value. -/
def SpellsMember (limit room : Nat) (m : String × Json) (cs : List Char) : Prop :=
  ∃ vs, cs = (renderString m.1).toList ++ ':' :: ' ' :: vs ∧ Spells limit room m.2 vs

theorem SpellsMember.starts {m : String × Json} {cs : List Char}
    (h : SpellsMember limit room m cs) : Starts cs := by
  obtain ⟨vs, rfl, _⟩ := h
  exact Starts.append ⟨'"', _, toList_renderString m.1, by decide⟩ _

theorem SpellsMember.reads {m : String × Json} {cs : List Char}
    (h : SpellsMember limit room m cs) {fuel : Nat} (hf : 2 * cs.length ≤ fuel)
    {rest : List Char} (hr : Ends rest) :
    ∃ key value, m = (key, value) ∧ ∃ rest₁ rest₂ rest₃, cs ++ rest = '"' :: rest₁ ∧
      readString fuel [] rest₁ = .ok (key, rest₂) ∧ skipSpace rest₂ = ':' :: rest₃ ∧
      readValue limit fuel room (skipSpace rest₃) = .ok (value, rest) := by
  obtain ⟨key, value⟩ := m
  obtain ⟨vs, rfl, hvalue⟩ := h
  simp only [List.length_append, List.length_cons] at hf
  have hspace : skipSpace (' ' :: (vs ++ rest)) = vs ++ rest :=
    (hvalue.starts.append rest).skip (w := [' ']) (List.forall_mem_singleton.2 rfl)
  refine ⟨key, value, rfl, key.toList.flatMap escapeChar ++ '"' :: ':' :: ' ' :: (vs ++ rest),
    ':' :: ' ' :: (vs ++ rest), ' ' :: (vs ++ rest), ?_, ?_, rfl, ?_⟩
  · simp only [toList_renderString, List.cons_append, List.append_assoc, List.nil_append]
  · exact readString_renderString (by omega) _
  · rw [hspace]
    exact hvalue.reads (by omega) hr

theorem readMembers_close {m : String × Json} {cs : List Char}
    (h : SpellsMember limit room m cs) {fuel : Nat} (hf : 2 * cs.length ≤ fuel)
    (done : List (String × Json)) {rest rest' : List Char} (hr : Ends rest)
    (hrest : skipSpace rest = '\x7d' :: rest') :
    readMembers limit (fuel + 1) room done (cs ++ rest) =
      .ok (ofMembers (m :: done).reverse, rest') := by
  obtain ⟨key, value, rfl, rest₁, rest₂, rest₃, hcs, hkey, hcolon, hvalue⟩ :=
    h.reads hf hr
  simp only [readMembers, hcs, hkey, hcolon, hvalue, hrest]

theorem readMembers_comma {m : String × Json} {cs : List Char}
    (h : SpellsMember limit room m cs) {fuel : Nat} (hf : 2 * cs.length ≤ fuel)
    (done : List (String × Json)) {rest rest' : List Char} (hr : Ends rest)
    (hrest : skipSpace rest = ',' :: rest') :
    readMembers limit (fuel + 1) room done (cs ++ rest) =
      readMembers limit fuel room (m :: done) (skipSpace rest') := by
  obtain ⟨key, value, rfl, rest₁, rest₂, rest₃, hcs, hkey, hcolon, hvalue⟩ :=
    h.reads hf hr
  simp only [readMembers, hcs, hkey, hcolon, hvalue, hrest]

/-- **Members** with a comma and white space between them are read up to the closing bracket. -/
theorem readMembers_of_spells (h : List.Forall₂ (SpellsMember limit room) members texts)
    (hne : members ≠ []) (hw : ∀ c ∈ w, isSpace c = true) (hw' : ∀ c ∈ w', isSpace c = true)
    {fuel : Nat} (hf : 2 * ((',' :: w).intercalate texts).length < fuel)
    (done : List (String × Json)) (rest : List Char) :
    readMembers limit fuel room done ((',' :: w).intercalate texts ++ (w' ++ '\x7d' :: rest)) =
      .ok (ofMembers (done.reverse ++ members), rest) := by
  induction h generalizing fuel done with
  | nil => exact absurd rfl hne
  | @cons m text members texts hm hrest ih =>
    obtain ⟨fuel, rfl⟩ : ∃ k, fuel = k + 1 := ⟨fuel - 1, by omega⟩
    cases hrest with
    | nil =>
      rw [List.intercalate_singleton] at hf ⊢
      have hends : Ends (w' ++ '\x7d' :: rest) := ends_append hw' (ends_cons (by simp) rest)
      rw [readMembers_close hm (by omega) done hends (skipSpace_append hw' (by decide) rest),
        List.reverse_cons]
    | @cons next text' members texts hnext hrest =>
      rw [List.intercalate_cons_cons] at hf ⊢
      simp only [List.length_append, List.length_cons] at hf
      simp only [List.append_assoc, List.cons_append]
      have hstarts := (hnext.starts.intercalate (',' :: w) texts).append (w' ++ '\x7d' :: rest)
      rw [readMembers_comma hm (by omega) done (ends_cons (by simp) _)
        (skipSpace_append (w := []) (by simp) (by decide) _), hstarts.skip hw,
        ih (by simp) (by omega), List.reverse_cons, List.append_assoc, List.singleton_append]

theorem spells_obj_nil : Spells limit (room + 1) (.obj []) ['\x7b', '\x7d'] where
  starts := ⟨'\x7b', _, rfl, by decide⟩
  reads {fuel rest} hf _ := by
    obtain ⟨fuel, rfl⟩ : ∃ k, fuel = k + 1 := ⟨fuel - 1, by rw [List.length_cons] at hf; omega⟩
    rfl

theorem readValue_brace (fuel : Nat) (cs : List Char) :
    readValue limit (fuel + 1) (room + 1) ('\x7b' :: cs) =
      match skipSpace cs with
      | '\x7d' :: rest => .ok (.obj [], rest)
      | rest => readMembers limit fuel room [] rest := rfl

/-- **An object** of members in brackets, with white space between. -/
theorem spells_obj (h : List.Forall₂ (SpellsMember limit room) members texts) (hne : members ≠ [])
    (hnames : (members.map Prod.fst).Nodup) (hw₀ : ∀ c ∈ w₀, isSpace c = true)
    (hw : ∀ c ∈ w, isSpace c = true) (hw' : ∀ c ∈ w', isSpace c = true) :
    Spells limit (room + 1) (.obj members)
      ('\x7b' :: (w₀ ++ ((',' :: w).intercalate texts ++ (w' ++ ['\x7d'])))) := by
  refine ⟨⟨'\x7b', _, rfl, by decide⟩, fun {fuel rest} hf _ => ?_⟩
  obtain ⟨fuel, rfl⟩ : ∃ k, fuel = k + 1 := ⟨fuel - 1, by rw [List.length_cons] at hf; omega⟩
  simp only [List.length_cons, List.length_append] at hf
  have hlen : 2 * ((',' :: w).intercalate texts).length < fuel := by omega
  have hmembers := readMembers_of_spells h hne hw hw' hlen [] rest
  rw [List.reverse_nil, List.nil_append, ofMembers_of_nodup hnames] at hmembers
  have hstarts : Starts ((',' :: w).intercalate texts ++ (w' ++ '\x7d' :: rest)) := by
    cases h with
    | nil => exact absurd rfl hne
    | cons hm _ => exact (hm.starts.intercalate _ _).append _
  simp only [List.cons_append, List.append_assoc, List.nil_append]
  rw [readValue_brace, hstarts.skip hw₀]
  obtain ⟨c, ds, hcs, _, _, hc⟩ := hstarts
  rw [hcs] at hmembers ⊢
  split
  · next he => exact absurd (List.cons.inj he).1 hc
  · exact hmembers

end Objects

/-! ### Written values -/

theorem toList_lineAt (level : Nat) :
    (lineAt level).toList = '\n' :: List.replicate (4 * level) ' ' := by
  rw [lineAt, String.toList_append, String.toList_ofList, String.toList_ofList,
    List.singleton_append]

theorem isSpace_of_mem_lineAt (level : Nat) : ∀ c ∈ (lineAt level).toList, isSpace c = true := by
  rw [toList_lineAt, List.forall_mem_cons]
  refine ⟨by decide, fun c hc => ?_⟩
  rw [List.eq_of_mem_replicate hc]
  decide

theorem renderItems_eq_map (items : List Json) : renderItems items = items.map render := by
  induction items with
  | nil => rfl
  | cons item items ih => rw [renderItems, ih, List.map_cons]

theorem renderMembers_eq_map (members : List (String × Json)) :
    renderMembers members = members.map fun m => renderString m.1 ++ ": " ++ m.2.render := by
  induction members with
  | nil => rfl
  | cons m members ih => rw [renderMembers, ih, List.map_cons]

theorem renderItemsAt_eq_map (level : Nat) (items : List Json) :
    renderItemsAt level items = items.map (renderAt level) := by
  induction items with
  | nil => rfl
  | cons item items ih => rw [renderItemsAt, ih, List.map_cons]

theorem renderMembersAt_eq_map (level : Nat) (members : List (String × Json)) :
    renderMembersAt level members =
      members.map fun m => renderString m.1 ++ ": " ++ m.2.renderAt level := by
  induction members with
  | nil => rfl
  | cons m members ih => rw [renderMembersAt, ih, List.map_cons]

theorem spellsMember_append {m : String × Json} {text : String}
    (h : Spells limit room m.2 text.toList) :
    SpellsMember limit room m (renderString m.1 ++ ": " ++ text).toList := by
  have hcolon : ": ".toList = [':', ' '] := rfl
  refine ⟨text.toList, ?_, h⟩
  rw [String.toList_append, String.toList_append, hcolon, List.append_assoc, List.cons_append,
    List.singleton_append]

theorem toList_block_nil (level : Nat) (opening closing : String) :
    (block level opening closing []).toList = opening.toList ++ closing.toList :=
  String.toList_append

theorem toList_block (level : Nat) (opening closing : String) {items : List String}
    (h : items ≠ []) :
    (block level opening closing items).toList =
      opening.toList ++ ((lineAt (level + 1)).toList ++
        ((',' :: (lineAt (level + 1)).toList).intercalate (items.map String.toList) ++
          ((lineAt level).toList ++ closing.toList))) := by
  have hcomma : ",".toList = [','] := rfl
  rw [block, if_neg (by simpa using h)]
  simp only [String.toList_append, String.toList_intercalate, hcomma, List.append_assoc,
    List.singleton_append]

theorem toList_line (opening closing : String) (items : List String) :
    (opening ++ ", ".intercalate items ++ closing).toList =
      opening.toList ++
        ([] ++ ([',', ' '].intercalate (items.map String.toList) ++ ([] ++ closing.toList))) := by
  have hcomma : ", ".toList = [',', ' '] := rfl
  simp only [String.toList_append, String.toList_intercalate, hcomma, List.append_assoc,
    List.nil_append]

theorem forall₂_spells {items : List Json} {text : Json → String}
    (h : ∀ item ∈ items, Spells limit room item (text item).toList) :
    List.Forall₂ (Spells limit room) items ((items.map text).map String.toList) := by
  rw [List.map_map, List.forall₂_map_right_iff, List.forall₂_same]
  exact h

theorem forall₂_spellsMember {members : List (String × Json)} {text : Json → String}
    (h : ∀ m ∈ members, Spells limit room m.2 (text m.2).toList) :
    List.Forall₂ (SpellsMember limit room) members
      ((members.map fun m => renderString m.1 ++ ": " ++ text m.2).map String.toList) := by
  rw [List.map_map, List.forall₂_map_right_iff, List.forall₂_same]
  exact fun m hm => spellsMember_append (h m hm)

/-- **One line.**  A value within the limits is read from its line. -/
theorem spells_render {j : Json} (h : j.Fits limit room) (hw : j.Whole) :
    Spells limit room j j.render.toList := by
  have hspace : ∀ c ∈ [' '], isSpace c = true := List.forall_mem_singleton.2 rfl
  have hnone : ∀ c ∈ ([] : List Char), isSpace c = true := List.forall_mem_nil _
  induction h with
  | null => exact spells_null
  | bool b => exact spells_bool b
  | int digits => exact spells_int digits
  | real x => exact nomatch hw
  | str s => exact spells_str s
  | @arr room items items_fit ih =>
    by_cases hne : items = []
    · subst hne
      exact spells_arr_nil
    · have hitems := forall₂_spells fun item hi => ih item hi (hw.of_mem_items hi)
      rw [render, renderItems_eq_map, toList_line]
      exact spells_arr hitems hne hnone hspace hnone
  | @obj room members names members_fit ih =>
    by_cases hne : members = []
    · subst hne
      exact spells_obj_nil
    · have hmembers := forall₂_spellsMember fun m hm => ih m hm (hw.of_mem_members hm)
      rw [render, renderMembers_eq_map, toList_line]
      exact spells_obj hmembers hne names hnone hspace hnone

/-- **Indented lines.**  And from its lines, at any depth of indentation. -/
theorem spells_renderAt {j : Json} (h : j.Fits limit room) (hw : j.Whole) (level : Nat) :
    Spells limit room j (j.renderAt level).toList := by
  induction h generalizing level with
  | null => exact spells_null
  | bool b => exact spells_bool b
  | int digits => exact spells_int digits
  | real x => exact nomatch hw
  | str s => exact spells_str s
  | @arr room items items_fit ih =>
    by_cases hne : items = []
    · subst hne
      rw [renderAt, renderItemsAt, toList_block_nil]
      exact spells_arr_nil
    · have hitems := forall₂_spells fun item hi =>
        ih item hi (hw.of_mem_items hi) (level + 1)
      rw [renderAt, renderItemsAt_eq_map, toList_block level "[" "]" (by simpa using hne)]
      exact spells_arr hitems hne (isSpace_of_mem_lineAt (level + 1))
        (isSpace_of_mem_lineAt (level + 1)) (isSpace_of_mem_lineAt level)
  | @obj room members names members_fit ih =>
    by_cases hne : members = []
    · subst hne
      rw [renderAt, renderMembersAt, toList_block_nil]
      exact spells_obj_nil
    · have hmembers := forall₂_spellsMember fun m hm =>
        ih m hm (hw.of_mem_members hm) (level + 1)
      rw [renderAt, renderMembersAt_eq_map,
        toList_block level "\x7b" "\x7d" (by simpa using hne)]
      exact spells_obj hmembers hne names (isSpace_of_mem_lineAt (level + 1))
        (isSpace_of_mem_lineAt (level + 1)) (isSpace_of_mem_lineAt level)

/-! ### Whole texts -/

theorem readLimited_of_spells {j : Json} {text : String}
    (h : Spells limit room j text.toList) : readLimited limit room text = .ok j := by
  have hends : Ends [] := fun c hc => nomatch hc
  have hskip : skipSpace text.toList = text.toList :=
    h.starts.skip (w := []) fun c hc => nomatch hc
  have hlen : 2 * text.toList.length ≤ 2 * text.toList.length + 2 := by omega
  have hread := h.reads hlen hends
  rw [List.append_nil] at hread
  rw [readLimited, hskip, hread]
  rfl

theorem readLimited_render {j : Json} (h : j.Fits limit room) (hw : j.Whole) :
    readLimited limit room j.render = .ok j :=
  readLimited_of_spells (spells_render h hw)

theorem readLimited_renderIndented {j : Json} (h : j.Fits limit room) (hw : j.Whole) :
    readLimited limit room j.renderIndented = .ok j :=
  readLimited_of_spells (spells_renderAt h hw 0)

theorem readWithin_renderIndented {nesting : Nat} {j : Json} (h : j.Fits numeralLimit nesting)
    (hw : j.Whole) : readWithin nesting j.renderIndented = .ok j :=
  readLimited_renderIndented h hw

end TapeMachine.Json

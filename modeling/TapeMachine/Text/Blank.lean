/-!
# Blank characters

Blanks separate tokens and surround fields.  They are the white space of Unicode together with the
four information separators U+001C to U+001F.
-/

namespace TapeMachine.Text

def isBlank (c : Char) : Bool :=
  let n := c.toNat
  (9 ≤ n && n ≤ 13) || (28 ≤ n && n ≤ 32) || n == 0x85 || n == 0xA0 || n == 0x1680 ||
    (0x2000 ≤ n && n ≤ 0x200A) || n == 0x2028 || n == 0x2029 || n == 0x202F || n == 0x205F ||
    n == 0x3000

/-- The blanks that may stand around a numeral: all but the information separators. -/
def isNumeralBlank (c : Char) : Bool := isBlank c && !(28 ≤ c.toNat && c.toNat ≤ 31)

/-! ## Stripping -/

def stripBy (p : Char → Bool) (cs : List Char) : List Char :=
  ((cs.dropWhile p).reverse.dropWhile p).reverse

def strip (cs : List Char) : List Char := stripBy isBlank cs

def stripped (s : String) : String := String.ofList (strip s.toList)

/-! ## Splitting -/

/-- The pieces between the separators; there is always one more piece than separators. -/
def splitAt (sep : Char) : List Char → List (List Char)
  | [] => [[]]
  | c :: cs =>
    if c = sep then [] :: splitAt sep cs
    else
      match splitAt sep cs with
      | [] => [[c]]
      | piece :: pieces => (c :: piece) :: pieces

theorem splitAt_ne_nil (sep : Char) (cs : List Char) : splitAt sep cs ≠ [] := by
  cases cs with
  | nil => simp [splitAt]
  | cons c cs =>
    simp only [splitAt]
    split
    · simp
    · split <;> simp

theorem splitAt_of_notMem {sep : Char} {cs : List Char} (h : sep ∉ cs) : splitAt sep cs = [cs] := by
  induction cs with
  | nil => rfl
  | cons c cs ih =>
    rw [List.mem_cons, not_or] at h
    rw [splitAt, if_neg (Ne.symm h.1), ih h.2]

theorem splitAt_append_cons {sep : Char} {cs : List Char} (h : sep ∉ cs) (ds : List Char) :
    splitAt sep (cs ++ sep :: ds) = cs :: splitAt sep ds := by
  induction cs with
  | nil => simp [splitAt]
  | cons c cs ih =>
    rw [List.mem_cons, not_or] at h
    rw [List.cons_append, splitAt, if_neg (Ne.symm h.1), ih h.2]

theorem splitAt_append_sep (sep : Char) (cs ds : List Char) :
    splitAt sep (cs ++ sep :: ds) = splitAt sep cs ++ splitAt sep ds := by
  induction cs with
  | nil => simp [splitAt]
  | cons c cs ih =>
    rw [List.cons_append]
    simp only [splitAt, ih]
    split
    · rfl
    · cases h : splitAt sep cs with
      | nil => exact absurd h (splitAt_ne_nil sep cs)
      | cons piece pieces => rfl

theorem intercalate_splitAt (sep : Char) (cs : List Char) :
    [sep].intercalate (splitAt sep cs) = cs := by
  induction cs with
  | nil => rfl
  | cons c cs ih =>
    obtain ⟨piece, pieces, hp⟩ := List.exists_cons_of_ne_nil (splitAt_ne_nil sep cs)
    rw [hp] at ih
    rw [splitAt, hp]
    split
    · next hc => rw [List.intercalate_cons_cons, ih, hc]; rfl
    · cases pieces with
      | nil => rw [List.intercalate_singleton] at ih ⊢; rw [ih]
      | cons q qs => rw [List.intercalate_cons_cons] at ih ⊢; rw [← ih]; rfl

theorem splitAt_append_self (sep : Char) (cs : List Char) :
    splitAt sep (cs ++ [sep]) = splitAt sep cs ++ [[]] := by
  induction cs with
  | nil => simp [splitAt]
  | cons c cs ih =>
    rw [List.cons_append]
    simp only [splitAt, ih]
    split
    · rfl
    · cases h : splitAt sep cs with
      | nil => exact absurd h (splitAt_ne_nil sep cs)
      | cons piece pieces => rfl

theorem splitAt_eq_concat (sep : Char) (cs : List Char) :
    ∃ ps p, splitAt sep cs = ps ++ [p] :=
  ⟨_, _, (List.dropLast_concat_getLast (splitAt_ne_nil sep cs)).symm⟩

theorem splitAt_append_of_ne {sep c : Char} (hc : c ≠ sep) {cs : List Char}
    {ps : List (List Char)} {p : List Char} (h : splitAt sep cs = ps ++ [p]) :
    splitAt sep (cs ++ [c]) = ps ++ [p ++ [c]] := by
  induction cs generalizing ps p with
  | nil =>
    obtain ⟨rfl, rfl⟩ := List.append_singleton_inj.1 (show [] ++ [[]] = ps ++ [p] from h)
    simp [splitAt, hc]
  | cons d cs ih =>
    obtain ⟨qs, q, hq⟩ := splitAt_eq_concat sep cs
    rw [List.cons_append]
    simp only [splitAt, ih hq, hq] at h ⊢
    split at h
    · obtain ⟨rfl, rfl⟩ := List.append_singleton_inj.1 (show ([] :: qs) ++ [q] = ps ++ [p] from h)
      rw [if_pos ‹_›]
      rfl
    · rw [if_neg ‹_›]
      cases qs with
      | nil =>
        obtain ⟨rfl, rfl⟩ := List.append_singleton_inj.1 (show [] ++ [d :: q] = ps ++ [p] from h)
        rfl
      | cons r rs =>
        obtain ⟨rfl, rfl⟩ :=
          List.append_singleton_inj.1 (show ((d :: r) :: rs) ++ [q] = ps ++ [p] from h)
        rfl

end TapeMachine.Text

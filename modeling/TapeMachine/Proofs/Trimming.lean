import Mathlib.Data.List.Forall2
import TapeMachine.Tape

/-!
# Trimmed tapes

What a tape shows without the blanks at its ends depends only on what is read from it.  Any stretch
of positions outside of which all is blank gives it, so how many blanks the arrays hold does not
matter.

* `stretch`: the cells from a position on.
* `trimBlanks_append`, `trimBlanks_reverse`: blanks at the ends, and the other way round.
* `trimmed_eq_of_blankOutside`: every stretch that holds all of a tape gives its trimmed cells.
-/

namespace TapeMachine.Tape

/-! ### Lists without the blanks at their ends -/

theorem isBlankCell_iff {a : Atom} : isBlankCell a = true ↔ a = .blank := by
  rw [isBlankCell, beq_iff_eq]

theorem dropWhile_of_blanks {bs : List Atom} (h : ∀ b ∈ bs, b = .blank) (cells : List Atom) :
    (bs ++ cells).dropWhile isBlankCell = cells.dropWhile isBlankCell :=
  List.dropWhile_append_of_pos fun b hb => isBlankCell_iff.2 (h b hb)

theorem dropWhile_reverse_comm (cells : List Atom) :
    ((cells.dropWhile isBlankCell).reverse.dropWhile isBlankCell).reverse =
      (cells.reverse.dropWhile isBlankCell).reverse.dropWhile isBlankCell := by
  induction cells with
  | nil => rfl
  | cons a cells ih =>
    rw [List.reverse_cons, List.dropWhile_append]
    by_cases ha : isBlankCell a = true
    · rw [List.dropWhile_cons_of_pos ha, ih]
      by_cases hc : (cells.reverse.dropWhile isBlankCell).isEmpty = true
      · rw [if_pos hc, List.dropWhile_cons_of_pos ha, List.isEmpty_iff.1 hc]
        rfl
      · rw [if_neg hc, List.reverse_append, List.reverse_singleton, List.singleton_append,
          List.dropWhile_cons_of_pos ha]
    · rw [List.dropWhile_cons_of_neg ha, List.reverse_cons, List.dropWhile_append]
      by_cases hc : (cells.reverse.dropWhile isBlankCell).isEmpty = true
      · rw [if_pos hc, List.dropWhile_cons_of_neg ha, List.reverse_singleton,
          List.dropWhile_cons_of_neg ha]
      · rw [if_neg hc, List.reverse_append, List.reverse_singleton, List.singleton_append,
          List.dropWhile_cons_of_neg ha]

theorem trimBlanks_reverse (cells : List Atom) :
    trimBlanks cells.reverse = (trimBlanks cells).reverse := by
  rw [trimBlanks, trimBlanks, List.reverse_reverse, dropWhile_reverse_comm, List.reverse_reverse]

theorem trimBlanks_blanks_append {bs : List Atom} (h : ∀ b ∈ bs, b = .blank)
    (cells : List Atom) : trimBlanks (bs ++ cells) = trimBlanks cells := by
  rw [trimBlanks, trimBlanks, dropWhile_of_blanks h]

theorem trimBlanks_append_blanks {bs : List Atom} (h : ∀ b ∈ bs, b = .blank)
    (cells : List Atom) : trimBlanks (cells ++ bs) = trimBlanks cells := by
  have hr : ∀ b ∈ bs.reverse, b = .blank := fun b hb => h b (List.mem_reverse.1 hb)
  rw [← List.reverse_reverse (cells ++ bs), trimBlanks_reverse, List.reverse_append,
    trimBlanks_blanks_append hr, trimBlanks_reverse, List.reverse_reverse]

theorem dropWhile_of_head?_ne {cells : List Atom} (h : cells.head? ≠ some .blank) :
    cells.dropWhile isBlankCell = cells := by
  cases cells with
  | nil => rfl
  | cons a cells =>
    refine List.dropWhile_cons_of_neg fun ha => h ?_
    rw [List.head?_cons, isBlankCell_iff.1 ha]

theorem trimBlanks_of_ends_ne {cells : List Atom} (h : cells.head? ≠ some .blank)
    (g : cells.getLast? ≠ some .blank) : trimBlanks cells = cells := by
  rw [← List.head?_reverse] at g
  rw [trimBlanks, dropWhile_of_head?_ne h, dropWhile_of_head?_ne g, List.reverse_reverse]

theorem trimBlanks_sublist (cells : List Atom) : (trimBlanks cells).Sublist cells := by
  have hr : (trimBlanks cells).Sublist (cells.dropWhile isBlankCell).reverse.reverse :=
    (List.dropWhile_sublist isBlankCell).reverse
  rw [List.reverse_reverse] at hr
  exact hr.trans (List.dropWhile_sublist isBlankCell)

/-! ### Stretches of cells -/

def stretch (cells : Int → Atom) (p : Int) (n : Nat) : List Atom :=
  (List.range n).map fun (i : Nat) => cells (p + i)

/-- All cells outside of a stretch are blank. -/
def BlankOutside (cells : Int → Atom) (p : Int) (n : Nat) : Prop :=
  ∀ q, q < p ∨ p + n ≤ q → cells q = .blank

theorem length_stretch (cells : Int → Atom) (p : Int) (n : Nat) :
    (stretch cells p n).length = n := by
  rw [stretch, List.length_map, List.length_range]

theorem getElem_stretch (cells : Int → Atom) (p : Int) (n : Nat) {i : Nat}
    (h : i < (stretch cells p n).length) : (stretch cells p n)[i] = cells (p + i) := by
  simp only [stretch, List.getElem_map, List.getElem_range]

theorem stretch_add (cells : Int → Atom) (p : Int) (n k : Nat) :
    stretch cells p (n + k) = stretch cells p n ++ stretch cells (p + n) k := by
  rw [stretch, List.range_add, List.map_append, List.map_map]
  refine congrArg (stretch cells p n ++ ·) (List.map_congr_left fun i _ => ?_)
  simp only [Function.comp, Int.natCast_add, Int.add_assoc]

theorem mem_stretch {cells : Int → Atom} {p : Int} {n : Nat} {a : Atom}
    (h : a ∈ stretch cells p n) : ∃ q, p ≤ q ∧ q < p + n ∧ cells q = a := by
  obtain ⟨i, hi, rfl⟩ := List.mem_map.1 h
  rw [List.mem_range] at hi
  exact ⟨p + i, by omega, by omega, rfl⟩

theorem trimBlanks_stretch_wider {cells : Int → Atom} {p : Int} {n : Nat}
    (h : BlankOutside cells p n) (i j : Nat) :
    trimBlanks (stretch cells (p - i) (i + n + j)) = trimBlanks (stretch cells p n) := by
  have hp : p - i + i = p := by omega
  have hq : p - i + (i + n : Nat) = p + n := by omega
  have hbefore : ∀ b ∈ stretch cells (p - i) i, b = .blank := by
    intro b hb
    obtain ⟨q, _, hlt, rfl⟩ := mem_stretch hb
    exact h q (Or.inl (by omega))
  have hbehind : ∀ b ∈ stretch cells (p + n) j, b = .blank := by
    intro b hb
    obtain ⟨q, hle, _, rfl⟩ := mem_stretch hb
    exact h q (Or.inr hle)
  rw [stretch_add, stretch_add, hp, hq, trimBlanks_append_blanks hbehind,
    trimBlanks_blanks_append hbefore]

/-- Two stretches that both hold all that is not blank show the same. -/
theorem trimBlanks_stretch_eq {cells : Int → Atom} {p q : Int} {n k : Nat}
    (hp : BlankOutside cells p n) (hq : BlankOutside cells q k) :
    trimBlanks (stretch cells p n) = trimBlanks (stretch cells q k) := by
  -- both are compared with one stretch around the two of them
  let a := min p q
  let b := max (p + n) (q + k)
  have h₁ := trimBlanks_stretch_wider hp (p - a).toNat (b - (p + n)).toNat
  have h₂ := trimBlanks_stretch_wider hq (q - a).toNat (b - (q + k)).toNat
  have ha : p - (p - a).toNat = q - (q - a).toNat := by omega
  have hb : (p - a).toNat + n + (b - (p + n)).toNat = (q - a).toNat + k + (b - (q + k)).toNat := by
    omega
  rw [← h₁, ← h₂, ha, hb]

/-! ### Tapes -/

theorem contents_eq_stretch (t : Tape) :
    t.contents = stretch t.read (-t.left.size) (t.left.size + t.right.size) := by
  rw [contents_eq_map_read, stretch]
  refine List.map_congr_left fun i _ => ?_
  rw [show -(t.left.size : Int) + i = i - t.left.size by omega]

theorem blankOutside_contents (t : Tape) :
    BlankOutside t.read (-t.left.size) (t.left.size + t.right.size) := by
  intro q hq
  rw [read]
  by_cases h : 0 ≤ q
  · rw [if_pos h, Array.getD_eq_getD_getElem?, Array.getElem?_eq_none (by omega)]
    rfl
  · rw [if_neg h, leftIndex, Array.getD_eq_getD_getElem?, Array.getElem?_eq_none (by omega)]
    rfl

/-- **A tape shows what is read from it.**  Every stretch that holds all that is not blank gives the
trimmed cells. -/
theorem trimmed_eq_of_blankOutside {t : Tape} {p : Int} {n : Nat}
    (h : BlankOutside t.read p n) : t.trimmed = trimBlanks (stretch t.read p n) := by
  rw [trimmed, contents_eq_stretch]
  exact trimBlanks_stretch_eq (blankOutside_contents t) h

end TapeMachine.Tape

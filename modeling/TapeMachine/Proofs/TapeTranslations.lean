import Mathlib.Data.List.TakeWhile
import TapeMachine.Proofs.Isometry

/-!
# Tapes up to translation

What a tape shows without the blanks at its ends says all about the tape but where on it the cells
are: two tapes show the same if and only if one of them is the other one, moved.  Cells may be
compared by equality, or by likeness as machines compare them.

* `exists_blanks_append`, `head?_trimBlanks_ne`, `getLast?_trimBlanks_ne`: what is cut off, and
  where it ends.
* `exists_stretch_trimmed`: the trimmed cells are the stretch that holds all that is not blank.
* `Comparison.forall₂_trimmed_iff`: two tapes that show the same, for either way to compare cells.
* `trimmed_eq_iff_translated`: the trimmed cells are a complete invariant.
-/

namespace TapeMachine

open Tape

namespace Tape

/-! ### What is cut off -/

theorem exists_replicate_append_dropWhile (cells : List Atom) :
    ∃ n, cells = List.replicate n .blank ++ cells.dropWhile isBlankCell := by
  refine ⟨(cells.takeWhile isBlankCell).length, ?_⟩
  have hblank : ∀ a ∈ cells.takeWhile isBlankCell, a = .blank := by
    intro a ha
    exact isBlankCell_iff.1 (List.mem_takeWhile_imp ha)
  rw [← List.eq_replicate_of_mem hblank, List.takeWhile_append_dropWhile]

theorem exists_blanks_append (cells : List Atom) :
    ∃ i j, cells = List.replicate i .blank ++ trimBlanks cells ++ List.replicate j .blank := by
  obtain ⟨i, hi⟩ := exists_replicate_append_dropWhile cells
  obtain ⟨j, hj⟩ := exists_replicate_append_dropWhile (cells.dropWhile isBlankCell).reverse
  refine ⟨i, j, ?_⟩
  have hd : cells.dropWhile isBlankCell = trimBlanks cells ++ List.replicate j .blank := by
    rw [trimBlanks, ← List.reverse_replicate (n := j), ← List.reverse_append, ← hj,
      List.reverse_reverse]
  rw [List.append_assoc, ← hd]
  exact hi

theorem head?_dropWhile_ne (cells : List Atom) :
    (cells.dropWhile isBlankCell).head? ≠ some .blank := by
  intro h
  have hhead := List.head?_dropWhile_not isBlankCell cells
  rw [h] at hhead
  exact absurd hhead (by decide)

theorem getLast?_trimBlanks_ne (cells : List Atom) :
    (trimBlanks cells).getLast? ≠ some .blank := by
  rw [trimBlanks, List.getLast?_reverse]
  exact head?_dropWhile_ne _

theorem head?_trimBlanks_ne (cells : List Atom) : (trimBlanks cells).head? ≠ some .blank := by
  have h := getLast?_trimBlanks_ne cells.reverse
  rwa [trimBlanks_reverse, List.getLast?_reverse] at h

theorem trimmed_ofList_trimmed (t : Tape) : (ofList t.trimmed).trimmed = t.trimmed := by
  show trimBlanks t.trimmed = t.trimmed
  exact trimBlanks_of_ends_ne (head?_trimBlanks_ne _) (getLast?_trimBlanks_ne _)

/-! ### Where the cells are -/

theorem mem_stretch_of_le {cells : Int → Atom} {p q : Int} {n : Nat} (hp : p ≤ q)
    (hq : q < p + n) : cells q ∈ stretch cells p n := by
  refine List.mem_map.2 ⟨(q - p).toNat, List.mem_range.2 (by omega), ?_⟩
  exact congrArg cells (by omega)

/-- **The trimmed cells** are a stretch of the tape, and all outside of it is blank. -/
theorem exists_stretch_trimmed (t : Tape) :
    ∃ p n, t.trimmed = stretch t.read p n ∧ BlankOutside t.read p n := by
  obtain ⟨i, j, hcells⟩ : ∃ i j, t.contents =
      List.replicate i .blank ++ t.trimmed ++ List.replicate j .blank :=
    exists_blanks_append t.contents
  have hout := blankOutside_contents t
  have hstretch := t.contents_eq_stretch
  generalize -(t.left.size : Int) = low at hout hstretch
  have hlen : t.left.size + t.right.size = i + t.trimmed.length + j := by
    have h := congrArg List.length hcells
    simp only [length_contents, List.length_append, List.length_replicate] at h
    exact h
  rw [hstretch, hlen, stretch_add, stretch_add] at hcells
  obtain ⟨hfront, hbehind⟩ := List.append_inj hcells (by simp [length_stretch])
  obtain ⟨hbefore, hmiddle⟩ := List.append_inj hfront (by simp [length_stretch])
  refine ⟨low + i, t.trimmed.length, hmiddle.symm, fun q hq => ?_⟩
  -- a position is in one of the two runs of blanks, or it is not stored
  by_cases hin : low ≤ q ∧ q < low + (i + t.trimmed.length + j : Nat)
  · rcases hq with hq | hq
    · have hmem : t.read q ∈ stretch t.read low i := mem_stretch_of_le hin.1 hq
      rw [hbefore] at hmem
      exact List.eq_of_mem_replicate hmem
    · have hmem : t.read q ∈ stretch t.read (low + (i + t.trimmed.length : Nat)) j :=
        mem_stretch_of_le (by omega) (by omega)
      rw [hbehind] at hmem
      exact List.eq_of_mem_replicate hmem
  · refine hout q ?_
    omega

end Tape

/-! ### Tapes that show the same -/

namespace Comparison

variable {c : Comparison}

theorem forall₂_stretch_iff {cells₁ cells₂ : Int → Atom} {p q : Int} {n k : Nat} :
    List.Forall₂ c.same (stretch cells₁ p n) (stretch cells₂ q k) ↔
      n = k ∧ ∀ i : Nat, i < n → c.same (cells₁ (p + i)) (cells₂ (q + i)) := by
  rw [List.forall₂_iff_get]
  simp only [length_stretch, List.get_eq_getElem, getElem_stretch]
  constructor
  · rintro ⟨rfl, h⟩
    exact ⟨rfl, fun i hi => h i hi hi⟩
  · rintro ⟨rfl, h⟩
    exact ⟨rfl, fun i hi _ => h i hi⟩

/-- **Two tapes show the same** if and only if the cells of one are those of the other, moved. -/
theorem forall₂_trimmed_iff (hc : c.same .blank .blank) (t₁ t₂ : Tape) :
    List.Forall₂ c.same t₁.trimmed t₂.trimmed ↔
      ∃ k : Int, ∀ p, c.same (t₁.read p) (t₂.read (p + k)) := by
  constructor
  · intro h
    obtain ⟨p₁, n, h₁, hout₁⟩ := exists_stretch_trimmed t₁
    obtain ⟨p₂, k, h₂, hout₂⟩ := exists_stretch_trimmed t₂
    rw [h₁, h₂, forall₂_stretch_iff] at h
    obtain ⟨rfl, h⟩ := h
    refine ⟨p₂ - p₁, fun p => ?_⟩
    by_cases hp : p₁ ≤ p ∧ p < p₁ + n
    · have hi := h (p - p₁).toNat (by omega)
      rwa [show p₁ + (p - p₁).toNat = p by omega,
        show p₂ + (p - p₁).toNat = p + (p₂ - p₁) by omega] at hi
    · rw [hout₁ p (by omega), hout₂ (p + (p₂ - p₁)) (by omega)]
      exact hc
  · rintro ⟨k, h⟩
    exact forall₂_trimmed (f := ⟨false, k⟩) h

end Comparison

/-- **The trimmed cells are a complete invariant** of a tape up to translation, whether cells are
compared by equality or by likeness.  They are what is stored without a run of blanks at either end;
they are none, or they begin and end with cells that are not blank; and the tape that is filled with
them shows them again. -/
theorem trimmed_eq_iff_translated :
    (∀ t₁ t₂ : Tape, t₁.trimmed = t₂.trimmed ↔ ∃ k : Int, ∀ p, t₁.read p = t₂.read (p + k)) ∧
    (∀ t₁ t₂ : Tape, List.Forall₂ (fun a b => a.like b = true) t₁.trimmed t₂.trimmed ↔
      ∃ k : Int, ∀ p, (t₁.read p).like (t₂.read (p + k)) = true) ∧
    ∀ t : Tape,
      (∃ i j, t.contents = List.replicate i .blank ++ t.trimmed ++ List.replicate j .blank) ∧
      t.trimmed.head? ≠ some .blank ∧ t.trimmed.getLast? ≠ some .blank ∧
      (ofList t.trimmed).trimmed = t.trimmed := by
  refine ⟨fun t₁ t₂ => ?_, fun t₁ t₂ => ?_, fun t => ?_⟩
  · rw [← List.forall₂_eq_eq_eq]
    exact Comparison.exact.forall₂_trimmed_iff rfl t₁ t₂
  · exact Comparison.likeness.forall₂_trimmed_iff rfl t₁ t₂
  · exact ⟨exists_blanks_append t.contents, head?_trimBlanks_ne t.contents,
      getLast?_trimBlanks_ne t.contents, trimmed_ofList_trimmed t⟩

end TapeMachine

import Mathlib.Data.List.GetD
import Mathlib.Data.List.Induction
import TapeMachine.Proofs.Configuration
import TapeMachine.Proofs.Trimming

/-!
# Sweeps

Many machines work in sweeps: the head goes along a row of cells, does the same to each of them, and
turns or stops at the first cell of another sort.  To follow such a machine, its tape is written as
two lists of cells, one before the head and one behind it, and the head looks at the nearest cell of
one of the two.

* `Tape.laid`: the tape with the cells of a list in a row.
* `Configuration.ahead`, `Configuration.back`: the head between two lists of cells.
* `Acts`: a rule that a table has and that changes something; `Acts.step_right`, `Acts.step_left`,
  `Acts.step_hold`: what it does to the lists.
* `Sweeps`: the table takes the head along cells of some sort.
* `Sweeps.right`, `Sweeps.left`: a whole sweep, by induction on the cells that it passes.
-/

namespace TapeMachine

/-! ### Cells in a row -/

namespace Tape

/-- The cells of a list in a row from the position `o` on, and blanks around them. -/
def laid (cells : List Atom) (o : Int) : Int → Atom := fun p =>
  if o ≤ p then cells.getD (p - o).toNat .blank else .blank

theorem read_ofList_eq_laid (cells : List Atom) : (ofList cells).read = laid cells 0 := by
  funext p
  rw [read_ofList, laid, Int.sub_zero]

theorem laid_middle (xs ys : List Atom) (x : Atom) (o : Int) :
    laid (xs ++ x :: ys) o (o + xs.length) = x := by
  have hn : (o + xs.length - o).toNat = xs.length := by omega
  rw [laid, if_pos (by omega), hn, List.getD_append_right _ _ _ _ (Nat.le_refl _), Nat.sub_self]
  rfl

theorem update_laid (xs ys : List Atom) (x y : Atom) (o : Int) :
    Function.update (laid (xs ++ x :: ys) o) (o + xs.length) y = laid (xs ++ y :: ys) o := by
  funext p
  rw [Function.update_apply]
  by_cases hp : p = o + xs.length
  · rw [if_pos hp, hp, laid_middle]
  · rw [if_neg hp, laid, laid]
    split
    · have hn : (p - o).toNat ≠ xs.length := by omega
      simp only [List.getD_eq_getElem?_getD, List.getElem?_append, List.getElem?_cons]
      grind
    · rfl

theorem laid_concat_blank (cells : List Atom) (o : Int) :
    laid (cells ++ [.blank]) o = laid cells o := by
  funext p
  simp only [laid, List.getD_eq_getElem?_getD, List.getElem?_append, List.getElem?_singleton]
  grind

theorem laid_cons_blank (cells : List Atom) (o : Int) :
    laid (.blank :: cells) o = laid cells (o + 1) := by
  funext p
  rw [laid, laid]
  by_cases hp : o + 1 ≤ p
  · have hn : (p - o).toNat = (p - (o + 1)).toNat + 1 := by omega
    rw [if_pos hp, if_pos (by omega), hn, List.getD_cons_succ]
  · rw [if_neg hp]
    split
    · have hn : (p - o).toNat = 0 := by omega
      rw [hn, List.getD_cons_zero]
    · rfl

theorem stretch_laid (cells : List Atom) (o : Int) :
    stretch (laid cells o) o cells.length = cells := by
  refine List.ext_getElem (length_stretch _ _ _) fun i hi hc => ?_
  have hn : (o + (i : Int) - o).toNat = i := by omega
  rw [getElem_stretch, laid, if_pos (by omega), hn, List.getD_eq_getElem _ _ hc]

theorem blankOutside_laid (cells : List Atom) (o : Int) :
    BlankOutside (laid cells o) o cells.length := by
  rintro q (hq | hq)
  · rw [laid, if_neg (by omega)]
  · rw [laid, if_pos (by omega), List.getD_eq_default _ _ (by omega)]

theorem trimmed_of_read_eq_laid {t : Tape} {cells : List Atom} {o : Int}
    (h : t.read = laid cells o) : t.trimmed = trimBlanks cells := by
  have hb : BlankOutside t.read o cells.length := h ▸ blankOutside_laid cells o
  rw [trimmed_eq_of_blankOutside hb, h, stretch_laid]

end Tape

namespace Configuration

variable {t : Table} {q r x y : Atom} {o : Int} {xs ys : List Atom}

/-! ### The head between two lists of cells -/

/-- The head on the first of the cells `ys`, behind the cells `xs`; the row starts at `o`. -/
def ahead (q : Atom) (o : Int) (xs ys : List Atom) : Configuration :=
  ⟨q, o + xs.length, Tape.laid (xs ++ ys) o⟩

/-- The head on the last of the cells `xs`, before the cells `ys`; the row starts at `o`. -/
def back (q : Atom) (o : Int) (xs ys : List Atom) : Configuration :=
  ⟨q, o + xs.length - 1, Tape.laid (xs ++ ys) o⟩

theorem back_concat (q : Atom) (o : Int) (xs ys : List Atom) (x : Atom) :
    back q o (xs ++ [x]) ys = ahead q o xs (x :: ys) := by
  have hh : o + ((xs.length + 1 : Nat) : Int) - 1 = o + xs.length := by omega
  rw [back, ahead, List.append_assoc, List.length_append, List.length_singleton, hh]
  rfl

theorem ahead_concat_blank (q : Atom) (o : Int) (xs ys : List Atom) :
    ahead q o xs (ys ++ [.blank]) = ahead q o xs ys := by
  rw [ahead, ahead, ← List.append_assoc, Tape.laid_concat_blank]

theorem ahead_nil (q : Atom) (o : Int) (xs : List Atom) :
    ahead q o xs [] = ahead q o xs [.blank] :=
  (ahead_concat_blank q o xs []).symm

theorem back_nil (q : Atom) (o : Int) (ys : List Atom) :
    back q o [] ys = ahead q (o - 1) [] (.blank :: ys) := by
  have hh : o + ((0 : Nat) : Int) - 1 = o - 1 + ((0 : Nat) : Int) := by omega
  rw [back, ahead, List.nil_append, List.nil_append, Tape.laid_cons_blank, Int.sub_add_cancel,
    List.length_nil, hh]

theorem situation_ahead (q : Atom) (o : Int) (xs ys : List Atom) (x : Atom) :
    (ahead q o xs (x :: ys)).situation = ⟨q, x⟩ :=
   congrArg (Situation.mk q) (Tape.laid_middle xs ys x o)

theorem after_ahead (q r x y : Atom) (d : Move) (o : Int) (xs ys : List Atom) :
    (ahead q o xs (x :: ys)).after ⟨r, y, d⟩ =
      ⟨r, o + xs.length + d.delta, Tape.laid (xs ++ y :: ys) o⟩ := by
  rw [after, ahead, Tape.update_laid]

/-! ### Single steps -/

/-- In the state `q` and under the symbol `x` the table has a rule that is no end: it goes on in the
state `r`, having written `y`, in the direction `d`. -/
def Acts (t : Table) (q x r y : Atom) (d : Move) : Prop :=
  t.find? ⟨q, x⟩ = some ⟨r, y, d⟩ ∧ Rule.isFixed ⟨⟨q, x⟩, ⟨r, y, d⟩⟩ = false

instance (t : Table) (q x r y : Atom) (d : Move) : Decidable (Acts t q x r y d) :=
  inferInstanceAs (Decidable (_ ∧ _))

theorem Acts.step {d : Move} (h : Acts t q x r y d) (o : Int) (xs ys : List Atom) :
    Step t (ahead q o xs (x :: ys)) ⟨r, o + xs.length + d.delta, Tape.laid (xs ++ y :: ys) o⟩ := by
  refine ⟨⟨r, y, d⟩, ?_, ?_, (after_ahead q r x y d o xs ys).symm⟩
  · rw [situation_ahead]
    exact h.1
  · rintro ⟨hq, hx⟩
    have hs := situation_ahead q o xs ys x
    have hf : Rule.isFixed ⟨(ahead q o xs (x :: ys)).situation, ⟨r, y, d⟩⟩ = true :=
      Bool.and_eq_true_iff.2 ⟨hq, hx⟩
    rw [hs, h.2] at hf
    exact absurd hf Bool.false_ne_true

theorem Acts.step_right (h : Acts t q x r y .right) :
    Step t (ahead q o xs (x :: ys)) (ahead r o (xs ++ [y]) ys) := by
  have hh : o + ((xs.length + 1 : Nat) : Int) = o + xs.length + Move.right.delta := by
    rw [Move.delta]
    omega
  have hs := h.step o xs ys
  rw [← hh] at hs
  rw [ahead.eq_def r, List.append_assoc, List.length_append]
  exact hs

theorem Acts.step_left (h : Acts t q x r y .left) :
    Step t (ahead q o xs (x :: ys)) (back r o xs (y :: ys)) := h.step o xs ys

theorem Acts.step_hold (h : Acts t q x r y .hold) (o : Int) (xs ys : List Atom) :
    Step t (ahead q o xs (x :: ys)) (ahead r o xs (y :: ys)) := by
  have hs := h.step o xs ys
  rw [Move.delta, Int.add_zero] at hs
  exact hs

/-- In the state `q` and under the symbol `x` the table has a rule that is an end. -/
def Stops (t : Table) (q x : Atom) : Prop :=
  ((t.find? ⟨q, x⟩).any fun a => Rule.isFixed ⟨⟨q, x⟩, a⟩) = true

instance (t : Table) (q x : Atom) : Decidable (Stops t q x) :=
  inferInstanceAs (Decidable (_ = true))

theorem Stops.halting (h : Stops t q x) : Halting t (ahead q o xs (x :: ys)) := by
  obtain ⟨a, ha, hf⟩ := (Option.any_eq_true _ _).1 h
  refine ⟨a, ?_, Bool.and_eq_true_iff.1 ?_⟩
  · rw [situation_ahead]
    exact ha
  · have hs := situation_ahead q o xs ys x
    rw [← hs] at hf
    exact hf

/-! ### Whole sweeps -/

/-- In all of the given states, all of the given symbols `a` are replaced by `f a`, and the head
goes on in the direction `d` in one of these states again. -/
def Sweeps (t : Table) (d : Move) (states symbols : List Atom) (f : Atom → Atom) : Prop :=
  ∀ q ∈ states, ∀ a ∈ symbols, ∃ r ∈ states, Acts t q a r (f a) d

instance (t : Table) (d : Move) (states symbols : List Atom) (f : Atom → Atom) :
    Decidable (Sweeps t d states symbols f) :=
  inferInstanceAs (Decidable (∀ q ∈ states, ∀ a ∈ symbols, ∃ r ∈ states, Acts t q a r (f a) d))

variable {states symbols as : List Atom} {f : Atom → Atom}

/-- **A sweep to the right** passes all cells of a list and leaves their replacements behind. -/
theorem Sweeps.right (h : Sweeps t .right states symbols f) (o : Int) (xs ys : List Atom)
    (hq : q ∈ states) (ha : ∀ a ∈ as, a ∈ symbols) :
    ∃ r ∈ states, Leads t as.length (ahead q o xs (as ++ ys)) (ahead r o (xs ++ as.map f) ys) := by
  induction as generalizing q xs with
  | nil =>
    rw [List.map_nil, List.append_nil]
    exact ⟨q, hq, .refl _⟩
  | cons a as ih =>
    obtain ⟨p, hp, hact⟩ := h q hq a (ha a List.mem_cons_self)
    obtain ⟨r, hr, hl⟩ := ih (xs ++ [f a]) hp fun b hb => ha b (List.mem_cons_of_mem a hb)
    rw [List.append_assoc] at hl
    exact ⟨r, hr, hl.head hact.step_right⟩

/-- **A sweep to the left.** -/
theorem Sweeps.left (h : Sweeps t .left states symbols f) (o : Int) (xs ys : List Atom)
    (hq : q ∈ states) (ha : ∀ a ∈ as, a ∈ symbols) :
    ∃ r ∈ states, Leads t as.length (back q o (xs ++ as) ys) (back r o xs (as.map f ++ ys)) := by
  induction as using List.reverseRecOn generalizing q ys with
  | nil =>
    rw [List.append_nil]
    exact ⟨q, hq, .refl _⟩
  | append_singleton as a ih =>
    obtain ⟨p, hp, hact⟩ := h q hq a (ha a (List.mem_append_right as List.mem_cons_self))
    obtain ⟨r, hr, hl⟩ := ih (f a :: ys) hp fun b hb => ha b (List.mem_append_left [a] hb)
    have hs : Step t (back q o (xs ++ (as ++ [a])) ys) (back p o (xs ++ as) (f a :: ys)) := by
      rw [← List.append_assoc, back_concat]
      exact hact.step_left
    rw [List.map_append, List.append_assoc, List.length_append]
    exact ⟨r, hr, hl.head hs⟩

end Configuration

/-! ### Machines with a row of cells -/

def Rule.numbered (q : Int) (x : Atom) (r : Int) (y : Atom) (d : Move) : Rule :=
  ⟨⟨.number q, x⟩, ⟨.number r, y, d⟩⟩

theorem Machine.configuration_new_ofList (cells : List Atom) (q : Atom) (t : Table) :
    (Machine.new (.ofList cells) q t).configuration = .ahead q 0 [] cells := by
  rw [configuration, new, Tape.read_ofList_eq_laid]
  rfl

end TapeMachine

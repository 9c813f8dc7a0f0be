import TapeMachine.Machine
import TapeMachine.Proofs.Trimming

/-!
# Machines that are moved or mirrored

A machine may work somewhere else on its tape, or the other way round, or with more blanks in its
arrays: it does the same there.  The two machines of such a pair are compared step by step, atom by
atom, where atoms may be compared by equality or by anything else that tells apart what is not
alike.

* `Isometry`: a translation or a reflection of the positions.
* `Comparison`: a way to compare atoms.
* `Comparison.Image`: a machine is the image of another one; `Image.next`, `Image.perform`: what one
  step makes of the two.
* `forall₂_trimmed`: the cells that the two tapes show.
* `run_image`: runs of a machine and of its image are images of each other.
-/

namespace TapeMachine

/-! ### Isometries -/

/-- The map `p ↦ p + shift`, or `p ↦ -p + shift` if positions are reflected. -/
structure Isometry where
  reflected : Bool
  shift : Int

namespace Isometry

variable (f : Isometry) (p q : Int)

def apply : Int := if f.reflected then -p + f.shift else p + f.shift

def invert (q : Int) : Int := if f.reflected then f.shift - q else q - f.shift

/-- The move of the image: a reflection exchanges left and right. -/
def move (m : Move) : Move := if f.reflected then m.opposite else m

/-- The listing of the image: a reflection lists the cells in opposite order. -/
def turn (cells : List Atom) : List Atom := if f.reflected then cells.reverse else cells

def stretchStart (n : Nat) : Int :=
  if f.reflected then -(p + n) + 1 + f.shift else p + f.shift

variable {f p q}

theorem apply_inj : f.apply p = f.apply q ↔ p = q := by
  unfold apply
  split <;> omega

theorem apply_add_delta (m : Move) : f.apply (p + m.delta) = f.apply p + (f.move m).delta := by
  unfold apply move
  split
  · rw [Move.delta_opposite]
    omega
  · omega

theorem apply_invert : f.apply (f.invert q) = q := by
  unfold apply invert
  split <;> omega

theorem outside_of_apply {n : Nat}
    (h : f.apply p < f.stretchStart q n ∨ f.stretchStart q n + n ≤ f.apply p) :
    p < q ∨ q + n ≤ p := by
  unfold apply stretchStart at h
  split at h <;> omega

theorem turn_stretch (f : Isometry) (cells : Int → Atom) (p : Int) (n : Nat) :
    f.turn (Tape.stretch cells p n) =
      Tape.stretch (fun q => cells (f.invert q)) (f.stretchStart p n) n := by
  unfold turn invert stretchStart
  split
  · refine List.ext_getElem (by simp [Tape.length_stretch]) fun i _ hi => ?_
    rw [Tape.length_stretch] at hi
    rw [List.getElem_reverse, Tape.getElem_stretch, Tape.getElem_stretch, Tape.length_stretch]
    exact congrArg cells (by omega)
  · refine List.ext_getElem (by simp [Tape.length_stretch]) fun i _ _ => ?_
    rw [Tape.getElem_stretch, Tape.getElem_stretch]
    exact congrArg cells (by omega)

theorem turn_trimBlanks (f : Isometry) (cells : List Atom) :
    f.turn (Tape.trimBlanks cells) = Tape.trimBlanks (f.turn cells) := by
  unfold turn
  split
  · rw [Tape.trimBlanks_reverse]
  · rfl

end Isometry

/-! ### Comparisons -/

/-- A way to compare atoms that only identifies atoms that are alike. -/
structure Comparison where
  same : Atom → Atom → Prop
  like_of_same : ∀ {a b : Atom}, same a b → a.like b = true

namespace Comparison

def exact : Comparison where
  same := Eq
  like_of_same := by
    rintro a _ rfl
    exact a.like_refl

def likeness : Comparison := ⟨fun a b => a.like b = true, id⟩

variable {c : Comparison} {a b : Atom}

theorem isBlankCell_eq (h : c.same a b) : Tape.isBlankCell a = Tape.isBlankCell b := by
  have hl := c.like_of_same h
  cases a <;> cases b <;> first | rfl | exact nomatch hl

theorem forall₂_dropWhile {l k : List Atom} (h : List.Forall₂ c.same l k) :
    List.Forall₂ c.same (l.dropWhile Tape.isBlankCell) (k.dropWhile Tape.isBlankCell) := by
  induction h with
  | nil => exact .nil
  | @cons a b l k hab hlk ih =>
    by_cases ha : Tape.isBlankCell a = true
    · have hb : Tape.isBlankCell b = true := (isBlankCell_eq hab).symm.trans ha
      rw [List.dropWhile_cons_of_pos ha, List.dropWhile_cons_of_pos hb]
      exact ih
    · have hb : ¬ Tape.isBlankCell b = true := fun hb => ha ((isBlankCell_eq hab).trans hb)
      rw [List.dropWhile_cons_of_neg ha, List.dropWhile_cons_of_neg hb]
      exact .cons hab hlk

theorem forall₂_trimBlanks {l k : List Atom} (h : List.Forall₂ c.same l k) :
    List.Forall₂ c.same (Tape.trimBlanks l) (Tape.trimBlanks k) := by
  rw [Tape.trimBlanks, Tape.trimBlanks, List.forall₂_reverse_iff]
  refine forall₂_dropWhile ?_
  rw [List.forall₂_reverse_iff]
  exact forall₂_dropWhile h

/-! ### Images of tapes -/

theorem forall₂_stretch {cells₁ cells₂ : Int → Atom} (h : ∀ q, c.same (cells₁ q) (cells₂ q))
    (p : Int) (n : Nat) :
    List.Forall₂ c.same (Tape.stretch cells₁ p n) (Tape.stretch cells₂ p n) := by
  rw [Tape.stretch, Tape.stretch, List.forall₂_map_left_iff, List.forall₂_map_right_iff,
    List.forall₂_same]
  intro i _
  exact h (p + i)

/-- **The trimmed cells of an image** are those of the tape, in the order of the image.  Neither the
split of a tape at the origin nor the blanks in its arrays show. -/
theorem forall₂_trimmed {f : Isometry} {t₁ t₂ : Tape}
    (h : ∀ p, c.same (t₁.read p) (t₂.read (f.apply p))) :
    List.Forall₂ c.same (f.turn t₁.trimmed) t₂.trimmed := by
  let p : Int := -t₁.left.size
  let n := t₁.left.size + t₁.right.size
  have hread (q : Int) : c.same (t₁.read (f.invert q)) (t₂.read q) := by
    have hq := h (f.invert q)
    rw [Isometry.apply_invert] at hq
    exact hq
  have hout : Tape.BlankOutside t₂.read (f.stretchStart p n) n := by
    intro q hq
    rw [← f.apply_invert (q := q)] at hq
    have hb := t₁.blankOutside_contents (f.invert q) (Isometry.outside_of_apply hq)
    rw [← Tape.isBlankCell_iff, ← isBlankCell_eq (hread q), hb]
    rfl
  rw [Tape.trimmed_eq_of_blankOutside hout, Tape.trimmed, Tape.contents_eq_stretch,
    Isometry.turn_trimBlanks, Isometry.turn_stretch]
  exact forall₂_trimBlanks (forall₂_stretch hread _ n)

/-! ### Images of machines -/

structure SameAction (c : Comparison) (f : Isometry) (a b : Action) : Prop where
  state : c.same a.state b.state
  symbol : c.same a.symbol b.symbol
  move : b.move = f.move a.move

/-- The machine `m₂` is to the positions `f p` what `m₁` is to the positions `p`. -/
structure Image (c : Comparison) (f : Isometry) (m₁ m₂ : Machine) : Prop where
  state : c.same m₁.state m₂.state
  head : m₂.tape.head = f.apply m₁.tape.head
  cells : ∀ p, c.same (m₁.tape.read p) (m₂.tape.read (f.apply p))
  table : ∀ s, Option.Rel (c.SameAction f) (m₁.table.find? s) (m₂.table.find? s)

inductive SameNext (c : Comparison) (f : Isometry) : Next → Next → Prop
  | stuck : SameNext c f .stuck .stuck
  | halt : SameNext c f .halt .halt
  | act {a b : Action} : c.SameAction f a b → SameNext c f (.act a) (.act b)

namespace SameNext

variable {f : Isometry} {n : Next} {a : Action}

theorem eq_stuck (h : c.SameNext f .stuck n) : n = .stuck := by
  cases h
  rfl

theorem eq_halt (h : c.SameNext f .halt n) : n = .halt := by
  cases h
  rfl

theorem exists_act (h : c.SameNext f (.act a) n) : ∃ b, n = .act b ∧ c.SameAction f a b := by
  cases h with
  | act hab => exact ⟨_, rfl, hab⟩

end SameNext

namespace Image

variable {f : Isometry} {m₁ m₂ : Machine}

theorem symbol (h : c.Image f m₁ m₂) : c.same m₁.tape.readHead m₂.tape.readHead := by
  rw [Tape.readHead, Tape.readHead, h.head]
  exact h.cells m₁.tape.head

theorem situation_like (h : c.Image f m₁ m₂) : m₁.situation.like m₂.situation = true := by
  rw [Situation.like, Bool.and_eq_true]
  exact ⟨c.like_of_same h.state, c.like_of_same h.symbol⟩

theorem isFixed_eq (h : c.Image f m₁ m₂) {a b : Action} (hab : c.SameAction f a b) :
    Rule.isFixed ⟨m₁.situation, a⟩ = Rule.isFixed ⟨m₂.situation, b⟩ := by
  have hq := Atom.like_congr₂ (c.like_of_same hab.state) (c.like_of_same h.state)
  have hx := Atom.like_congr₂ (c.like_of_same hab.symbol) (c.like_of_same h.symbol)
  simp only [Rule.isFixed, Machine.situation, hq, hx]

theorem action? (h : c.Image f m₁ m₂) :
    Option.Rel (c.SameAction f) m₁.action? m₂.action? := by
  have ht := h.table m₁.situation
  rw [m₂.table.find?_congr h.situation_like] at ht
  exact ht

/-- **What the two are about to do is the same.** -/
theorem next (h : c.Image f m₁ m₂) : c.SameNext f m₁.next m₂.next := by
  have ha := h.action?
  rw [Machine.next, Machine.next]
  cases h₁ : m₁.action? with
  | none =>
    rw [h₁] at ha
    cases h₂ : m₂.action? with
    | none => exact .stuck
    | some b =>
      rw [h₂] at ha
      exact nomatch ha
  | some a =>
    rw [h₁] at ha
    cases h₂ : m₂.action? with
    | none =>
      rw [h₂] at ha
      exact nomatch ha
    | some b =>
      rw [h₂] at ha
      cases ha with
      | some hab =>
        simp only [h.isFixed_eq hab]
        split
        · exact .halt
        · exact .act hab

/-- **What they have done is the same.** -/
theorem perform (h : c.Image f m₁ m₂) {a b : Action} (hab : c.SameAction f a b) :
    c.Image f (m₁.perform a) (m₂.perform b) := by
  refine ⟨hab.state, ?_, fun p => ?_, h.table⟩
  · rw [Machine.head_perform, Machine.head_perform, h.head, hab.move, Isometry.apply_add_delta]
  · rw [Machine.read_perform, Machine.read_perform, h.head]
    by_cases hp : p = m₁.tape.head
    · rw [if_pos hp, if_pos (Isometry.apply_inj.2 hp)]
      exact hab.symbol
    · rw [if_neg hp, if_neg fun he => hp (Isometry.apply_inj.1 he)]
      exact h.cells p

end Image

/-! ### A machine and its mirror image -/

def marker (tape : Tape) (m : Move) : Machine :=
  .new (tape.writeHead (.number 1)) (.number 0)
    (Table.empty.insert ⟨.number 0, .number 1⟩ ⟨.number 0, .number 2, m⟩)

/-- A tape with two blanks in its arrays and the head on the left of them. -/
def storedBlanks : Tape := ⟨#[.blank, .blank], #[], -1⟩

theorem read_storedBlanks (p : Int) : storedBlanks.read p = .blank := by
  rw [Tape.read]
  split
  · rcases p.toNat with _ | _ | _ <;> rfl
  · rfl

theorem image_marker :
    exact.Image ⟨true, -1⟩ (marker .empty .right) (marker storedBlanks .left) := by
  refine ⟨rfl, rfl, fun p => ?_, fun s => ?_⟩
  · have h₁ : (marker .empty .right).tape.read p = if p = 0 then .number 1 else .blank := by
      rw [← show Tape.empty.read p = .blank from ite_self _]
      exact Tape.read_write _ _ _ _
    have h₂ (q : Int) :
        (marker storedBlanks .left).tape.read q = if q = -1 then .number 1 else .blank := by
      rw [← read_storedBlanks q]
      exact Tape.read_write _ _ _ _
    have hp : Isometry.apply ⟨true, -1⟩ p = -1 ↔ p = 0 := by
      simp only [Isometry.apply, if_true]
      omega
    rw [h₁, h₂]
    simp only [hp]
    rfl
  · rw [marker, marker, Machine.new, Machine.new, Table.find?_insert, Table.find?_insert]
    split
    · exact .some ⟨rfl, rfl, rfl⟩
    · exact .none

/-! ### Images of runs -/

/-- Two answers say the same; a missing rule is missing for the same state and symbol. -/
inductive SameAnswer (c : Comparison) :
    Except MissingRule (Nat × Bool) → Except MissingRule (Nat × Bool) → Prop
  | ok (k : Nat) (halted : Bool) : SameAnswer c (.ok (k, halted)) (.ok (k, halted))
  | missing {s₁ s₂ : Situation} (counted : Option Nat) :
    c.same s₁.state s₂.state → c.same s₁.symbol s₂.symbol →
      SameAnswer c (.error ⟨s₁, counted⟩) (.error ⟨s₂, counted⟩)

/-- What two runs have in common: the answer, the machine that is left and what its tape shows. -/
structure RunImage (c : Comparison) (f : Isometry) (r₁ r₂ : Run) : Prop where
  answer : c.SameAnswer r₁.answer r₂.answer
  machine : c.Image f r₁.machine r₂.machine
  trimmed : List.Forall₂ c.same (f.turn r₁.machine.tape.trimmed) r₂.machine.tape.trimmed

variable {f : Isometry} {m₁ m₂ : Machine} {r₁ r₂ : Run}

theorem runImage_of_image (hm : c.Image f r₁.machine r₂.machine) (hk : r₁.steps = r₂.steps)
    (he : r₁.ending = r₂.ending) : c.RunImage f r₁ r₂ := by
  refine ⟨?_, hm, forall₂_trimmed hm.cells⟩
  rw [Run.answer, Run.answer, hk, he]
  cases r₂.ending with
  | halted => exact .ok r₂.steps true
  | stuck => exact .missing none hm.state hm.symbol
  | limited => exact .ok r₂.steps false

/-- Runs with the same limit end after the same number of steps, in the same way.  The induction is
on the limit: either neither machine acts, or both do and the rest of their runs starts from images
again. -/
theorem image_runFrom (h : c.Image f m₁ m₂) (limit : Nat) :
    c.Image f (m₁.runFrom 0 limit).machine (m₂.runFrom 0 limit).machine ∧
      (m₁.runFrom 0 limit).steps = (m₂.runFrom 0 limit).steps ∧
        (m₁.runFrom 0 limit).ending = (m₂.runFrom 0 limit).ending := by
  induction limit generalizing m₁ m₂ with
  | zero => exact ⟨h, rfl, rfl⟩
  | succ limit ih =>
    have hn := h.next
    cases h₁ : m₁.next with
    | stuck =>
      have h₂ : m₂.next = .stuck := (h₁ ▸ hn).eq_stuck
      rw [Machine.runFrom_of_stuck h₁, Machine.runFrom_of_stuck h₂]
      exact ⟨h, rfl, rfl⟩
    | halt =>
      have h₂ : m₂.next = .halt := (h₁ ▸ hn).eq_halt
      rw [Machine.runFrom_of_halt h₁, Machine.runFrom_of_halt h₂]
      exact ⟨h, rfl, rfl⟩
    | act a =>
      obtain ⟨b, h₂, hab⟩ := (h₁ ▸ hn).exists_act
      obtain ⟨hm, hk, he⟩ := ih (h.perform hab)
      rw [Machine.runFrom_of_act h₁, Machine.runFrom_of_act h₂]
      exact ⟨hm, congrArg (1 + ·) hk, he⟩

theorem runImage_runFrom (h : c.Image f m₁ m₂) (limit : Nat) :
    c.RunImage f (m₁.runFrom 0 limit) (m₂.runFrom 0 limit) := by
  obtain ⟨hm, hk, he⟩ := image_runFrom h limit
  exact runImage_of_image hm hk he

/-- **Main result.**  It does not matter where on its tape a machine works, which way round, and how
many blanks are in the arrays: with whatever limit, or with none, runs of a machine and of its image
give the same answer, and what they leave are images of each other that show the same cells. -/
theorem run_image (h : c.Image f m₁ m₂) :
    (∀ limit : Int, c.RunImage f (m₁.run limit) (m₂.run limit)) ∧
      ∀ fuel : Nat, Option.Rel (c.RunImage f) (m₁.settle? fuel) (m₂.settle? fuel) := by
  refine ⟨fun limit => runImage_runFrom h limit.toNat, fun fuel => ?_⟩
  obtain ⟨_, _, he⟩ := image_runFrom h fuel
  simp only [Machine.settle?, he]
  split
  · exact .none
  · exact .some (runImage_runFrom h fuel)

theorem run_image_marker :
    exact.Image ⟨true, -1⟩ (marker .empty .right) (marker storedBlanks .left) ∧
      exact.RunImage ⟨true, -1⟩ ((marker .empty .right).run 5) ((marker storedBlanks .left).run 5) :=
  ⟨image_marker, (run_image image_marker).1 5⟩

end Comparison

end TapeMachine

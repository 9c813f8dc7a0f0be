import TapeMachine.Atom
import TapeMachine.Move

/-!
# The tape

A tape has a cell at every integer position and a head at one of them.  Two arrays hold the cells
that were ever needed: one the positions from 0 upward, one those from -1 downward.  All other cells
are blank.  The arrays only grow, and only as far as a write reaches.

* `Tape.read`: the view of a tape as a function on positions.
* `Tape.read_write`, `Tape.contents_eq_map_read`: writing and listing through that view.
-/

namespace TapeMachine

structure Tape where
  /-- The cells at 0, 1, 2, … -/
  right : Array Atom
  /-- The cells at -1, -2, -3, … -/
  left : Array Atom
  head : Int
  deriving DecidableEq, Repr

namespace Tape

def empty : Tape := ⟨#[], #[], 0⟩

instance : Inhabited Tape := ⟨.empty⟩

/-- A tape filled from position 0 upward, with the head at 0. -/
def ofList (cells : List Atom) : Tape := ⟨cells.toArray, #[], 0⟩

/-! ## Cells -/

def leftIndex (p : Int) : Nat := (-p - 1).toNat

def read (t : Tape) (p : Int) : Atom :=
  if 0 ≤ p then t.right.getD p.toNat .blank else t.left.getD (leftIndex p) .blank

/-- Puts a value at an index; an array that ends before the index is first filled up with blanks. -/
def put (cells : Array Atom) (i : Nat) (a : Atom) : Array Atom :=
  if h : i < cells.size then cells.set i a
  else (cells ++ Array.replicate (i - cells.size) Atom.blank).push a

def write (t : Tape) (p : Int) (a : Atom) : Tape :=
  match t with
  | ⟨right, left, head⟩ =>
    if 0 ≤ p then ⟨put right p.toNat a, left, head⟩ else ⟨right, put left (leftIndex p) a, head⟩

def readHead (t : Tape) : Atom := t.read t.head

def writeHead (t : Tape) (a : Atom) : Tape :=
  let p := t.head
  t.write p a

def move (t : Tape) (m : Move) : Tape :=
  match t with
  | ⟨right, left, head⟩ => ⟨right, left, head + m.delta⟩

/-! ## Listings -/

/-- The stored cells in ascending order of position. -/
def contents (t : Tape) : List Atom := t.left.toList.reverse ++ t.right.toList

def isBlankCell (a : Atom) : Bool := a == .blank

def trimBlanks (cells : List Atom) : List Atom :=
  ((cells.dropWhile isBlankCell).reverse.dropWhile isBlankCell).reverse

def trimmed (t : Tape) : List Atom := trimBlanks t.contents

/-- The positions that are at most `radius` away from a position; none if the radius is negative. -/
def window (center radius : Int) : List Int :=
  (List.range (2 * radius + 1).toNat).map fun (i : Nat) => center - radius + i

def around (t : Tape) (radius : Int) : List Atom := (window t.head radius).map t.read

def describe (t : Tape) : String :=
  s!"Tape(head={t.head}, contents={Text.bracketed (t.contents.map Atom.literal)})"

/-! ## Laws -/

theorem size_put (cells : Array Atom) (i : Nat) (a : Atom) :
    (put cells i a).size = max cells.size (i + 1) := by
  unfold put
  split <;> simp <;> omega

theorem getD_put (cells : Array Atom) (i j : Nat) (a : Atom) :
    (put cells i a).getD j .blank = if j = i then a else cells.getD j .blank := by
  unfold put
  split
  · simp only [Array.getD_eq_getD_getElem?, Array.getElem?_set]
    grind
  · simp only [Array.getD_eq_getD_getElem?, Array.getElem?_push, Array.getElem?_append,
      Array.getElem?_replicate, Array.size_append, Array.size_replicate]
    grind

theorem read_write (t : Tape) (p q : Int) (a : Atom) :
    (t.write p a).read q = if q = p then a else t.read q := by
  obtain ⟨right, left, head⟩ := t
  by_cases hp : 0 ≤ p <;> by_cases hq : 0 ≤ q <;> simp only [write, read, hp, hq, if_true, if_false]
  · rw [getD_put]
    have : q.toNat = p.toNat ↔ q = p := by omega
    simp only [this]
  · rw [if_neg (by omega)]
  · rw [if_neg (by omega)]
  · rw [getD_put]
    have : leftIndex q = leftIndex p ↔ q = p := by unfold leftIndex; omega
    simp only [this]

@[simp]
theorem head_write (t : Tape) (p : Int) (a : Atom) : (t.write p a).head = t.head := by
  obtain ⟨right, left, head⟩ := t
  simp only [write]
  split <;> rfl

@[simp]
theorem head_move (t : Tape) (m : Move) : (t.move m).head = t.head + m.delta := rfl

@[simp]
theorem read_move (t : Tape) (m : Move) (p : Int) : (t.move m).read p = t.read p := rfl

theorem read_ofList (cells : List Atom) (p : Int) :
    (ofList cells).read p = if 0 ≤ p then cells.getD p.toNat .blank else .blank := by
  simp only [read, ofList]
  split <;> simp

theorem length_contents (t : Tape) : t.contents.length = t.left.size + t.right.size := by
  simp [contents]

/-- The listing shows what is read from the leftmost stored cell to the rightmost. -/
theorem contents_eq_map_read (t : Tape) :
    t.contents =
      (List.range (t.left.size + t.right.size)).map fun (i : Nat) => t.read (i - t.left.size) := by
  refine List.ext_getElem (by simp [contents]) fun i h _ => ?_
  rw [length_contents] at h
  simp only [contents, read, leftIndex, List.getElem_append, List.getElem_map, List.getElem_range,
    List.length_reverse, Array.length_toList, List.getElem_reverse, Array.getElem_toList]
  by_cases hi : i < t.left.size
  · have hn : ¬ (0 : Int) ≤ (i : Int) - t.left.size := by omega
    have hx : (-((i : Int) - t.left.size) - 1).toNat = t.left.size - 1 - i := by omega
    simp only [hi, dif_pos, hn, if_false, hx]
    simp [Array.getD, show t.left.size - 1 - i < t.left.size by omega]
  · have hn : (0 : Int) ≤ (i : Int) - t.left.size := by omega
    have hx : ((i : Int) - t.left.size).toNat = i - t.left.size := by omega
    simp only [hi, dif_neg, hn, if_true, hx, not_false_eq_true]
    simp [Array.getD, show i - t.left.size < t.right.size by omega]

end Tape

end TapeMachine

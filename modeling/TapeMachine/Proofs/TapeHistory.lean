import Mathlib.Algebra.Ring.Int.Defs
import Mathlib.Data.List.Induction
import Mathlib.Logic.Function.Basic
import TapeMachine.Proofs.Trimming

/-!
# Histories of a tape

A tape is an array over all the integers that materialises a window of its cells.  What it shows
after any writes, moves and questions is said by its history alone: a cell holds what was written
there last, the head is where the moves lead, and the window is the least one around the origin and
the values that the tape was filled with that has all the written positions.  The split into two
arrays, the index of a negative position and the blanks between two far writes do not show.

* `Tape.Operation`: what can be done with a tape; `Tape.Operation.perform`: what comes of it.
* `Strip`: an array with a window; `Strip.ofHistory`: the one that a history tells of.
* `Tape.asStrip`: what a tape shows; `asStrip_write`, `asStrip_move`: the squares of the two changes.
* `asStrip_perform`, `ofHistory_concat`: one more operation, on either side.
* `after_history`: a tape shows the array of its history.
-/

namespace TapeMachine

/-! ### Operations -/

namespace Tape

/-- What can be done with a tape: the first five change it, the others only look at it. -/
inductive Operation
  | write (p : Int) (a : Atom)
  | writeHead (a : Atom)
  | move (m : Move)
  | moveLeft
  | moveRight
  | read (p : Int)
  | readHead
  | contents
  | trimmed
  | around (radius : Int)

inductive Answer
  | nothing
  | cell (a : Atom)
  | cells (as : List Atom)
  deriving DecidableEq, Repr

/-- Moves the head, with the symbol that is under it then. -/
def moved (t : Tape) (m : Move) : Answer × Tape := (.cell (t.move m).readHead, t.move m)

namespace Operation

def perform (t : Tape) : Operation → Answer × Tape
  | .write p a => (.nothing, t.write p a)
  | .writeHead a => (.nothing, t.writeHead a)
  | .move m => t.moved m
  | .moveLeft => t.moved .left
  | .moveRight => t.moved .right
  | .read p => (.cell (t.read p), t)
  | .readHead => (.cell t.readHead, t)
  | .contents => (.cells t.contents, t)
  | .trimmed => (.cells t.trimmed, t)
  | .around radius => (.cells (t.around radius), t)

def changes : Operation → Bool
  | .write _ _ | .writeHead _ | .move _ | .moveLeft | .moveRight => true
  | .read _ | .readHead | .contents | .trimmed | .around _ => false

def delta : Operation → Int
  | .move m => m.delta
  | .moveLeft => -1
  | .moveRight => 1
  | _ => 0

/-- The position that the operation writes at when the head is at the given one, and the value. -/
def written? (head : Int) : Operation → Option (Int × Atom)
  | .write p a => some (p, a)
  | .writeHead a => some (head, a)
  | _ => none

end Operation

def after (t : Tape) (ops : List Operation) : Tape := ops.foldl (fun t op => (op.perform t).2) t

/-! ### What a history tells -/

def travel (ops : List Operation) : Int := (ops.map Operation.delta).sum

/-- The writes in order, each with its position; the head starts at the given one. -/
def writes (head : Int) : List Operation → List (Int × Atom)
  | [] => []
  | op :: ops => (op.written? head).toList ++ writes (head + op.delta) ops

theorem writes_append (head : Int) (ops ops' : List Operation) :
    writes head (ops ++ ops') = writes head ops ++ writes (head + travel ops) ops' := by
  induction ops generalizing head with
  | nil =>
    have ht : travel [] = 0 := rfl
    rw [ht, Int.add_zero]
    rfl
  | cons op ops ih =>
    have ht : travel (op :: ops) = op.delta + travel ops := List.sum_cons
    rw [List.cons_append, writes, writes, ih, ht, List.append_assoc, Int.add_assoc]

theorem travel_concat (ops : List Operation) (op : Operation) :
    travel (ops ++ [op]) = travel ops + op.delta := by
  rw [travel, travel, List.map_append, List.sum_append, List.map_singleton, List.sum_singleton]

def lastWritten? (ws : List (Int × Atom)) (p : Int) : Option Atom :=
  ((ws.filter fun w => w.1 = p).map Prod.snd).getLast?

/-- The least of the written positions, or the origin. -/
def lowest (ws : List (Int × Atom)) : Int := (ws.map Prod.fst).foldl min 0

/-- The end of the values that were filled in or of the written positions from the origin on,
whichever comes last. -/
def highest (vs : List Atom) (ws : List (Int × Atom)) : Int :=
  (((ws.map Prod.fst).filter fun p => 0 ≤ p).map (· + 1)).foldl max vs.length

theorem lastWritten?_concat (ws : List (Int × Atom)) (w : Int × Atom) (p : Int) :
    lastWritten? (ws ++ [w]) p = if p = w.1 then some w.2 else lastWritten? ws p := by
  rw [lastWritten?, lastWritten?, List.filter_append]
  by_cases h : p = w.1
  · have hw : [w].filter (fun w => w.1 = p) = [w] := by simp [h]
    rw [hw, if_pos h, List.map_append, List.map_singleton, List.getLast?_concat]
  · have hw : [w].filter (fun w => w.1 = p) = [] := by simp [Ne.symm h]
    rw [hw, if_neg h, List.append_nil]

theorem lowest_concat (ws : List (Int × Atom)) (w : Int × Atom) :
    lowest (ws ++ [w]) = min (lowest ws) w.1 := by
  rw [lowest, List.map_append, List.foldl_append]
  rfl

theorem highest_concat (vs : List Atom) (ws : List (Int × Atom)) (w : Int × Atom) :
    highest vs (ws ++ [w]) =
      if 0 ≤ w.1 then max (highest vs ws) (w.1 + 1) else highest vs ws := by
  rw [highest, highest, List.map_append, List.filter_append, List.map_append, List.foldl_append,
    List.map_singleton]
  by_cases h : 0 ≤ w.1
  · have hw : [w.1].filter (fun p => 0 ≤ p) = [w.1] := by simp [h]
    rw [hw, if_pos h]
    rfl
  · have hw : [w.1].filter (fun p => 0 ≤ p) = [] := by simp [h]
    rw [hw, if_neg h]
    rfl

end Tape

/-! ### Arrays with a window -/

open Tape

/-- An array over all the integers with a head.  The cells from `low` on and before `high` are
materialised. -/
structure Strip where
  cell : Int → Atom
  low : Int
  high : Int
  head : Int

namespace Strip

def shown (s : Strip) : List Atom := stretch s.cell s.low (s.high - s.low).toNat

def answer (s : Strip) : Operation → Answer
  | .write _ _ | .writeHead _ => .nothing
  | .move m => .cell (s.cell (s.head + m.delta))
  | .moveLeft => .cell (s.cell (s.head - 1))
  | .moveRight => .cell (s.cell (s.head + 1))
  | .read p => .cell (s.cell p)
  | .readHead => .cell (s.cell s.head)
  | .contents => .cells s.shown
  | .trimmed => .cells (trimBlanks s.shown)
  | .around radius => .cells ((window s.head radius).map s.cell)

/-- The array after a history that starts with the given values from the origin on: what was written
last stands in each cell, and the window is as wide as the writes ask for. -/
def ofHistory (vs : List Atom) (ops : List Operation) : Strip where
  cell p := (lastWritten? (writes 0 ops) p).getD (if 0 ≤ p then vs.getD p.toNat .blank else .blank)
  low := lowest (writes 0 ops)
  high := highest vs (writes 0 ops)
  head := travel ops

def write (s : Strip) (p : Int) (a : Atom) : Strip where
  cell := Function.update s.cell p a
  low := min s.low p
  high := if 0 ≤ p then max s.high (p + 1) else s.high
  head := s.head

def put (s : Strip) : Option (Int × Atom) → Strip
  | none => s
  | some (p, a) => s.write p a

def move (s : Strip) (d : Int) : Strip := { s with head := s.head + d }

theorem ofHistory_concat (vs : List Atom) (ops : List Operation) (op : Operation) :
    ofHistory vs (ops ++ [op]) =
      ((ofHistory vs ops).put (op.written? (travel ops))).move op.delta := by
  have hw : writes 0 (ops ++ [op]) = writes 0 ops ++ (op.written? (travel ops)).toList := by
    rw [writes_append, Int.zero_add]
    exact congrArg (writes 0 ops ++ ·) (List.append_nil _)
  rw [ofHistory, hw, travel_concat]
  cases op.written? (travel ops) with
  | none =>
    rw [Option.toList_none, List.append_nil]
    rfl
  | some w =>
    have hc : (fun p => (lastWritten? (writes 0 ops ++ [w]) p).getD
        (if 0 ≤ p then vs.getD p.toNat .blank else .blank)) =
          Function.update (ofHistory vs ops).cell w.1 w.2 := by
      funext p
      rw [lastWritten?_concat, Function.update_apply]
      by_cases hp : p = w.1
      · rw [if_pos hp, if_pos hp]
        rfl
      · rw [if_neg hp, if_neg hp]
        rfl
    rw [Option.toList_some, hc, lowest_concat, highest_concat]
    rfl

end Strip

/-! ### What a tape shows -/

namespace Tape

variable (t : Tape)

def asStrip : Strip := ⟨t.read, -t.left.size, t.right.size, t.head⟩

theorem asStrip_ofList (vs : List Atom) : (ofList vs).asStrip = Strip.ofHistory vs [] := by
  have hc : (ofList vs).read = (Strip.ofHistory vs []).cell := funext (read_ofList vs)
  rw [asStrip, hc]
  rfl

theorem size_left_write (p : Int) (a : Atom) :
    ((t.write p a).left.size : Int) = max (t.left.size : Int) (-p) := by
  obtain ⟨right, left, head⟩ := t
  by_cases hp : 0 ≤ p
  · simp only [write, hp, if_true]
    omega
  · simp only [write, hp, if_false, size_put, leftIndex]
    omega

theorem size_right_write (p : Int) (a : Atom) :
    ((t.write p a).right.size : Int) = max (t.right.size : Int) (p + 1) := by
  obtain ⟨right, left, head⟩ := t
  by_cases hp : 0 ≤ p
  · simp only [write, hp, if_true, size_put]
    omega
  · simp only [write, hp, if_false]
    omega

/-- **A write.**  The array on the side of the position grows, if it must, up to the position. -/
theorem asStrip_write (p : Int) (a : Atom) : (t.write p a).asStrip = t.asStrip.write p a := by
  have hc : (t.write p a).read = Function.update t.read p a := by
    funext q
    rw [read_write, Function.update_apply]
  have hl : -((t.write p a).left.size : Int) = min (-(t.left.size : Int)) p := by
    rw [size_left_write]
    omega
  have hr : ((t.write p a).right.size : Int) =
      if 0 ≤ p then max (t.right.size : Int) (p + 1) else t.right.size := by
    rw [size_right_write]
    split <;> omega
  rw [asStrip, hc, hl, hr, head_write]
  rfl

theorem asStrip_move (m : Move) : (t.move m).asStrip = t.asStrip.move m.delta := rfl

/-- **One more operation.** -/
theorem asStrip_perform (op : Operation) :
    (op.perform t).2.asStrip = (t.asStrip.put (op.written? t.head)).move op.delta := by
  have hstay : t.asStrip = t.asStrip.move 0 := by
    rw [Strip.move, Int.add_zero]
  have hwrite (p : Int) (a : Atom) : (t.write p a).asStrip = (t.asStrip.write p a).move 0 := by
    rw [asStrip_write, Strip.move, Int.add_zero]
  cases op with
  | write p a => exact hwrite p a
  | writeHead a => exact hwrite t.head a
  | move m => exact t.asStrip_move m
  | moveLeft => exact t.asStrip_move .left
  | moveRight => exact t.asStrip_move .right
  | read _ => exact hstay
  | readHead => exact hstay
  | contents => exact hstay
  | trimmed => exact hstay
  | around _ => exact hstay

theorem contents_eq_shown : t.contents = t.asStrip.shown := by
  have hn : ((t.right.size : Int) - -(t.left.size : Int)).toNat = t.left.size + t.right.size := by
    omega
  rw [contents_eq_stretch, Strip.shown, asStrip, hn]

theorem answer_perform (op : Operation) : (op.perform t).1 = t.asStrip.answer op := by
  cases op with
  | contents => exact congrArg Answer.cells t.contents_eq_shown
  | trimmed => exact congrArg (fun cells => Answer.cells (trimBlanks cells)) t.contents_eq_shown
  | _ => rfl

theorem after_concat (ops : List Operation) (op : Operation) :
    t.after (ops ++ [op]) = (op.perform (t.after ops)).2 := by
  rw [after, List.foldl_append]
  rfl

/-- **Any number of operations**, by induction on the history. -/
theorem asStrip_after (vs : List Atom) (ops : List Operation) :
    ((ofList vs).after ops).asStrip = Strip.ofHistory vs ops := by
  induction ops using List.reverseRecOn with
  | nil => exact asStrip_ofList vs
  | append_singleton ops op ih =>
    -- where a write under the head goes is known from the history before it
    have hh : ((ofList vs).after ops).head = travel ops := congrArg Strip.head ih
    rw [after_concat, asStrip_perform, ih, hh, Strip.ofHistory_concat]

theorem perform_of_not_changes {op : Operation} (h : ¬ op.changes = true) :
    (op.perform t).2 = t := by
  cases op with
  | write | writeHead | move | moveLeft | moveRight => exact absurd rfl h
  | read | readHead | contents | trimmed | around => rfl

theorem after_filter_changes (ops : List Operation) :
    t.after (ops.filter Operation.changes) = t.after ops := by
  induction ops generalizing t with
  | nil => rfl
  | cons op ops ih =>
    by_cases h : op.changes = true
    · rw [List.filter_cons_of_pos h]
      exact ih (op.perform t).2
    · rw [List.filter_cons_of_neg h, ih]
      show t.after ops = (op.perform t).2.after ops
      rw [perform_of_not_changes t h]

/-- **A tape shows the array of its history.**  Whatever was done with a tape that was filled with
values from the origin on, each cell reads as what was written there last, the head is where the
moves have led, and the listing has the cells of the least window around all of this.  Every further
operation gives back what it gives on that array, and those that only look change nothing. -/
theorem after_history (vs : List Atom) (ops : List Operation) :
    let t := (ofList vs).after ops
    let s := Strip.ofHistory vs ops
    (∀ p, t.read p = s.cell p) ∧ t.head = s.head ∧ t.contents = s.shown ∧
      (∀ op : Operation, (op.perform t).1 = s.answer op) ∧
        t = (ofList vs).after (ops.filter Operation.changes) ∧ ofList [] = empty := by
  have h := asStrip_after vs ops
  refine ⟨?_, congrArg Strip.head h, ?_, ?_, (after_filter_changes _ ops).symm, rfl⟩
  · intro p
    exact congrFun (congrArg Strip.cell h) p
  · rw [contents_eq_shown, h]
  · intro op
    rw [answer_perform, h]

/-- A write far out materialises blanks up to the origin. -/
example : ((ofList [.number 7]).after [.moveRight, .write (-3) (.truth true), .writeHead (.text "a"),
    .readHead, .move .left]).contents =
      [.truth true, .blank, .blank, .number 7, .text "a"] := by
  decide +kernel

end Tape

end TapeMachine

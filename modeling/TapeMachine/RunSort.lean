/-!
# Sorting with a comparison that can fail

A stable sort that works by runs.  It takes the ascending and the strictly descending runs that are
there, fills short ones up by bisection, and merges neighbouring runs in the order of their powers.
Its result is that of every stable sort; the order of its comparisons decides which failing one is
met first.

* `RunSort.sort`: the sorted list, or the first failure.
-/

namespace TapeMachine.RunSort

variable {α ε : Type}

/-! ## Runs -/

/-- The run that goes on after an item, strictly down or else not down, and what follows it. -/
def runAfter (lt : α → α → Except ε Bool) (down : Bool) (last : α) :
    List α → Except ε (List α × List α)
  | [] => .ok ([], [])
  | x :: xs => do
    if (← lt x last) = down then
      let (run, rest) ← runAfter lt down x xs
      return (x :: run, rest)
    else return ([], x :: xs)

/-- The run at the front, in ascending order, and what follows it. -/
def takeRun (lt : α → α → Except ε Bool) : List α → Except ε (List α × List α)
  | [] => .ok ([], [])
  | [x] => .ok ([x], [])
  | x :: y :: rest => do
    let down ← lt y x
    let (run, rest) ← runAfter lt down y rest
    let run := x :: y :: run
    return (if down then run.reverse else run, rest)

/-- Puts an item behind all items that are not above it, by bisection. -/
def insert (lt : α → α → Except ε Bool) (item : α) (items : List α) : Except ε (List α) :=
  match _h : items.drop (items.length / 2) with
  | [] => .ok [item]
  | mid :: above => do
    let below := items.take (items.length / 2)
    if ← lt item mid then return (← insert lt item below) ++ mid :: above
    else return below ++ mid :: (← insert lt item above)
termination_by items.length
decreasing_by
  · have := congrArg List.length _h
    simp only [List.length_drop, List.length_cons] at this
    simp only [List.length_take]
    omega
  · have := congrArg List.length _h
    simp only [List.length_drop, List.length_cons] at this
    omega

def fill (lt : α → α → Except ε Bool) :
    Nat → List α → List α → Except ε (List α × List α)
  | 0, run, rest => .ok (run, rest)
  | _ + 1, run, [] => .ok (run, [])
  | count + 1, run, x :: rest => do fill lt count (← insert lt x run) rest

/-- Halves a number until it is below 64; `spare`, which is added, is 1 once it was odd. -/
def halved (spare n : Nat) : Nat :=
  if n < 64 then n + spare else halved (if n % 2 = 1 then 1 else spare) (n / 2)
termination_by n

def leastRun (length : Nat) : Nat := halved 0 length

/-- The next run, not shorter than `least` unless the list ends, and what follows it. -/
def nextRun (lt : α → α → Except ε Bool) (least : Nat) (items : List α) :
    Except ε (List α × List α) := do
  let (run, rest) ← takeRun lt items
  fill lt (least - run.length) run rest

/-! ## Merging -/

def merge (lt : α → α → Except ε Bool) : List α → List α → Except ε (List α)
  | [], ys => .ok ys
  | x :: xs, [] => .ok (x :: xs)
  | x :: xs, y :: ys => do
    if ← lt y x then return y :: (← merge lt (x :: xs) ys)
    else return x :: (← merge lt xs (y :: ys))
termination_by xs ys => xs.length + ys.length

/-- The first binary place in which two fractions of `length` differ, counted from 1; the fractions
are given by their doubled numerators. -/
def firstDifference (length : Nat) : Nat → Nat → Nat → Nat
  | 0, _, _ => 1
  | fuel + 1, a, b =>
    if length ≤ a then 1 + firstDifference length fuel (2 * (a - length)) (2 * (b - length))
    else if length ≤ b then 1
    else 1 + firstDifference length fuel (2 * a) (2 * b)

/-- The power of the border between two runs: where the places of their middles differ. -/
def power (length start left right : Nat) : Nat :=
  let a := 2 * start + left
  firstDifference length length a (a + left + right)

/-- Runs that wait to be merged, the last one first, each with the power of the border after it. -/
abbrev Pending (α : Type) := List (Nat × List α)

/-- Merges the last run with the runs before it whose borders have higher powers. -/
def collapse (lt : α → α → Except ε Bool) (power : Nat) :
    Pending α → List α → Except ε (Pending α × List α)
  | [], last => .ok ([], last)
  | (p, run) :: pending, last => do
    if power < p then collapse lt power pending (← merge lt run last)
    else return ((p, run) :: pending, last)

/-- Merges all runs, always two neighbours of the last three and of these the shorter pair. -/
def finish (lt : α → α → Except ε Bool) : List (List α) → List α → Except ε (List α)
  | [], last => .ok last
  | [run], last => merge lt run last
  | run :: before :: runs, last => do
    if before.length < last.length then finish lt ((← merge lt before run) :: runs) last
    else finish lt (before :: runs) (← merge lt run last)
termination_by runs => runs.length

/-! ## Sorting -/

/-- Sorts what follows a run that starts at `start`; `fuel` bounds the number of runs. -/
def sortFrom (lt : α → α → Except ε Bool) (length : Nat) :
    Nat → Pending α → Nat → List α → List α → Except ε (List α)
  | 0, pending, _, last, _ => finish lt (pending.map Prod.snd) last
  | _ + 1, pending, _, last, [] => finish lt (pending.map Prod.snd) last
  | fuel + 1, pending, start, last, x :: rest => do
    let (run, rest) ← nextRun lt (leastRun length) (x :: rest)
    let p := power length start last.length run.length
    let border := start + last.length
    let (pending, last) ← collapse lt p pending last
    sortFrom lt length fuel ((p, last) :: pending) border run rest

def sort (lt : α → α → Except ε Bool) (items : List α) : Except ε (List α) := do
  let (run, rest) ← nextRun lt (leastRun items.length) items
  sortFrom lt items.length items.length [] 0 run rest

end TapeMachine.RunSort

/-!
# Stock programs

The sources of some small machines that come with the library.  Each works on a tape that holds its
input from position 0 on, with the head there.
-/

namespace TapeMachine.Stock

def sourceOf (lines : List String) : String := String.join (lines.map fun line => line ++ "\n")

theorem toList_sourceOf (lines : List String) :
    (sourceOf lines).toList = lines.flatMap fun line => line.toList ++ ['\n'] := by
  have hl (line : String) : (line ++ "\n").toList = line.toList ++ ['\n'] := String.toList_append
  simp only [sourceOf, String.toList_join, List.flatMap_map, hl]

/-- Flips truth values up to the first blank. -/
def bitFlip : String :=
  sourceOf [
    "() -> (1)",
    "(1, true) -> (1, false, Right)",
    "(1, false) -> (1, true, Right)",
    "(1, None) -> (1, None, Hold)"
  ]

/-- Adds one to a binary number in truth values, the most significant one first. -/
def binaryIncrement : String :=
  sourceOf [
    "() -> (0)",
    "(0, true) -> (10, true, Right)",
    "(0, false) -> (10, false, Right)",
    "(10, true) -> (0, true, Right)",
    "(10, false) -> (0, false, Right)",
    "(0, None) -> (1, None, Left)",
    "(10, None) -> (1, None, Left)",
    "(1, true) -> (1, false, Left)",
    "(1, false) -> (2, true, Hold)",
    "(1, None) -> (2, true, Hold)",
    "(2, true) -> (2, true, Hold)"
  ]

/-- Writes twice as many ones behind a row of ones, one blank between the rows.  A one of the row is
marked by a zero while it is doubled. -/
def unaryDouble : String :=
  sourceOf [
    "() -> (0)",
    "(0, 1) -> (1, 0, Right)",
    "(0, None) -> (4, None, Right)",
    "(1, 1) -> (11, 1, Right)",
    "(11, 1) -> (1, 1, Right)",
    "(1, None) -> (2, None, Right)",
    "(11, None) -> (2, None, Right)",
    "(2, 1) -> (12, 1, Right)",
    "(12, 1) -> (2, 1, Right)",
    "(2, None) -> (3, 1, Right)",
    "(12, None) -> (3, 1, Right)",
    "(3, None) -> (5, 1, Left)",
    "(5, 1) -> (15, 1, Left)",
    "(15, 1) -> (5, 1, Left)",
    "(5, None) -> (6, None, Left)",
    "(15, None) -> (6, None, Left)",
    "(6, 1) -> (16, 1, Left)",
    "(16, 1) -> (6, 1, Left)",
    "(6, 0) -> (0, 1, Right)",
    "(16, 0) -> (0, 1, Right)",
    "(4, None) -> (4, None, Hold)",
    "(4, 1) -> (4, 1, Hold)"
  ]

end TapeMachine.Stock

import TapeMachine.Text.Blank

/-! # Moves of the head -/

namespace TapeMachine

inductive Move
  | left
  | hold
  | right
  deriving DecidableEq, Repr

namespace Move

def delta : Move → Int
  | .left => -1
  | .hold => 0
  | .right => 1

def name : Move → String
  | .left => "Left"
  | .hold => "Hold"
  | .right => "Right"

def opposite : Move → Move
  | .left => .right
  | .hold => .hold
  | .right => .left

/-- Reads the name of a move in letters of either case, with blanks around it.  Only ASCII letters
have two cases here: no other letter has a lower-case form spelled with the letters of the names. -/
def read? (text : String) : Option Move :=
  let word := String.ofList ((Text.strip text.toList).map Char.toLower)
  if word = "left" then some .left
  else if word = "hold" then some .hold
  else if word = "right" then some .right
  else none

@[simp]
theorem delta_opposite (m : Move) : m.opposite.delta = -m.delta := by cases m <;> rfl

theorem read?_name (m : Move) : read? m.name = some m := by cases m <;> decide +kernel

end Move

end TapeMachine

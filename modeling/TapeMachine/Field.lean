import TapeMachine.Text.Blank
import TapeMachine.Text.Quoted

/-!
# Fields

Fields are the pieces between the commas of a text, without the blanks around them.  The word `None`
stands for a field without text.

* `Field.ofPiece`: the field of a piece.
* `fields`: the fields of a text.
-/

namespace TapeMachine

open Text

abbrev Field := Option String

/-- The word for a field without text. -/
def Field.absent : String := "None"

def Field.ofPiece (piece : List Char) : Field :=
  let s := String.ofList (strip piece)
  if s = absent then none else some s

def Field.literal : Field → String
  | none => absent
  | some s => quoted s

def pieces (cs : List Char) : List (List Char) := splitAt ',' cs

def fields (cs : List Char) : List Field := (pieces cs).map Field.ofPiece

end TapeMachine

import TapeMachine.Json.Binary64
import TapeMachine.Pairs
import TapeMachine.Text.Quoted

/-!
# JSON values

Objects keep their members in order, and integers are kept apart from numbers with a fraction or an
exponent.  Besides its JSON text a value has a display text, used where it is shown to a reader.
-/

namespace TapeMachine

inductive Json
  | null
  | bool (b : Bool)
  | int (n : Int)
  | real (x : Binary64)
  | str (s : String)
  | arr (items : List Json)
  | obj (members : List (String × Json))

namespace Json

instance : Inhabited Json := ⟨.null⟩

def kindName : Json → String
  | .null => "NoneType"
  | .bool _ => "bool"
  | .int _ => "int"
  | .real _ => "float"
  | .str _ => "str"
  | .arr _ => "list"
  | .obj _ => "dict"

/-- Whether a value counts as set: everything but null, false, zero and what is empty. -/
def isSet : Json → Bool
  | .null => false
  | .bool b => b
  | .int n => n != 0
  | .real x => !x.isZero
  | .str s => s != ""
  | .arr items => !items.isEmpty
  | .obj members => !members.isEmpty

/-! ## Members -/

def get? (key : String) : Json → Option Json
  | .obj members => members.lookup key
  | _ => none

/-- The members of a written object: a repeated name keeps its first place and its last value. -/
def ofMembers (members : List (String × Json)) : Json :=
  .obj (members.foldl (fun acc m => Pairs.put m.1 m.2 acc) [])

/-! ## Display -/

mutual

/-- A value inside a list or an object: texts are quoted. -/
def displayInner : Json → String
  | .null => "None"
  | .bool b => if b then "True" else "False"
  | .int n => toString n
  | .real x => x.render
  | .str s => Text.quoted s
  | .arr items => "[" ++ ", ".intercalate (displayItems items) ++ "]"
  | .obj members => "\x7b" ++ ", ".intercalate (displayMembers members) ++ "\x7d"

def displayItems : List Json → List String
  | [] => []
  | item :: items => displayInner item :: displayItems items

def displayMembers : List (String × Json) → List String
  | [] => []
  | (key, value) :: members =>
    (Text.quoted key ++ ": " ++ displayInner value) :: displayMembers members

end

/-- A value on its own: a text is shown as it is. -/
def display : Json → String
  | .str s => s
  | j => j.displayInner

end Json

end TapeMachine

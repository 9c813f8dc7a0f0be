import TapeMachine.Json.Basic

/-!
# Asking for members

A value that should be an object may be another one.  Whether it mentions a name can be asked of
lists and texts too: a list mentions its items, a text the texts inside it.

* `Json.mentions`: whether a value mentions a name.
* `Json.member`: the value of a name.
-/

namespace TapeMachine.Json

inductive MemberFault
  | missing (name : String)
  | notContainer (value : Json)
  | notObject (value : Json)

/-- What may stand for an item in a value that is no object. -/
def indexRule : Json → String
  | .str _ => "string indices must be integers, not 'str'"
  | .arr _ => "list indices must be integers or slices, not str"
  | value => s!"'{value.kindName}' object is not subscriptable"

def MemberFault.message : MemberFault → String
  | .missing name => Text.quoted name
  | .notContainer value => s!"argument of type '{value.kindName}' is not iterable"
  | .notObject value => value.indexRule

def occursIn (word : List Char) : List Char → Bool
  | [] => word.isEmpty
  | c :: cs => word.isPrefixOf (c :: cs) || occursIn word cs

def isText (text : String) : Json → Bool
  | .str s => s == text
  | _ => false

def mentions (name : String) : Json → Except MemberFault Bool
  | .obj members => .ok (members.lookup name).isSome
  | .arr items => .ok (items.any (isText name))
  | .str s => .ok (occursIn name.toList s.toList)
  | value => .error (.notContainer value)

def member (name : String) : Json → Except MemberFault Json
  | .obj members =>
    match members.lookup name with
    | some value => .ok value
    | none => .error (.missing name)
  | value => .error (.notObject value)

end TapeMachine.Json

import TapeMachine.Json.Printer

/-!
# Settings

Settings are named values in order.  Those that a file gives are laid over the default ones: known
names keep their place, new names follow.  A name is a text as a rule, but pairs in a list may have
any value without parts as their name; numbers that are equal are one name, and so are truth values
and their numbers.

* `Settings.get?`, `Settings.put`: the value of a name.
* `Settings.update`: lays the settings of a JSON value over others.
-/

namespace TapeMachine

namespace Json

/-- The whole number that a value stands for as a name. -/
def wholeNumber? : Json → Option Int
  | .bool b => some (if b then 1 else 0)
  | .int n => some n
  | .real (.finite negative mantissa exponent) =>
    let signed : Int := if negative then -mantissa else mantissa
    if 0 ≤ exponent then some (signed * Nat.pow 2 exponent.toNat)
    else if mantissa % Nat.pow 2 (-exponent).toNat = 0 then
      some (signed / Nat.pow 2 (-exponent).toNat)
    else none
  | _ => none

/-- Whether two values are one name. -/
def sameName (a b : Json) : Bool :=
  match a.wholeNumber?, b.wholeNumber? with
  | some m, some n => m == n
  | none, none =>
    match a, b with
    | .null, .null => true
    | .str s, .str t => s == t
    | .real x, .real y => x == y
    | _, _ => false
  | _, _ => false

/-- The text of a name as a member of an object. -/
def nameText : Json → String
  | .str s => s
  | j => j.render

/-- The parts of a value that is taken apart as a list; an object has its names as parts. -/
def parts? : Json → Option (List Json)
  | .str s => some (s.toList.map fun c => .str (String.singleton c))
  | .arr items => some items
  | .obj members => some (members.map fun m => .str m.1)
  | _ => none

def hasParts : Json → Bool
  | .arr _ => true
  | .obj _ => true
  | _ => false

end Json

/-- Why a value cannot be laid over settings. -/
inductive UpdateFault
  | noList (value : Json)
  | noPair (index : Nat)
  | pairLength (index length : Nat)
  | compoundName (name : Json)

def UpdateFault.message : UpdateFault → String
  | .noList value => s!"'{value.kindName}' object is not iterable"
  | .noPair index => s!"cannot convert dictionary update sequence element #{index} to a sequence"
  | .pairLength index length =>
    s!"dictionary update sequence element #{index} has length {length}; 2 is required"
  | .compoundName name => s!"unhashable type: '{name.kindName}'"

structure Settings where
  entries : List (Json × Json)

namespace Settings

/-! ## Values -/

def get? (s : Settings) (name : String) : Option Json :=
  (s.entries.find? fun e => e.1.sameName (.str name)).map Prod.snd

def put (s : Settings) (name value : Json) : Settings :=
  ⟨Pairs.putBy Json.sameName name value s.entries⟩

def putAll (s : Settings) (members : List (String × Json)) : Settings :=
  members.foldl (fun s m => s.put (.str m.1) m.2) s

/-! ## Updates -/

def pair (index : Nat) (item : Json) : Except UpdateFault (Json × Json) :=
  match item.parts? with
  | none => .error (.noPair index)
  | some [name, value] =>
    if name.hasParts then .error (.compoundName name) else .ok (name, value)
  | some parts => .error (.pairLength index parts.length)

def updatePairs (s : Settings) (index : Nat) : List Json → Except UpdateFault Settings
  | [] => .ok s
  | item :: items =>
    match pair index item with
    | .error fault => .error fault
    | .ok (name, value) => (s.put name value).updatePairs (index + 1) items

/-- An object gives its members, any other value with parts a list of pairs. -/
def update (s : Settings) (value : Json) : Except UpdateFault Settings :=
  match value with
  | .obj members => .ok (s.putAll members)
  | value =>
    match value.parts? with
    | none => .error (.noList value)
    | some items => s.updatePairs 0 items

/-! ## Forms -/

def toJson (s : Settings) : Json := .obj (s.entries.map fun e => (e.1.nameText, e.2))

def listing (s : Settings) : String :=
  String.join (s.entries.map fun e => s!"  {e.1.display}: {e.2.display}\n")

def ofMembers (members : List (String × Json)) : Settings :=
  ⟨members.map fun m => (.str m.1, m.2)⟩

end Settings

end TapeMachine

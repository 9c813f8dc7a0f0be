import TapeMachine.Json.Basic

/-!
# Writing JSON

The text is ASCII: other characters are written as UTF-16 units.  `Json.render` writes one line,
`Json.renderIndented` one item a line, four blanks deeper at each level.  Long integers and deep
nesting can be refused: `Json.refusal?`.
-/

namespace TapeMachine.Json

open Text

/-! ## Strings -/

def unitEscape (unit : Nat) : List Char := '\\' :: 'u' :: hexDigits 4 unit

def units (c : Char) : List Nat :=
  if c.toNat < 0x10000 then [c.toNat]
  else [0xD800 + (c.toNat - 0x10000) / 0x400, 0xDC00 + (c.toNat - 0x10000) % 0x400]

def escapeChar (c : Char) : List Char :=
  if c = '"' ∨ c = '\\' then ['\\', c]
  else if c = '\n' then ['\\', 'n']
  else if c = '\r' then ['\\', 'r']
  else if c = '\t' then ['\\', 't']
  else if c.toNat = 8 then ['\\', 'b']
  else if c.toNat = 12 then ['\\', 'f']
  else if 0x20 ≤ c.toNat ∧ c.toNat < 0x7F then [c]
  else (units c).flatMap unitEscape

def renderString (s : String) : String :=
  String.ofList ('"' :: s.toList.flatMap escapeChar ++ ['"'])

def renderReal : Binary64 → String
  | .nan => "NaN"
  | .infinite false => "Infinity"
  | .infinite true => "-Infinity"
  | x => x.render

/-! ## One line -/

mutual

/-- The text of a value of any size.  What is too large to be written has one, too: `refusal?`. -/
def render : Json → String
  | .null => "null"
  | .bool b => if b then "true" else "false"
  | .int n => toString n
  | .real x => renderReal x
  | .str s => renderString s
  | .arr items => "[" ++ ", ".intercalate (renderItems items) ++ "]"
  | .obj members => "\x7b" ++ ", ".intercalate (renderMembers members) ++ "\x7d"

def renderItems : List Json → List String
  | [] => []
  | item :: items => render item :: renderItems items

def renderMembers : List (String × Json) → List String
  | [] => []
  | (key, value) :: members => (renderString key ++ ": " ++ render value) :: renderMembers members

end

/-! ## Indented -/

def lineAt (level : Nat) : String := "\n" ++ String.ofList (List.replicate (4 * level) ' ')

/-- Items on lines of their own between two brackets; no items, no lines. -/
def block (level : Nat) (opening closing : String) (items : List String) : String :=
  if items.isEmpty then opening ++ closing
  else
    opening ++ lineAt (level + 1) ++ ("," ++ lineAt (level + 1)).intercalate items ++
      lineAt level ++ closing

mutual

def renderAt (level : Nat) : Json → String
  | .arr items => block level "[" "]" (renderItemsAt (level + 1) items)
  | .obj members => block level "\x7b" "\x7d" (renderMembersAt (level + 1) members)
  | .null => render .null
  | .bool b => render (.bool b)
  | .int n => render (.int n)
  | .real x => render (.real x)
  | .str s => render (.str s)

def renderItemsAt (level : Nat) : List Json → List String
  | [] => []
  | item :: items => renderAt level item :: renderItemsAt level items

def renderMembersAt (level : Nat) : List (String × Json) → List String
  | [] => []
  | (key, value) :: members =>
    (renderString key ++ ": " ++ renderAt level value) :: renderMembersAt level members

end

def renderIndented (j : Json) : String := renderAt 0 j

/-! ## Limits -/

/-- How much is written: digits of an integer, and brackets that are open at once. -/
structure Limits where
  digits : Nat
  nesting : Nat
  deriving DecidableEq, Repr

/-- The limits in a call; it takes the place of a bracket. -/
def Limits.inner (limits : Limits) : Limits := { limits with nesting := limits.nesting - 1 }

inductive WriteFault
  | tooLong (limit : Nat)
  | tooDeep
  deriving DecidableEq, Repr

def WriteFault.message : WriteFault → String
  | .tooLong limit =>
    s!"Exceeds the limit ({limit} digits) for integer string conversion; use " ++
      "sys.set_int_max_str_digits() to increase the limit"
  | .tooDeep => "maximum recursion depth exceeded while encoding a JSON object"

mutual

/-- Why a value is not written, if it is not: the fault of the first integer that is too long or
bracket that is too deep.  So many brackets may still be opened as `room` says. -/
def refusalWithin? (limit : Nat) : Nat → Json → Option WriteFault
  | _, .int n => if limit < (Nat.toDigits 10 n.natAbs).length then some (.tooLong limit) else none
  | 0, .arr _ => some .tooDeep
  | room + 1, .arr items => itemsRefusal? limit room items
  | 0, .obj _ => some .tooDeep
  | room + 1, .obj members => membersRefusal? limit room members
  | _, _ => none

def itemsRefusal? (limit : Nat) : Nat → List Json → Option WriteFault
  | _, [] => none
  | room, item :: items => (refusalWithin? limit room item).or (itemsRefusal? limit room items)

def membersRefusal? (limit : Nat) : Nat → List (String × Json) → Option WriteFault
  | _, [] => none
  | room, (_, value) :: members =>
    (refusalWithin? limit room value).or (membersRefusal? limit room members)

end

def refusal? (limits : Limits) (j : Json) : Option WriteFault :=
  refusalWithin? limits.digits limits.nesting j

end TapeMachine.Json

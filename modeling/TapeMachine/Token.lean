import TapeMachine.Field

/-!
# Tokens

The source of a rule table is a sequence of groups `(…)` and arrows `->` with blanks between them.
A group reaches to the first `)` after it, whatever stands inside, and holds fields.

* `Scanner.step`: what a scanner does with the next character.
* `Token.scan`: the tokens of a source.
-/

namespace TapeMachine

open Text

inductive Token
  | arrow
  | group (fields : List Field)
  deriving DecidableEq, Repr

inductive Fragment
  | group
  | arrow
  deriving DecidableEq, Repr

inductive ScanFault
  | unexpected (c : Char)
  | unfinished (fragment : Fragment)
  deriving DecidableEq, Repr

def Fragment.place : Fragment → String
  | .group => "inside tuple"
  | .arrow => "implication start"

def Fragment.trouble : Fragment → String
  | .group => "unclosed tuple"
  | .arrow => "dangling implication arrow"

def ScanFault.message : ScanFault → String
  | .unexpected c => s!"Unexpected character {quoted (String.singleton c)} in transition table"
  | .unfinished f => s!"Input ended in state '{f.place}' ({f.trouble})"

def Token.describe : Token → String
  | .arrow => "Implication"
  | .group fields => s!"Tuple(fields={bracketed (fields.map Field.literal)})"

/-! ## Scanning -/

/-- A scanner in the middle of a source.  It stands between two tokens or in a fragment of one.  The
complete tokens, the closed fields of the open group and the characters of its open field are kept
last first. -/
structure Scanner where
  fragment? : Option Fragment
  tokens : List Token
  fields : List Field
  buffer : List Char
  deriving DecidableEq, Repr

namespace Scanner

def start : Scanner := ⟨none, [], [], []⟩

def closeField (s : Scanner) : Scanner :=
  { s with fields := Field.ofPiece s.buffer.reverse :: s.fields, buffer := [] }

/-- Closes the open group.  Nothing but blanks after its last comma is no field. -/
def closeGroup (s : Scanner) : Scanner :=
  let s := if (strip s.buffer.reverse).isEmpty then s else s.closeField
  ⟨none, .group s.fields.reverse :: s.tokens, [], []⟩

def step (s : Scanner) (c : Char) : Except ScanFault Scanner :=
  match s.fragment? with
  | none =>
    if isBlank c then .ok s
    else if c = '(' then .ok { s with fragment? := some .group }
    else if c = '-' then .ok { s with fragment? := some .arrow }
    else .error (.unexpected c)
  | some .group =>
    if c = ',' then .ok s.closeField
    else if c = ')' then .ok s.closeGroup
    else .ok { s with buffer := c :: s.buffer }
  | some .arrow =>
    if c = '>' then .ok { s with fragment? := none, tokens := .arrow :: s.tokens }
    else .error (.unexpected c)

def feed (s : Scanner) (cs : List Char) : Except ScanFault Scanner := cs.foldlM step s

/-- The tokens, if the source may end here. -/
def finish (s : Scanner) : Except ScanFault (List Token) :=
  match s.fragment? with
  | none => .ok s.tokens.reverse
  | some f => .error (.unfinished f)

/-! ### Laws -/

theorem feed_cons (s : Scanner) (c : Char) (cs : List Char) :
    s.feed (c :: cs) = s.step c >>= fun s' => s'.feed cs := List.foldlM_cons

@[simp]
theorem feed_singleton (s : Scanner) (c : Char) : s.feed [c] = s.step c := by
  rw [feed_cons]
  exact bind_pure (s.step c)

theorem feed_append (s : Scanner) (cs ds : List Char) :
    s.feed (cs ++ ds) = s.feed cs >>= fun s' => s'.feed ds := List.foldlM_append

end Scanner

def Token.scan (cs : List Char) : Except ScanFault (List Token) :=
  Scanner.start.feed cs >>= Scanner.finish

end TapeMachine

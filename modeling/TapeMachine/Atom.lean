import TapeMachine.Json.Basic

/-!
# Atoms

Atoms name the states of a machine and fill the cells of its tape.  Two atoms are alike if they are
equal, or if one is a truth value and the other its number: true is like 1, false like 0.  Machines
compare atoms by likeness and store them as they are.
-/

namespace TapeMachine

inductive Atom
  | blank
  | truth (b : Bool)
  | number (n : Int)
  | text (s : String)
  deriving DecidableEq, Repr

namespace Atom

instance : Inhabited Atom := ⟨.blank⟩

/-! ## Likeness -/

/-- The representative of an atom's class: truth values as numbers, all others as they are. -/
def canon : Atom → Atom
  | .truth b => .number (if b then 1 else 0)
  | a => a

/-- Likeness, decided without building the representatives. -/
def like : Atom → Atom → Bool
  | .blank, .blank => true
  | .truth a, .truth b => a == b
  | .number m, .number n => m == n
  | .truth b, .number n => n == if b then 1 else 0
  | .number n, .truth b => n == if b then 1 else 0
  | .text s, .text t => s == t
  | _, _ => false

theorem like_iff {a b : Atom} : a.like b = true ↔ a.canon = b.canon := by
  cases a <;> cases b <;> simp [like, canon]
  case truth.truth a b => cases a <;> cases b <;> simp
  case truth.number b n => exact eq_comm

@[simp]
theorem like_refl (a : Atom) : a.like a = true := like_iff.2 rfl

theorem like_comm (a b : Atom) : a.like b = b.like a := by
  rw [Bool.eq_iff_iff, like_iff, like_iff]
  exact eq_comm

theorem like_congr {a b : Atom} (h : a.like b = true) (c : Atom) : a.like c = b.like c := by
  rw [Bool.eq_iff_iff, like_iff, like_iff, like_iff.1 h]

theorem like_congr₂ {a b c d : Atom} (h : a.like b = true) (g : c.like d = true) :
    a.like c = b.like d := by
  rw [like_congr h, like_comm b, like_comm b, like_congr g]

/-! ## Text forms -/

/-- The form of a symbol in tables, dumps and records. -/
def render : Atom → String
  | .blank => "None"
  | .truth b => if b then "true" else "false"
  | .number n => toString n
  | .text s => s

/-- The form of a state in tables, dumps and messages. -/
def label : Atom → String
  | .truth b => if b then "True" else "False"
  | a => a.render

def literal : Atom → String
  | .text s => Text.quoted s
  | a => a.label

def toJson : Atom → Json
  | .blank => .null
  | .truth b => .bool b
  | .number n => .int n
  | .text s => .str s

/-! ## Order -/

/-- States are listed by number, or by text; a blank state stands alone. -/
def le (a b : Atom) : Bool :=
  match a.canon, b.canon with
  | .number m, .number n => m ≤ n
  | .text s, .text t => s ≤ t
  | .blank, _ => true
  | .number _, .text _ => true
  | _, _ => false

/-- Whether two atoms have an order at all, or are alike. -/
def comparable (a b : Atom) : Bool :=
  match a.canon, b.canon with
  | .blank, .blank => true
  | .number _, .number _ => true
  | .text _, .text _ => true
  | _, _ => false

end Atom

end TapeMachine

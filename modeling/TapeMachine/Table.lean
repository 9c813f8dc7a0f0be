import TapeMachine.Atom
import TapeMachine.Move

/-!
# Rule tables

A rule says what to do in a situation, that is, in a state and under a symbol.  A table holds at
most one rule for situations that are alike.  Its rules stay in the order in which their situations
first came; a new action for a known situation replaces the old one in place.

* `Table.find?`: the view of a table as a partial function on situations.
* `Table.find?_insert`: what an insertion does to the view.
-/

namespace TapeMachine

structure Situation where
  state : Atom
  symbol : Atom
  deriving DecidableEq, Repr

structure Action where
  state : Atom
  symbol : Atom
  move : Move
  deriving DecidableEq, Repr

structure Rule where
  situation : Situation
  action : Action
  deriving DecidableEq, Repr

namespace Situation

def like (s t : Situation) : Bool := s.state.like t.state && s.symbol.like t.symbol

@[simp]
theorem like_refl (s : Situation) : s.like s = true := by simp [like]

theorem like_comm (s t : Situation) : s.like t = t.like s := by
  simp [like, Atom.like_comm s.state, Atom.like_comm s.symbol]

theorem like_congr {s t : Situation} (h : s.like t = true) (u : Situation) :
    s.like u = t.like u := by
  simp only [like, Bool.and_eq_true] at h ⊢
  rw [Atom.like_congr h.1, Atom.like_congr h.2]

/-- The representative of a situation's class. -/
def canon (s : Situation) : Situation := ⟨s.state.canon, s.symbol.canon⟩

theorem like_iff {s t : Situation} : s.like t = true ↔ s.canon = t.canon := by
  rw [like, Bool.and_eq_true, Atom.like_iff, Atom.like_iff, canon, canon, mk.injEq]

def literal (s : Situation) : String := s!"({s.state.literal}, {s.symbol.literal})"

end Situation

/-- A rule whose action leaves its situation as it is: a machine halts there. -/
def Rule.isFixed (r : Rule) : Bool :=
  r.action.state.like r.situation.state && r.action.symbol.like r.situation.symbol

/-! ## Lists of rules -/

def insertRule (s : Situation) (a : Action) : List Rule → List Rule
  | [] => [⟨s, a⟩]
  | r :: rules =>
    if r.situation.like s then ⟨r.situation, a⟩ :: rules else r :: insertRule s a rules

/-- No two rules have situations that are alike. -/
def Distinct (rules : List Rule) : Prop :=
  rules.Pairwise fun r q => r.situation.like q.situation = false

theorem mem_insertRule {s : Situation} {a : Action} {rules : List Rule} {q : Rule}
    (h : q ∈ insertRule s a rules) :
    q.situation = s ∨ ∃ r ∈ rules, r.situation = q.situation := by
  induction rules with
  | nil => simp_all [insertRule]
  | cons r rules ih =>
    simp only [insertRule] at h
    split at h
    · rcases List.mem_cons.1 h with rfl | h
      · exact Or.inr ⟨r, by simp, rfl⟩
      · exact Or.inr ⟨q, by simp [h], rfl⟩
    · rcases List.mem_cons.1 h with rfl | h
      · exact Or.inr ⟨q, by simp, rfl⟩
      · rcases ih h with h | ⟨r', hr, he⟩
        · exact Or.inl h
        · exact Or.inr ⟨r', by simp [hr], he⟩

theorem distinct_insertRule (s : Situation) (a : Action) {rules : List Rule}
    (h : Distinct rules) : Distinct (insertRule s a rules) := by
  induction rules with
  | nil => simp [insertRule, Distinct]
  | cons r rules ih =>
    have hr := (List.pairwise_cons.1 h).1
    have hrules : Distinct rules := (List.pairwise_cons.1 h).2
    simp only [insertRule]
    split
    · exact List.pairwise_cons.2 ⟨hr, hrules⟩
    · refine List.pairwise_cons.2 ⟨fun q hq => ?_, ih hrules⟩
      rcases mem_insertRule hq with rfl | ⟨r', hr', he⟩
      · simp_all
      · rw [← he]
        exact hr r' hr'

/-! ## Tables -/

structure Table where
  rules : List Rule
  distinct : Distinct rules

namespace Table

def empty : Table := ⟨[], List.Pairwise.nil⟩

instance : Inhabited Table := ⟨.empty⟩

def size (t : Table) : Nat := t.rules.length

def find? (t : Table) (s : Situation) : Option Action :=
  (t.rules.find? fun r => r.situation.like s).map Rule.action

def insert (t : Table) (s : Situation) (a : Action) : Table :=
  ⟨insertRule s a t.rules, distinct_insertRule s a t.distinct⟩

/-- Inserts rules in order, so that the last action for a situation stays. -/
def ofList (rules : List Rule) : Table :=
  rules.foldl (fun t r => t.insert r.situation r.action) .empty

@[simp]
theorem find?_empty (s : Situation) : empty.find? s = none := rfl

theorem find?_insert (t : Table) (s u : Situation) (a : Action) :
    (t.insert s a).find? u = if s.like u then some a else t.find? u := by
  obtain ⟨rules, h⟩ := t
  simp only [insert, find?]
  clear h
  induction rules with
  | nil => by_cases hs : s.like u <;> simp [insertRule, hs]
  | cons r rules ih =>
    simp only [insertRule]
    by_cases hr : r.situation.like s
    · rw [if_pos hr]
      simp only [List.find?_cons, Situation.like_congr hr u]
      by_cases hs : s.like u <;> simp [hs]
    · rw [if_neg hr]
      simp only [List.find?_cons]
      by_cases hu : r.situation.like u
      · have hs : s.like u = false := by
          rw [Situation.like_comm, ← Situation.like_congr hu s]
          simpa using hr
        simp [hu, hs]
      · simp only [hu]
        exact ih

theorem find?_congr (t : Table) {s u : Situation} (h : s.like u = true) :
    t.find? s = t.find? u := by
  simp only [find?, Situation.like_comm _ s, Situation.like_comm _ u, Situation.like_congr h]

end Table

end TapeMachine

import Mathlib.Data.Finset.Card
import Mathlib.Data.List.Induction
import TapeMachine.Table

/-!
# Tables built by insertion

A table that is built from the empty one by inserting rules has the action of the last rule for each
situation, and as many entries as the rules have situations that are not alike.

* `IsLast`: the last item of a list with a property.
* `Table.causes`: the situations of a table, each class by its representative; `Table.card_causes`:
  a table has one entry for each.
* `Table.find?_ofList_eq_some_iff`, `Table.size_ofList`: lookups and size after insertions.
-/

namespace TapeMachine

/-! ### Last items -/

section IsLast

variable {α : Type} {p : α → Prop} {a b : α} {l : List α}

/-- `a` is the last item of `l` with the property `p`. -/
def IsLast (p : α → Prop) (a : α) (l : List α) : Prop :=
  ∃ before after, l = before ++ a :: after ∧ p a ∧ ∀ b ∈ after, ¬ p b

theorem not_isLast_nil : ¬ IsLast p a [] := by
  rintro ⟨before, after, h, _⟩
  simp at h

theorem isLast_concat_iff : IsLast p a (l ++ [b]) ↔ p b ∧ a = b ∨ ¬ p b ∧ IsLast p a l := by
  constructor
  · rintro ⟨before, after, h, ha, hn⟩
    rcases List.eq_nil_or_concat' after with rfl | ⟨after', c, rfl⟩
    · obtain ⟨_, rfl⟩ := List.append_singleton_inj.1 h
      exact Or.inl ⟨ha, rfl⟩
    · rw [← List.cons_append, ← List.append_assoc, List.append_singleton_inj] at h
      obtain ⟨rfl, rfl⟩ := h
      exact Or.inr ⟨hn b (List.mem_append_right _ List.mem_cons_self),
        before, after', rfl, ha, fun d hd => hn d (List.mem_append_left _ hd)⟩
  · rintro (⟨hb, rfl⟩ | ⟨hb, before, after, rfl, ha, hn⟩)
    · exact ⟨l, [], rfl, hb, by simp⟩
    · refine ⟨before, after ++ [b], by simp, ha, fun d hd => ?_⟩
      rcases List.mem_append.1 hd with hd | hd
      · exact hn d hd
      · rw [List.mem_singleton.1 hd]
        exact hb

end IsLast

/-- The rule is for situations like the given one. -/
def Rule.Answers (s : Situation) (r : Rule) : Prop := r.situation.like s = true

namespace Table

/-! ### Causes -/

def causes (t : Table) : Finset Situation := (t.rules.map fun r => r.situation.canon).toFinset

theorem card_causes (t : Table) : t.causes.card = t.size := by
  have hn : (t.rules.map fun r => r.situation.canon).Nodup := by
    rw [List.Nodup, List.pairwise_map]
    refine t.distinct.imp fun {r q} h he => ?_
    rw [Situation.like_iff.2 he] at h
    exact absurd h (by simp)
  rw [causes, List.toFinset_card_of_nodup hn, List.length_map, size]

theorem causes_insertRule (s : Situation) (a : Action) (rules : List Rule) :
    ((insertRule s a rules).map fun r => r.situation.canon).toFinset =
      Insert.insert s.canon (rules.map fun r => r.situation.canon).toFinset := by
  induction rules with
  | nil => rfl
  | cons r rules ih =>
    rw [insertRule]
    by_cases h : r.situation.like s = true
    · rw [if_pos h, List.map_cons, List.map_cons, List.toFinset_cons, Situation.like_iff.1 h,
        Finset.insert_idem]
    · rw [if_neg h, List.map_cons, List.map_cons, List.toFinset_cons, List.toFinset_cons, ih,
        Finset.insert_comm]

theorem causes_insert (t : Table) (s : Situation) (a : Action) :
    (t.insert s a).causes = Insert.insert s.canon t.causes :=
  causes_insertRule s a t.rules

/-! ### Lookups -/

theorem find?_eq_some_iff {t : Table} {s : Situation} {a : Action} :
    t.find? s = some a ↔ ∃ r ∈ t.rules, r.Answers s ∧ r.action = a := by
  obtain ⟨rules, hd⟩ := t
  simp only [find?]
  induction rules with
  | nil => simp
  | cons q rules ih =>
    obtain ⟨hq, hrules⟩ := List.pairwise_cons.1 hd
    by_cases hs : q.Answers s
    · have hn : ∀ r ∈ rules, ¬ r.Answers s := by
        intro r hr hrs
        have hqr := hq r hr
        rw [Situation.like_congr hs, Situation.like_comm, hrs] at hqr
        cases hqr
      have hq' : q.situation.like s = true := hs
      rw [List.find?_cons, hq', Option.map_some, Option.some.injEq]
      constructor
      · intro ha
        exact ⟨q, List.mem_cons_self, hs, ha⟩
      · rintro ⟨r, hr, hrs, ha⟩
        rcases List.mem_cons.1 hr with rfl | hr
        · exact ha
        · exact absurd hrs (hn r hr)
    · have hq' : q.situation.like s = false := Bool.eq_false_iff.2 hs
      rw [List.find?_cons, hq', ih hrules]
      constructor
      · rintro ⟨r, hr, hrs, ha⟩
        exact ⟨r, List.mem_cons_of_mem q hr, hrs, ha⟩
      · rintro ⟨r, hr, hrs, ha⟩
        rcases List.mem_cons.1 hr with rfl | hr
        · exact absurd hrs hs
        · exact ⟨r, hr, hrs, ha⟩

/-! ### Rules inserted one after the other -/

theorem ofList_concat (rules : List Rule) (r : Rule) :
    ofList (rules ++ [r]) = (ofList rules).insert r.situation r.action := by
  rw [ofList, List.foldl_append]
  rfl

theorem find?_ofList_concat_of_pos {rules : List Rule} {q : Rule} {s : Situation}
    (h : q.Answers s) : (ofList (rules ++ [q])).find? s = some q.action := by
  rw [ofList_concat, find?_insert]
  exact if_pos h

theorem find?_ofList_concat_of_neg {rules : List Rule} {q : Rule} {s : Situation}
    (h : ¬ q.Answers s) : (ofList (rules ++ [q])).find? s = (ofList rules).find? s := by
  rw [ofList_concat, find?_insert]
  exact if_neg h

/-- **The last rule for a situation stays.** -/
theorem find?_ofList_eq_some_iff {rules : List Rule} {s : Situation} {a : Action} :
    (ofList rules).find? s = some a ↔ ∃ r, IsLast (Rule.Answers s) r rules ∧ r.action = a := by
  induction rules using List.reverseRecOn with
  | nil =>
    constructor
    · intro h
      exact nomatch h
    · rintro ⟨r, hr, _⟩
      exact absurd hr not_isLast_nil
  | append_singleton rules q ih =>
    by_cases h : q.Answers s
    · rw [find?_ofList_concat_of_pos h]
      simp only [isLast_concat_iff, h, not_true, true_and, false_and, or_false, exists_eq_left,
        Option.some.injEq]
    · rw [find?_ofList_concat_of_neg h, ih]
      simp only [isLast_concat_iff, h, not_false_eq_true, true_and, false_and, false_or]

theorem find?_ofList_append (rules later : List Rule) (s : Situation) :
    (ofList (rules ++ later)).find? s = ((ofList later).find? s).or ((ofList rules).find? s) := by
  induction later using List.reverseRecOn with
  | nil =>
    rw [List.append_nil]
    rfl
  | append_singleton later q ih =>
    rw [← List.append_assoc]
    by_cases h : q.Answers s
    · rw [find?_ofList_concat_of_pos h, find?_ofList_concat_of_pos h, Option.some_or]
    · rw [find?_ofList_concat_of_neg h, find?_ofList_concat_of_neg h, ih]

theorem find?_ofList_eq_none_iff {rules : List Rule} {s : Situation} :
    (ofList rules).find? s = none ↔ ∀ r ∈ rules, ¬ r.Answers s := by
  induction rules using List.reverseRecOn with
  | nil =>
    constructor
    · intro _ r hr
      exact absurd hr List.not_mem_nil
    · intro _
      rfl
  | append_singleton rules q ih =>
    by_cases h : q.Answers s
    · rw [find?_ofList_concat_of_pos h]
      constructor
      · intro hn
        exact nomatch hn
      · intro hn
        exact absurd h (hn q (List.mem_append_right _ List.mem_cons_self))
    · rw [find?_ofList_concat_of_neg h, ih]
      constructor
      · intro hn r hr
        rcases List.mem_append.1 hr with hr | hr
        · exact hn r hr
        · rw [List.mem_singleton.1 hr]
          exact h
      · intro hn r hr
        exact hn r (List.mem_append_left _ hr)

/-- **A table has one entry for each class of situations.** -/
theorem size_ofList (rules : List Rule) :
    (ofList rules).size = (rules.map fun r => r.situation.canon).toFinset.card := by
  have hc : (ofList rules).causes = (rules.map fun r => r.situation.canon).toFinset := by
    induction rules using List.reverseRecOn with
    | nil => rfl
    | append_singleton rules q ih =>
      rw [ofList_concat, causes_insert, ih, List.map_append, List.toFinset_append,
        Finset.union_comm]
      rfl
  rw [← card_causes, hc]

end Table

end TapeMachine

import TapeMachine.Proofs.Configuration
import TapeMachine.Proofs.TableInsertion

/-!
# Histories of a table

Rules can be added to a machine at any time, between its steps and runs.  What its table holds then
is told by the rules that came into it, in order, and by nothing else that was done: for each class
of like situations the table has the situation that came first, in the place in which it came, and
the action that came last.

* `Situation.firsts`: the first of each class; `Table.situations_ofList`: those that a table has.
* `Machine.Call`: what can be done with a machine; `Machine.added`: the rules that are added so.
* `table_perform_call`, `table_afterCalls`: the table after one call and after any number of them.
* `find?_ofList_swap`: rules for unlike situations may come in either order.
* `table_history`: what the table of a machine holds, whatever was done with it.
-/

namespace TapeMachine

/-! ### Situations in a table -/

namespace Situation

/-- The first of each class of like situations, in order. -/
def firsts : List Situation → List Situation
  | [] => []
  | s :: situations => s :: (firsts situations).filter fun t => !s.like t

theorem any_like_filter {s u : Situation} (h : s.like u = false) (situations : List Situation) :
    (situations.filter fun t => !s.like t).any (·.like u) = situations.any (·.like u) := by
  induction situations with
  | nil => rfl
  | cons t situations ih =>
    by_cases ht : s.like t = true
    · -- `t` is dropped, and as it is like `s` it is not like `u`
      have htu : t.like u = false := by rw [← like_congr ht, h]
      rw [List.filter_cons_of_neg (by simp [ht]), ih, List.any_cons, htu, Bool.false_or]
    · rw [List.filter_cons_of_pos (by simp [ht]), List.any_cons, ih, List.any_cons]

theorem any_like_firsts (u : Situation) (situations : List Situation) :
    (firsts situations).any (·.like u) = situations.any (·.like u) := by
  induction situations with
  | nil => rfl
  | cons s situations ih =>
    rw [firsts, List.any_cons, List.any_cons]
    cases h : s.like u with
    | true => rfl
    | false => rw [any_like_filter h, ih]

/-- **One more situation** goes to the end if none like it is there. -/
theorem firsts_concat (situations : List Situation) (u : Situation) :
    firsts (situations ++ [u]) =
      firsts situations ++ if situations.any (·.like u) then [] else [u] := by
  induction situations with
  | nil => rfl
  | cons s situations ih =>
    rw [List.cons_append, firsts, ih, firsts, List.filter_append, List.cons_append, List.any_cons]
    -- `u` is kept if neither `s` nor a situation behind it is like it
    cases h : s.like u with
    | true => cases situations.any (·.like u) <;> simp [h]
    | false => cases situations.any (·.like u) <;> simp [h]

end Situation

open Situation

theorem situations_insertRule (s : Situation) (a : Action) (rules : List Rule) :
    (insertRule s a rules).map Rule.situation =
      rules.map Rule.situation ++
        if (rules.map Rule.situation).any (·.like s) then [] else [s] := by
  induction rules with
  | nil => rfl
  | cons r rules ih =>
    rw [insertRule, List.map_cons, List.any_cons]
    by_cases h : r.situation.like s = true
    · rw [if_pos h, h, Bool.true_or, if_pos rfl, List.append_nil, List.map_cons]
    · rw [if_neg h, Bool.eq_false_iff.2 h, Bool.false_or, List.map_cons, ih, List.cons_append]

namespace Table

/-- **The situations of a table** are the first ones of their classes, in the order in which they
came. -/
theorem situations_ofList (rules : List Rule) :
    (ofList rules).rules.map Rule.situation = firsts (rules.map Rule.situation) := by
  induction rules using List.reverseRecOn with
  | nil => rfl
  | append_singleton rules q ih =>
    have hi : ((ofList rules).insert q.situation q.action).rules =
      insertRule q.situation q.action (ofList rules).rules := rfl
    rw [ofList_concat, hi, situations_insertRule, ih, any_like_firsts, List.map_append,
      List.map_singleton, firsts_concat]

theorem find?_situation {t : Table} {r : Rule} (h : r ∈ t.rules) :
    t.find? r.situation = some r.action :=
  find?_eq_some_iff.2 ⟨r, h, like_refl r.situation, rfl⟩

theorem find?_ofList_swap {r q : Rule} (h : r.situation.like q.situation = false)
    (before behind : List Rule) (s : Situation) :
    (ofList (before ++ r :: q :: behind)).find? s =
      (ofList (before ++ q :: r :: behind)).find? s := by
  have htwo : (ofList [r, q]).find? s = (ofList [q, r]).find? s := by
    have h₁ : ofList [r, q] = (empty.insert r.situation r.action).insert q.situation q.action := rfl
    have h₂ : ofList [q, r] = (empty.insert q.situation q.action).insert r.situation r.action := rfl
    rw [h₁, h₂, find?_insert, find?_insert, find?_insert, find?_insert]
    by_cases hr : r.situation.like s = true
    · -- a rule for `s` is not one for a situation that is unlike `s`
      have hq : q.situation.like s = false := by rw [like_comm, ← like_congr hr, h]
      rw [hq, if_neg Bool.false_ne_true, if_neg Bool.false_ne_true]
    · rw [if_neg hr, if_neg hr]
  have hsplit (r q : Rule) :
      before ++ r :: q :: behind = before ++ ([r, q] ++ behind) := rfl
  rw [hsplit r q, hsplit q r, find?_ofList_append, find?_ofList_append before,
    find?_ofList_append [r, q], find?_ofList_append [q, r], htwo]

end Table

/-! ### What is done with a machine -/

namespace Machine

/-- What can be done with a machine.  A run without a limit that comes to its end is one with a
limit that it does not reach. -/
inductive Call
  | addRule (s : Situation) (a : Action)
  | step
  | run (limit : Int)
  | reset
  | insertTape (tape : Tape)

namespace Call

/-- The machine after a call.  If a rule is missing, it is left where the rule was missed. -/
def perform (m : Machine) : Call → Machine
  | .addRule s a => (m.addRule s a).2
  | .step =>
    match m.step with
    | .ok (_, m') => m'
    | .error _ => m
  | .run limit => (m.run limit).machine
  | .reset => m.reset
  | .insertTape tape => m.insertTape tape

def rule? : Call → Option Rule
  | .addRule s a => some ⟨s, a⟩
  | _ => none

end Call

def afterCalls (m : Machine) (calls : List Call) : Machine :=
  calls.foldl (fun m c => c.perform m) m

def added (calls : List Call) : List Rule := calls.filterMap Call.rule?

theorem table_step (m : Machine) : (Call.step.perform m).table = m.table := by
  cases hn : m.next with
  | stuck | halt | act _ => simp only [Call.perform, step, hn, table_perform]

/-- **One call.**  Only those that add a rule touch the table. -/
theorem table_perform_call (m : Machine) (c : Call) :
    (c.perform m).table =
      c.rule?.toList.foldl (fun t r => t.insert r.situation r.action) m.table := by
  cases c with
  | addRule s a => rfl
  | step => exact m.table_step
  | run limit => exact table_runFrom 0 limit.toNat m
  | reset => rfl
  | insertTape tape => rfl

theorem table_perform_of_not_adds {c : Call} (h : c.rule? = none) (m : Machine) :
    (c.perform m).table = m.table := by
  rw [table_perform_call, h]
  rfl

/-- **Any number of calls**, by induction on their list. -/
theorem table_afterCalls {m : Machine} {rows : List Rule} (h : m.table = .ofList rows)
    (calls : List Call) : (m.afterCalls calls).table = .ofList (rows ++ added calls) := by
  induction calls generalizing m rows with
  | nil =>
    rw [added, List.filterMap_nil, List.append_nil]
    exact h
  | cons c calls ih =>
    have hc : (c.perform m).table = .ofList (rows ++ c.rule?.toList) := by
      rw [table_perform_call, h, Table.ofList, Table.ofList, List.foldl_append]
    have hadded : added (c :: calls) = c.rule?.toList ++ added calls := by
      rw [added, List.filterMap_cons]
      cases c.rule? <;> rfl
    rw [hadded, ← List.append_assoc]
    exact ih hc

theorem added_append (calls later : List Call) :
    added (calls ++ later) = added calls ++ added later := List.filterMap_append

theorem find?_afterCalls_swap {m : Machine} {rows : List Rule} (h : m.table = .ofList rows)
    {between : List Call} (hb : added between = []) {s t : Situation} (hst : s.like t = false)
    (a b : Action) (before behind : List Call) (u : Situation) :
    (m.afterCalls (before ++ .addRule s a :: between ++ .addRule t b :: behind)).table.find? u =
      (m.afterCalls
        (before ++ .addRule t b :: between ++ .addRule s a :: behind)).table.find? u := by
  have hcons (s : Situation) (a : Action) (calls : List Call) :
      added (.addRule s a :: calls) = ⟨s, a⟩ :: added calls := rfl
  have hadded (s t : Situation) (a b : Action) :
      rows ++ added (before ++ .addRule s a :: between ++ .addRule t b :: behind) =
        rows ++ added before ++ ⟨s, a⟩ :: ⟨t, b⟩ :: added behind := by
    rw [added_append, added_append, hcons, hcons, hb, List.append_assoc, List.append_assoc]
    rfl
  rw [table_afterCalls h, table_afterCalls h, hadded, hadded]
  exact Table.find?_ofList_swap hst (rows ++ added before) (added behind) u

/-- **The table of a machine** is settled by the rules that came into it.  Whatever was done with a
machine that was built from rows of rules, a call that adds a rule gives back what is looked up just
before it, and what is looked up is the action of the last rule that came for the situation.  No two
situations in the table are alike; each is the first one of its class that came, in the place in
which it came, and stands with the action that is looked up for it.  Nothing but added rules changes
the table, and two that are added for unlike situations may be added in either order. -/
theorem table_history (tape : Tape) (start : Atom) (rows : List Rule) (calls : List Call) :
    let m₀ := Machine.new tape start (.ofList rows)
    let m := m₀.afterCalls calls
    let came := rows ++ added calls
    (∀ s a, (m.addRule s a).1 = m.table.find? s) ∧
      (∀ s a, m.table.find? s = some a ↔ ∃ r, IsLast (Rule.Answers s) r came ∧ r.action = a) ∧
      (∀ s, m.table.find? s = none ↔ ∀ r ∈ came, ¬ r.Answers s) ∧
      (m.table.rules.Pairwise fun r q => r.situation.like q.situation = false) ∧
      m.table.rules.map Rule.situation = firsts (came.map Rule.situation) ∧
      (∀ r ∈ m.table.rules, m.table.find? r.situation = some r.action) ∧
      (∀ c : Call, c.rule? = none → (c.perform m).table = m.table) ∧
      ∀ before between behind s t a b,
        calls = before ++ .addRule s a :: between ++ .addRule t b :: behind →
        added between = [] → s.like t = false →
          ∀ u, m.table.find? u = (m₀.afterCalls
            (before ++ .addRule t b :: between ++ .addRule s a :: behind)).table.find? u := by
  intro m₀ m came
  have h₀ : m₀.table = .ofList rows := rfl
  have hm : m.table = .ofList came := table_afterCalls h₀ calls
  refine ⟨fun _ _ => rfl, fun s a => ?_, fun s => ?_, m.table.distinct, ?_,
    fun r hr => Table.find?_situation hr, fun c hc => table_perform_of_not_adds hc m, ?_⟩
  · rw [hm]
    exact Table.find?_ofList_eq_some_iff
  · rw [hm]
    exact Table.find?_ofList_eq_none_iff
  · rw [hm]
    exact Table.situations_ofList came
  · rintro before between behind s t a b rfl hbetween hst u
    exact find?_afterCalls_swap h₀ hbetween hst a b before behind u

/-- True and 1 are one symbol, and the text of 1 is another one. -/
theorem table_history_of_one :
    let go : Action := ⟨.number 0, .blank, .right⟩
    let stay : Action := ⟨.number 1, .blank, .hold⟩
    let back : Action := ⟨.number 0, .blank, .left⟩
    let m₀ := Machine.new .empty (.number 0) (.ofList [⟨⟨.number 0, .truth true⟩, go⟩])
    let one := Call.addRule ⟨.truth false, .number 1⟩ stay
    let text := Call.addRule ⟨.number 0, .text "1"⟩ back
    let m := m₀.afterCalls [one, .step, text]
    added [.step] = [] ∧
      (⟨.truth false, .number 1⟩ : Situation).like ⟨.number 0, .text "1"⟩ = false ∧
      m.table.rules.map Rule.situation = [⟨.number 0, .truth true⟩, ⟨.number 0, .text "1"⟩] ∧
      m.table.find? ⟨.number 0, .truth true⟩ = some stay ∧
      (Call.reset.perform m).table = m.table ∧
      ∀ u, m.table.find? u = (m₀.afterCalls [text, .step, one]).table.find? u := by
  intro go stay back m₀ one text m
  have hbetween : added [.step] = [] := rfl
  have hunlike : (⟨.truth false, .number 1⟩ : Situation).like ⟨.number 0, .text "1"⟩ = false := by
    decide
  obtain ⟨_, hsome, _, _, hsituations, _, hother, hswap⟩ :=
    table_history .empty (.number 0) [⟨⟨.number 0, .truth true⟩, go⟩] [one, .step, text]
  refine ⟨hbetween, hunlike, hsituations.trans (by decide), ?_, hother .reset rfl,
    hswap [] [.step] [] _ _ stay back rfl hbetween hunlike⟩
  have hlast : IsLast (Rule.Answers ⟨.number 0, .truth true⟩) ⟨⟨.truth false, .number 1⟩, stay⟩
      ([⟨⟨.number 0, .truth true⟩, go⟩] ++ added [one, .step, text]) :=
    ⟨[⟨⟨.number 0, .truth true⟩, go⟩], [⟨⟨.number 0, .text "1"⟩, back⟩], rfl, rfl, by
      intro r hr
      obtain rfl := List.mem_singleton.1 hr
      exact Bool.false_ne_true⟩
  exact (hsome _ stay).2 ⟨_, hlast, rfl⟩

end Machine

end TapeMachine

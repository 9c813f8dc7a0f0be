import TapeMachine.Machine.Watch
import TapeMachine.Proofs.Locality

/-!
# Machines that get more rules

A run looks only at rules that it finds, up to the situation that it may get stuck in.  So a machine
with more rules first does what the machine without them does, and then goes on from there.  A run
that did not get stuck has nothing left to go on with: it stays the same.  A run that got stuck can
be taken up again once the missing rule is there, and comes to what it would have come to had the
rule been there from the start.

* `Machine.withTable`: a machine with other rules.
* `runFrom_withTable`: a run with more rules, by induction on its limit.
* `watch_more_rules`: the two consequences, for watched runs.
-/

namespace TapeMachine

namespace Run

/-- What a watched run tells: its steps and whether the machine halted, or the rule that was missing
together with the steps taken before it was missed. -/
def report (r : Run) : Except MissingRule (Nat × Bool) :=
  match r.ending with
  | .stuck => .error (r.machine.missing (some r.steps))
  | .halted => .ok (r.steps, true)
  | .limited => .ok (r.steps, false)

theorem report_eq_error_iff {r : Run} {s : Situation} {k : Nat} :
    r.report = .error ⟨s, some k⟩ ↔ r.ending = .stuck ∧ r.machine.situation = s ∧ r.steps = k := by
  unfold report
  cases r.ending <;> simp [Machine.missing]

theorem ending_ne_stuck_of_report {r : Run} {answer : Nat × Bool} (h : r.report = .ok answer) :
    r.ending ≠ .stuck := by
  intro hs
  rw [report, hs] at h
  exact nomatch h

theorem report_congr {r r' : Run} (hk : r.steps = r'.steps) (he : r.ending = r'.ending)
    (hs : r.ending ≠ .stuck) : r'.report = r.report := by
  rw [report, report, ← hk, ← he]
  cases h : r.ending with
  | stuck => exact absurd h hs
  | halted => rfl
  | limited => rfl

end Run

namespace Machine

variable {m : Machine} {t : Table}

def withTable (m : Machine) (t : Table) : Machine := { m with table := t }

theorem perform_withTable (m : Machine) (t : Table) (a : Action) :
    (m.withTable t).perform a = (m.perform a).withTable t := rfl

theorem addRule_eq_withTable (m : Machine) (s : Situation) (a : Action) :
    (m.addRule s a).2 = m.withTable (m.table.insert s a) := rfl

/-! ### One run after the other -/

theorem next_withTable_of_act (ht : ∀ s a, m.table.find? s = some a → t.find? s = some a)
    {a : Action} (ha : m.next = .act a) : (m.withTable t).next = .act a := by
  obtain ⟨ha, hf⟩ := next_eq_act_iff.1 ha
  exact next_eq_act_iff.2 ⟨ht m.situation a ha, hf⟩

/-- **A run with more rules** starts with all of the run without them, and goes on with the steps
that are left. -/
theorem runFrom_withTable (ht : ∀ s a, m.table.find? s = some a → t.find? s = some a)
    (limit : Nat) :
    runFrom 0 limit (m.withTable t) =
      (runFrom 0 (limit - (runFrom 0 limit m).steps)
        ((runFrom 0 limit m).machine.withTable t)).delay (runFrom 0 limit m).steps := by
  induction limit generalizing m with
  | zero => rfl
  | succ limit ih =>
    rcases m.rests_or_acts with ⟨x, hr⟩ | ⟨a, ha⟩
    · -- the run without the rules takes no step, so all is left to the second one
      rw [hr limit, Nat.sub_zero, Run.delay, Nat.zero_add]
    · have hs : limit + 1 - (1 + (runFrom 0 limit (m.perform a)).steps) =
          limit - (runFrom 0 limit (m.perform a)).steps := by omega
      rw [runFrom_of_act (next_withTable_of_act ht ha), perform_withTable,
        ih (m := m.perform a) ht, Run.delay_delay, runFrom_of_act ha, Run.steps_delay,
        Run.machine_delay, hs]

/-! ### The missing rule -/

theorem find?_situation_of_stuck {limit : Nat} (h : (runFrom 0 limit m).ending = .stuck) :
    m.table.find? (runFrom 0 limit m).machine.situation = none := by
  have hf := fate_runFrom limit m
  rw [h] at hf
  exact (Configuration.Fate.stuck_iff.1 hf).2.2

theorem find?_insert_of_find? {s u : Situation} {a b : Action} (hs : t.find? s = none)
    (hu : t.find? u = some b) : (t.insert s a).find? u = some b := by
  rw [Table.find?_insert, if_neg, hu]
  intro hl
  rw [t.find?_congr hl, hu] at hs
  exact nomatch hs

/-- **A run that got stuck is taken up** once its missing rule is there. -/
theorem runFrom_addRule {limit : Nat} (h : (runFrom 0 limit m).ending = .stuck) (a : Action) :
    let r := runFrom 0 limit m
    (r.machine.addRule r.machine.situation a).1 = none ∧
      runFrom 0 limit (m.addRule r.machine.situation a).2 =
        (runFrom 0 (limit - r.steps) (r.machine.addRule r.machine.situation a).2).delay
          r.steps := by
  intro r
  have hs : m.table.find? r.machine.situation = none := find?_situation_of_stuck h
  have ht : r.machine.table = m.table := table_runFrom 0 limit m
  refine ⟨?_, ?_⟩
  · show r.machine.table.find? r.machine.situation = none
    rw [ht, hs]
  · rw [addRule_eq_withTable, addRule_eq_withTable, ht]
    exact runFrom_withTable (fun _ _ hu => find?_insert_of_find? hs hu) limit

/-! ### Watched runs -/

open TapeMachine.Comparison

/-- **More rules.**  If a watched run misses a rule, the rule can be put in after it: the machine
had none there, and the rest of the run comes to what a run with the rule in the table from the
start comes to, but for the steps taken before.  And a watched run that misses no rule is the same,
atoms being compared in whatever way, with any table that has the same actions where the machine's
own one has any. -/
theorem watch_more_rules (m : Machine) (limit : Int) {period : Option Int}
    (hp : period ≠ some 0) :
    (∀ s k, (m.watch limit period).run.report = .error ⟨s, some k⟩ → ∀ a,
      let halfway := (m.watch limit period).run.machine
      (halfway.addRule s a).1 = none ∧
        ((m.addRule s a).2.watch limit period).run =
          ((halfway.addRule s a).2.watch (limit - k) period).run.delay k) ∧
    ∀ (c : Comparison) (t : Table), (∀ a, c.same a a) → c.Covers m.table t →
      ∀ answer, (m.watch limit period).run.report = .ok answer →
        let r := (m.watch limit period).run
        let r' := ((m.withTable t).watch limit period).run
        r'.report = .ok answer ∧ c.Twins (fun _ => True) r.machine r'.machine ∧
          List.Forall₂ c.same r.machine.tape.contents r'.machine.tape.contents := by
  refine ⟨?_, ?_⟩
  · intro s k hr a halfway
    have hrun : (m.watch limit period).run = m.run limit := run_watch hp m limit
    obtain ⟨he, hs, hk⟩ := Run.report_eq_error_iff.1 hr
    have hm : halfway = (runFrom 0 limit.toNat m).machine := congrArg Run.machine hrun
    rw [hrun] at he hs hk
    have hl : (limit - (k : Int)).toNat = limit.toNat - k := by omega
    obtain ⟨hnone, hrest⟩ := runFrom_addRule he a
    rw [run_watch hp, run_watch hp, run, run, hl, hm, ← hs, ← hk]
    exact ⟨hnone, hrest⟩
  · intro c t hc ht answer hr r r'
    have hrun : r = runFrom 0 limit.toNat m := run_watch hp m limit
    have hrun' : r' = runFrom 0 limit.toNat (m.withTable t) := run_watch hp (m.withTable t) limit
    have hns : r.ending ≠ .stuck := Run.ending_ne_stuck_of_report hr
    have htwins : c.Twins (fun _ => True) m (m.withTable t) :=
      ⟨hc m.state, rfl, fun p _ => hc (m.tape.read p), ht⟩
    rw [hrun] at hns
    obtain ⟨hm, hk, he, hpath⟩ := twins_runFrom htwins (fun _ _ => trivial) (Or.inl hns)
    -- the two go the same way, so they materialise the same window
    have hlow : r.machine.tape.asStrip.low = r'.machine.tape.asStrip.low := by
      rw [hrun, hrun', low_runFrom, low_runFrom, hpath]
      rfl
    have hhigh : r.machine.tape.asStrip.high = r'.machine.tape.asStrip.high := by
      rw [hrun, hrun', high_runFrom, high_runFrom, hpath]
      rfl
    rw [← hrun, ← hrun'] at hm hk he
    rw [← hrun] at hns
    refine ⟨(Run.report_congr hk he hns).trans hr, hm, ?_⟩
    rw [Tape.contents_eq_shown, Tape.contents_eq_shown, Strip.shown, Strip.shown, ← hlow, ← hhigh]
    exact forall₂_stretch (fun p => hm.cells p trivial) _ _

/-- A rule that a run misses is put in, and the run gets stuck again one cell farther.  A shorter run,
which does not come to the missing rule, does not see that it was put in. -/
theorem watch_more_rules_lone :
    let s : Situation := ⟨.number 1, .blank⟩
    let a : Action := ⟨.number 2, .text "b", .right⟩
    let t := lone.table.insert s a
    let r := (lone.watch 5 none).run
    (r.report = .error ⟨s, some 1⟩ ∧
      ((lone.addRule s a).2.watch 5 none).run =
        ((r.machine.addRule s a).2.watch (5 - (1 : Nat)) none).run.delay 1 ∧
      ((lone.addRule s a).2.watch 5 none).run.report = .error ⟨⟨.number 2, .blank⟩, some 2⟩) ∧
    exact.Covers lone.table t ∧ (lone.watch 1 none).run.report = .ok (1, false) ∧
      ((lone.withTable t).watch 1 none).run.report = .ok (1, false) := by
  intro s a t r
  have hr : r.report = .error ⟨s, some 1⟩ := by decide +kernel
  have hs : lone.table.find? s = none := by decide +kernel
  have ht : exact.Covers lone.table t := fun _ b hu =>
    ⟨b, find?_insert_of_find? hs hu, rfl, rfl, rfl⟩
  have hshort : (lone.watch 1 none).run.report = .ok (1, false) := by decide +kernel
  refine ⟨⟨hr, ?_, by decide +kernel⟩, ht, hshort, ?_⟩
  · exact ((watch_more_rules lone 5 (by decide)).1 s 1 hr a).2
  · exact ((watch_more_rules lone 1 (by decide)).2 exact t (fun _ => rfl) ht (1, false) hshort).1

end Machine

end TapeMachine

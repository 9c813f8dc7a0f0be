import Mathlib.Logic.Function.Basic
import TapeMachine.Machine

/-!
# Machines on total tapes

A configuration is a state, a position and a symbol or blank at every integer.  A rule table says
what becomes of it, with no arrays and no count of steps: it has a successor, or it is at a rule
that changes nothing, or there is no rule.  This file shows that `Machine.run` computes exactly
this.

* `Configuration.Leads`: the configurations that come one after the other.
* `Machine.configuration`: what a machine shows of itself.
* `Configuration.Fate`: what a limited number of steps comes to; `Fate.unique`: to one thing only.
* `configuration_perform`: the square of one step.
* `fate_runFrom`: the square of a run, by induction on its limit.
* `run_refines`: the three answers of a run, each with its exact condition.
-/

namespace TapeMachine

structure Configuration where
  state : Atom
  head : Int
  cells : Int → Atom

namespace Configuration

variable {t : Table} {c d e : Configuration} {k j : Nat}

def symbol (c : Configuration) : Atom := c.cells c.head

def situation (c : Configuration) : Situation := ⟨c.state, c.symbol⟩

def Keeps (c : Configuration) (a : Action) : Prop :=
  a.state.like c.state = true ∧ a.symbol.like c.symbol = true

def Undefined (t : Table) (c : Configuration) : Prop := t.find? c.situation = none

def Halting (t : Table) (c : Configuration) : Prop :=
  ∃ a, t.find? c.situation = some a ∧ c.Keeps a

def after (c : Configuration) (a : Action) : Configuration :=
  ⟨a.state, c.head + a.move.delta, Function.update c.cells c.head a.symbol⟩

/-- A running configuration and its successor. -/
def Step (t : Table) (c d : Configuration) : Prop :=
  ∃ a, t.find? c.situation = some a ∧ ¬ c.Keeps a ∧ d = c.after a

/-- `Leads t k c d`: from `c` on, `k` configurations in a row are running, and `d` comes next. -/
inductive Leads (t : Table) : Nat → Configuration → Configuration → Prop
  | refl (c : Configuration) : Leads t 0 c c
  | tail {k : Nat} {c d e : Configuration} : Leads t k c d → Step t d e → Leads t (k + 1) c e

/-! ### Each configuration has one fate -/

theorem Step.unique (h : Step t c d) (g : Step t c e) : d = e := by
  obtain ⟨a, ha, _, rfl⟩ := h
  obtain ⟨b, hb, _, rfl⟩ := g
  rw [Option.some.inj (ha.symm.trans hb)]

theorem Halting.not_step (h : Halting t c) : ¬ Step t c d := by
  rintro ⟨b, hb, hn, _⟩
  obtain ⟨a, ha, hk⟩ := h
  rw [Option.some.inj (ha.symm.trans hb)] at hk
  exact hn hk

theorem Undefined.not_step (h : Undefined t c) : ¬ Step t c d := by
  rintro ⟨a, ha, _⟩
  rw [Undefined, ha] at h
  exact absurd h (by simp)

theorem Halting.not_undefined (h : Halting t c) : ¬ Undefined t c := by
  obtain ⟨a, ha, _⟩ := h
  intro hu
  rw [Undefined, ha] at hu
  exact absurd hu (by simp)

theorem Leads.head (h : Step t c d) (g : Leads t k d e) : Leads t (k + 1) c e := by
  induction g with
  | refl => exact .tail (.refl c) h
  | tail _ hs ih => exact .tail (ih h) hs

theorem Leads.trans (h : Leads t k c d) (g : Leads t j d e) : Leads t (k + j) c e := by
  induction g with
  | refl => exact h
  | tail _ hs ih => exact .tail (ih h) hs

theorem Leads.unique (h : Leads t k c d) (g : Leads t k c e) : d = e := by
  induction h generalizing e with
  | refl => cases g; rfl
  | tail _ hs ih =>
    cases g with
    | tail hl hs' =>
      rw [ih hl] at hs
      exact hs.unique hs'

theorem Leads.le_of_not_step (h : Leads t k c d) (hd : ∀ e, ¬ Step t d e) (g : Leads t j c e) :
    j ≤ k := by
  induction g with
  | refl => exact Nat.zero_le k
  | @tail j c d' e hl hs ih =>
    have hjk := ih h
    rcases Nat.lt_or_eq_of_le hjk with hlt | heq
    · exact hlt
    · subst heq
      rw [hl.unique h] at hs
      exact absurd hs (hd e)

/-! ### Fates -/

/-- What at most `limit` steps from `c` come to: an ending, a number of steps and a last
configuration.  At the limit nobody looks whether the configuration is halting. -/
inductive Fate (t : Table) (limit : Nat) (c : Configuration) : Ending → Nat → Configuration → Prop
  | halted {k : Nat} {d : Configuration} :
      k < limit → Leads t k c d → Halting t d → Fate t limit c .halted k d
  | stuck {k : Nat} {d : Configuration} :
      k < limit → Leads t k c d → Undefined t d → Fate t limit c .stuck k d
  | limited {d : Configuration} : Leads t limit c d → Fate t limit c .limited limit d

namespace Fate

variable {limit : Nat} {x y : Ending}

theorem halted_iff : Fate t limit c .halted k d ↔ k < limit ∧ Leads t k c d ∧ Halting t d := by
  constructor
  · rintro (⟨hk, hl, hd⟩)
    exact ⟨hk, hl, hd⟩
  · rintro ⟨hk, hl, hd⟩
    exact .halted hk hl hd

theorem stuck_iff : Fate t limit c .stuck k d ↔ k < limit ∧ Leads t k c d ∧ Undefined t d := by
  constructor
  · rintro (_ | ⟨hk, hl, hd⟩)
    exact ⟨hk, hl, hd⟩
  · rintro ⟨hk, hl, hd⟩
    exact .stuck hk hl hd

theorem limited_iff : Fate t limit c .limited k d ↔ k = limit ∧ Leads t k c d := by
  constructor
  · rintro (_ | _ | hl)
    exact ⟨rfl, hl⟩
  · rintro ⟨rfl, hl⟩
    exact .limited hl

theorem leads (h : Fate t limit c x k d) : Leads t k c d := by
  cases h with
  | halted _ hl _ => exact hl
  | stuck _ hl _ => exact hl
  | limited hl => exact hl

theorem head (h : Step t c d) (g : Fate t limit d x k e) : Fate t (limit + 1) c x (k + 1) e := by
  cases g with
  | halted hk hl he => exact .halted (Nat.succ_lt_succ hk) (hl.head h) he
  | stuck hk hl he => exact .stuck (Nat.succ_lt_succ hk) (hl.head h) he
  | limited hl => exact .limited (hl.head h)

theorem le_limit (h : Fate t limit c x k d) : k ≤ limit := by
  cases h with
  | halted hk _ _ => exact Nat.le_of_lt hk
  | stuck hk _ _ => exact Nat.le_of_lt hk
  | limited _ => exact Nat.le_refl _

theorem le_steps (h : Fate t limit c x k d) (g : Fate t limit c y j e) : j ≤ k := by
  cases h with
  | halted _ hl hd => exact hl.le_of_not_step (fun _ => hd.not_step) g.leads
  | stuck _ hl hd => exact hl.le_of_not_step (fun _ => hd.not_step) g.leads
  | limited _ => exact g.le_limit

theorem unique (h : Fate t limit c x k d) (g : Fate t limit c y j e) : x = y ∧ k = j ∧ d = e := by
  have hkj : k = j := Nat.le_antisymm (g.le_steps h) (h.le_steps g)
  subst hkj
  have hde : d = e := h.leads.unique g.leads
  subst hde
  refine ⟨?_, rfl, rfl⟩
  cases h with
  | halted hk _ hd =>
    cases g with
    | halted _ _ _ => rfl
    | stuck _ _ hu => exact absurd hu hd.not_undefined
    | limited _ => exact absurd hk (Nat.lt_irrefl _)
  | stuck hk _ hu =>
    cases g with
    | halted _ _ hd => exact absurd hu hd.not_undefined
    | stuck _ _ _ => rfl
    | limited _ => exact absurd hk (Nat.lt_irrefl _)
  | limited _ =>
    cases g with
    | halted hk _ _ => exact absurd hk (Nat.lt_irrefl _)
    | stuck hk _ _ => exact absurd hk (Nat.lt_irrefl _)
    | limited _ => rfl

end Fate

end Configuration

/-! ### What a machine shows -/

namespace Machine

open TapeMachine.Configuration

def configuration (m : Machine) : Configuration := ⟨m.state, m.tape.head, m.tape.read⟩

theorem keeps_configuration_iff {m : Machine} {a : Action} :
    m.configuration.Keeps a ↔ Rule.isFixed ⟨m.situation, a⟩ = true := by
  rw [Rule.isFixed, Bool.and_eq_true]
  rfl

/-- **One step.**  Writing into the arrays and moving the head is what the successor does to a total
tape, on either side of the origin and however far the arrays reach. -/
theorem configuration_perform (m : Machine) (a : Action) :
    (m.perform a).configuration = m.configuration.after a := by
  have hcells : (m.perform a).tape.read = Function.update m.tape.read m.tape.head a.symbol := by
    funext p
    rw [read_perform, Function.update_apply]
  rw [configuration, hcells, state_perform, head_perform]
  rfl

theorem next_eq_stuck_iff_undefined {m : Machine} :
    m.next = .stuck ↔ Undefined m.table m.configuration :=
  next_eq_stuck_iff

theorem next_eq_halt_iff_halting {m : Machine} :
    m.next = .halt ↔ Halting m.table m.configuration := by
  rw [next_eq_halt_iff]
  constructor
  · rintro ⟨a, ha, hf⟩
    exact ⟨a, ha, keeps_configuration_iff.2 hf⟩
  · rintro ⟨a, ha, hk⟩
    exact ⟨a, ha, keeps_configuration_iff.1 hk⟩

theorem step_of_next_eq_act {m : Machine} {a : Action} (h : m.next = .act a) :
    Step m.table m.configuration (m.perform a).configuration := by
  obtain ⟨ha, hf⟩ := next_eq_act_iff.1 h
  refine ⟨a, ha, ?_, configuration_perform m a⟩
  rw [keeps_configuration_iff, hf]
  exact Bool.false_ne_true

/-! ### Runs -/

theorem table_runFrom (done limit : Nat) (m : Machine) :
    (runFrom done limit m).machine.table = m.table := by
  induction limit generalizing done m with
  | zero => rfl
  | succ limit ih =>
    rw [runFrom]
    cases m.next with
    | stuck => rfl
    | halt => rfl
    | act a => exact ih (done + 1) (m.perform a)

/-- **A run.**  It has the fate of the configuration that it starts from. -/
theorem fate_runFrom (limit : Nat) (m : Machine) :
    Fate m.table limit m.configuration (runFrom 0 limit m).ending (runFrom 0 limit m).steps
      (runFrom 0 limit m).machine.configuration := by
  induction limit generalizing m with
  | zero => exact .limited (.refl _)
  | succ limit ih =>
    cases h : m.next with
    | stuck =>
      rw [runFrom_of_stuck h]
      exact .stuck (Nat.succ_pos limit) (.refl _) (next_eq_stuck_iff_undefined.1 h)
    | halt =>
      rw [runFrom_of_halt h]
      exact .halted (Nat.succ_pos limit) (.refl _) (next_eq_halt_iff_halting.1 h)
    | act a =>
      rw [runFrom_of_act h, Run.steps_delay, Nat.add_comm 1]
      exact (ih (m.perform a)).head (step_of_next_eq_act h)

theorem run_fate_iff {m : Machine} {limit : Int} {x : Ending} {k : Nat} {c : Configuration} :
    (m.run limit).ending = x ∧ (m.run limit).steps = k ∧ (m.run limit).machine.configuration = c ↔
      Fate m.table limit.toNat m.configuration x k c := by
  have hf := fate_runFrom limit.toNat m
  constructor
  · rintro ⟨rfl, rfl, rfl⟩
    exact hf
  · exact hf.unique

theorem run_of_leads_halting {m : Machine} {limit : Int} {k : Nat} {c : Configuration}
    (hl : Leads m.table k m.configuration c) (hc : Halting m.table c) (hk : (k : Int) < limit) :
    (m.run limit).answer = .ok (k, true) ∧ (m.run limit).machine.configuration = c := by
  have hf : Fate m.table limit.toNat m.configuration .halted k c :=
    .halted (Int.lt_toNat.2 hk) hl hc
  obtain ⟨he, hs, hd⟩ := run_fate_iff.2 hf
  exact ⟨Run.answer_eq_halted_iff.2 ⟨he, hs⟩, hd⟩

/-- **A run gets where the configurations get.**  Whatever the table, the tape and the limit, each
answer is given if and only if the configurations from the machine's own one on are running up to
the last one and the last one is as the answer says; and that one is what is left of the machine. -/
theorem run_refines (m : Machine) (limit : Int) :
    (∀ k c, (m.run limit).answer = .ok (k, true) ∧ (m.run limit).machine.configuration = c ↔
      (k : Int) < limit ∧ Leads m.table k m.configuration c ∧ Halting m.table c) ∧
    (∀ k c, (m.run limit).answer = .ok (k, false) ∧ (m.run limit).machine.configuration = c ↔
      (k : Int) = max limit 0 ∧ Leads m.table k m.configuration c) ∧
    (∀ fault c, (m.run limit).answer = .error fault ∧ (m.run limit).machine.configuration = c ↔
      fault = ⟨c.situation, none⟩ ∧
        ∃ k : Nat, (k : Int) < limit ∧ Leads m.table k m.configuration c ∧ Undefined m.table c) ∧
    (m.run limit).machine.table = m.table := by
  refine ⟨fun k c => ?_, fun k c => ?_, fun fault c => ?_, table_runFrom 0 limit.toNat m⟩
  · rw [Run.answer_eq_halted_iff, and_assoc, run_fate_iff, Fate.halted_iff, Int.lt_toNat]
  · rw [Run.answer_eq_limited_iff, and_assoc, run_fate_iff, Fate.limited_iff]
    have hk : k = limit.toNat ↔ (k : Int) = max limit 0 := by omega
    rw [hk]
  · rw [Run.answer_eq_error_iff]
    constructor
    · rintro ⟨⟨he, rfl⟩, rfl⟩
      have hs := Fate.stuck_iff.1 (run_fate_iff.1 ⟨he, rfl, rfl⟩)
      exact ⟨rfl, _, Int.lt_toNat.1 hs.1, hs.2⟩
    · rintro ⟨rfl, k, hk, hl, hu⟩
      obtain ⟨he, _, rfl⟩ := run_fate_iff.2 (Fate.stuck_iff.2 ⟨Int.lt_toNat.2 hk, hl, hu⟩)
      exact ⟨⟨he, rfl⟩, rfl⟩

end Machine

end TapeMachine

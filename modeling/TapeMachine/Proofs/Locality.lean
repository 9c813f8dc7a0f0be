import TapeMachine.Proofs.Configuration
import TapeMachine.Proofs.Isometry
import TapeMachine.Proofs.Resumption
import TapeMachine.Proofs.TapeHistory

/-!
# Runs are local

A step writes under the head and moves it by at most one cell.  So a run changes no cell but those
that its head was on, gets no farther than it takes steps, and materialises what lies between the
origin and the path of its head, and nothing else.  What lies farther away than the limit of a run
cannot tell in it: two machines that look the same near their heads do the same, as long as the
limit does not let them get farther.

* `Machine.path`: where the head is before each step of a run; `path_of_act`: step by step.
* `head_runFrom_near`, `read_runFrom_of_notMem`, `low_runFrom`, `high_runFrom`: what a run leaves.
* `Comparison.Twins`: two machines that look the same on a part of their tapes; `Twins.next_of_act`,
  `Twins.perform`: what one step makes of them; `twins_runFrom`: and a run, by induction on its limit.
* `run_local`: the main result.
-/

namespace TapeMachine

theorem Move.natAbs_delta_le (m : Move) : m.delta.natAbs ≤ 1 := by
  cases m with
  | left => exact Nat.le_refl 1
  | hold => exact Nat.zero_le 1
  | right => exact Nat.le_refl 1

/-! ### The path of a run -/

namespace Machine

variable {m : Machine} {limit : Nat} {p : Int}

/-- The positions of the head before each of the steps that a run takes. -/
def path (m : Machine) (limit : Nat) : List Int :=
  (List.range (runFrom 0 limit m).steps).map fun i => (runFrom 0 i m).machine.tape.head

theorem length_path (m : Machine) (limit : Nat) :
    (m.path limit).length = (runFrom 0 limit m).steps := by
  rw [path, List.length_map, List.length_range]

theorem path_of_rests {x : Ending} (h : m.Rests x) (limit : Nat) : m.path limit = [] := by
  rw [path, h.steps_runFrom]
  rfl

theorem path_of_act {a : Action} (h : m.next = .act a) (limit : Nat) :
    m.path (limit + 1) = m.tape.head :: (m.perform a).path limit := by
  rw [path, runFrom_of_act h, Run.steps_delay, Nat.add_comm, List.range_succ_eq_map, List.map_cons,
    List.map_map]
  refine congrArg (m.tape.head :: ·) (List.map_congr_left fun i _ => ?_)
  show (runFrom 0 (i + 1) m).machine.tape.head = _
  rw [runFrom_of_act h, Run.machine_delay]

theorem steps_runFrom_le (limit : Nat) (m : Machine) : (runFrom 0 limit m).steps ≤ limit :=
  (fate_runFrom limit m).le_limit

/-- **The head gets no farther than the run takes steps.** -/
theorem head_runFrom_near (limit : Nat) (m : Machine) :
    ((runFrom 0 limit m).machine.tape.head - m.tape.head).natAbs ≤ (runFrom 0 limit m).steps := by
  induction limit generalizing m with
  | zero =>
    show (m.tape.head - m.tape.head).natAbs ≤ 0
    omega
  | succ limit ih =>
    rcases m.rests_or_acts with ⟨x, hr⟩ | ⟨a, ha⟩
    · rw [hr limit]
      show (m.tape.head - m.tape.head).natAbs ≤ 0
      omega
    · have hi := ih (m.perform a)
      have hd := a.move.natAbs_delta_le
      rw [head_perform] at hi
      rw [runFrom_of_act ha, Run.machine_delay, Run.steps_delay]
      omega

theorem near_of_mem_path (h : p ∈ m.path limit) : (p - m.tape.head).natAbs < limit := by
  obtain ⟨i, hi, rfl⟩ := List.mem_map.1 h
  have hk := steps_runFrom_le limit m
  have hs := steps_runFrom_le i m
  have hn := head_runFrom_near i m
  rw [List.mem_range] at hi
  omega

/-! ### What a run leaves -/

/-- **A run changes only cells that its head was on.** -/
theorem read_runFrom_of_notMem (h : p ∉ m.path limit) :
    (runFrom 0 limit m).machine.tape.read p = m.tape.read p := by
  induction limit generalizing m with
  | zero => rfl
  | succ limit ih =>
    rcases m.rests_or_acts with ⟨x, hr⟩ | ⟨a, ha⟩
    · rw [hr limit]
    · rw [path_of_act ha, List.mem_cons, not_or] at h
      rw [runFrom_of_act ha, Run.machine_delay, ih h.2, read_perform, if_neg h.1]

theorem low_perform (m : Machine) (a : Action) :
    (m.perform a).tape.asStrip.low = min m.tape.asStrip.low m.tape.head := by
  have hw := m.tape.size_left_write m.tape.head a.symbol
  show -(((m.tape.write m.tape.head a.symbol).left.size : Nat) : Int) =
    min (-(m.tape.left.size : Int)) m.tape.head
  omega

theorem high_perform (m : Machine) (a : Action) :
    (m.perform a).tape.asStrip.high = max m.tape.asStrip.high (m.tape.head + 1) :=
  m.tape.size_right_write m.tape.head a.symbol

/-- **The window grows to the left** as far as the path does. -/
theorem low_runFrom (limit : Nat) (m : Machine) :
    (runFrom 0 limit m).machine.tape.asStrip.low = (m.path limit).foldl min m.tape.asStrip.low := by
  induction limit generalizing m with
  | zero => rfl
  | succ limit ih =>
    rcases m.rests_or_acts with ⟨x, hr⟩ | ⟨a, ha⟩
    · rw [path_of_rests hr, hr limit]
      rfl
    · rw [path_of_act ha, runFrom_of_act ha, Run.machine_delay, ih, low_perform, List.foldl_cons]

/-- **The window grows to the right** as far as the path does. -/
theorem high_runFrom (limit : Nat) (m : Machine) :
    (runFrom 0 limit m).machine.tape.asStrip.high =
      ((m.path limit).map (· + 1)).foldl max m.tape.asStrip.high := by
  induction limit generalizing m with
  | zero => rfl
  | succ limit ih =>
    rcases m.rests_or_acts with ⟨x, hr⟩ | ⟨a, ha⟩
    · rw [path_of_rests hr, hr limit]
      rfl
    · rw [path_of_act ha, runFrom_of_act ha, Run.machine_delay, ih, high_perform, List.map_cons,
        List.foldl_cons]

end Machine

/-! ### Machines that look the same on a part of their tapes -/

namespace Comparison

variable {c : Comparison} {near : Int → Prop} {m₁ m₂ : Machine} {a b : Action}

def still : Isometry := ⟨false, 0⟩

/-- Where the first table has an action, the second one has the same. -/
def Covers (c : Comparison) (t₁ t₂ : Table) : Prop :=
  ∀ s a, t₁.find? s = some a → ∃ b, t₂.find? s = some b ∧ c.SameAction still a b

/-- The two machines look the same, of their cells those that are `near`; whatever the first one
has a rule for, the second one has the same rule for. -/
structure Twins (c : Comparison) (near : Int → Prop) (m₁ m₂ : Machine) : Prop where
  state : c.same m₁.state m₂.state
  head : m₂.tape.head = m₁.tape.head
  cells : ∀ p, near p → c.same (m₁.tape.read p) (m₂.tape.read p)
  table : c.Covers m₁.table m₂.table

namespace Twins

theorem symbol (h : c.Twins near m₁ m₂) (hn : near m₁.tape.head) :
    c.same m₁.tape.readHead m₂.tape.readHead := by
  rw [Tape.readHead, Tape.readHead, h.head]
  exact h.cells m₁.tape.head hn

theorem situation_like (h : c.Twins near m₁ m₂) (hn : near m₁.tape.head) :
    m₁.situation.like m₂.situation = true := by
  rw [Situation.like, Bool.and_eq_true]
  exact ⟨c.like_of_same h.state, c.like_of_same (h.symbol hn)⟩

theorem exists_action? (h : c.Twins near m₁ m₂) (hn : near m₁.tape.head)
    (ha : m₁.action? = some a) : ∃ b, m₂.action? = some b ∧ c.SameAction still a b := by
  obtain ⟨b, hb, hab⟩ := h.table m₁.situation a ha
  rw [m₂.table.find?_congr (h.situation_like hn)] at hb
  exact ⟨b, hb, hab⟩

theorem isFixed_eq (h : c.Twins near m₁ m₂) (hn : near m₁.tape.head)
    (hab : c.SameAction still a b) :
    Rule.isFixed ⟨m₁.situation, a⟩ = Rule.isFixed ⟨m₂.situation, b⟩ := by
  have hq := Atom.like_congr₂ (c.like_of_same hab.state) (c.like_of_same h.state)
  have hx := Atom.like_congr₂ (c.like_of_same hab.symbol) (c.like_of_same (h.symbol hn))
  simp only [Rule.isFixed, Machine.situation, hq, hx]

/-- **If the first machine is about to act, so is the second one**, in the same way. -/
theorem next_of_act (h : c.Twins near m₁ m₂) (hn : near m₁.tape.head) (ha : m₁.next = .act a) :
    ∃ b, m₂.next = .act b ∧ c.SameAction still a b := by
  obtain ⟨ha, hf⟩ := Machine.next_eq_act_iff.1 ha
  obtain ⟨b, hb, hab⟩ := h.exists_action? hn ha
  rw [h.isFixed_eq hn hab] at hf
  exact ⟨b, Machine.next_eq_act_iff.2 ⟨hb, hf⟩, hab⟩

theorem next_of_halt (h : c.Twins near m₁ m₂) (hn : near m₁.tape.head) (ha : m₁.next = .halt) :
    m₂.next = .halt := by
  obtain ⟨a, ha, hf⟩ := Machine.next_eq_halt_iff.1 ha
  obtain ⟨b, hb, hab⟩ := h.exists_action? hn ha
  rw [h.isFixed_eq hn hab] at hf
  exact Machine.next_eq_halt_iff.2 ⟨b, hb, hf⟩

/-- The second machine may have a rule where the first one has none. -/
theorem next_of_stuck (h : c.Twins near m₁ m₂) (hn : near m₁.tape.head)
    (ht : ∀ s, m₁.table.find? s = none → m₂.table.find? s = none) (ha : m₁.next = .stuck) :
    m₂.next = .stuck := by
  have hs := ht m₁.situation (Machine.next_eq_stuck_iff.1 ha)
  rw [m₂.table.find?_congr (h.situation_like hn)] at hs
  exact Machine.next_eq_stuck_iff.2 hs

/-- **What they have done is the same.** -/
theorem perform (h : c.Twins near m₁ m₂) (hab : c.SameAction still a b) :
    c.Twins near (m₁.perform a) (m₂.perform b) := by
  refine ⟨hab.state, ?_, fun p hp => ?_, h.table⟩
  · rw [Machine.head_perform, Machine.head_perform, h.head, hab.move]
    rfl
  · rw [Machine.read_perform, Machine.read_perform, h.head]
    split
    · exact hab.symbol
    · exact h.cells p hp

end Twins

/-- **Runs of twins.**  The induction is on the limit: while steps are left, the head is where the
two look the same.  Where the first machine gets stuck, the second one must get stuck too. -/
theorem twins_runFrom {limit : Nat} (h : c.Twins near m₁ m₂)
    (hn : ∀ p, (p - m₁.tape.head).natAbs < limit → near p)
    (ht : (m₁.runFrom 0 limit).ending ≠ .stuck ∨
      ∀ s, m₁.table.find? s = none → m₂.table.find? s = none) :
    c.Twins near (m₁.runFrom 0 limit).machine (m₂.runFrom 0 limit).machine ∧
      (m₁.runFrom 0 limit).steps = (m₂.runFrom 0 limit).steps ∧
        (m₁.runFrom 0 limit).ending = (m₂.runFrom 0 limit).ending ∧
          m₁.path limit = m₂.path limit := by
  induction limit generalizing m₁ m₂ with
  | zero => exact ⟨h, rfl, rfl, rfl⟩
  | succ limit ih =>
    have hhead : near m₁.tape.head := hn m₁.tape.head (by omega)
    cases h₁ : m₁.next with
    | stuck =>
      rw [Machine.runFrom_of_stuck h₁] at ht
      have h₂ : m₂.next = .stuck := h.next_of_stuck hhead (ht.resolve_left fun hs => hs rfl) h₁
      rw [Machine.path_of_rests (Machine.runFrom_of_stuck h₁),
        Machine.path_of_rests (Machine.runFrom_of_stuck h₂), Machine.runFrom_of_stuck h₁,
        Machine.runFrom_of_stuck h₂]
      exact ⟨h, rfl, rfl, rfl⟩
    | halt =>
      have h₂ : m₂.next = .halt := h.next_of_halt hhead h₁
      rw [Machine.path_of_rests (Machine.runFrom_of_halt h₁),
        Machine.path_of_rests (Machine.runFrom_of_halt h₂), Machine.runFrom_of_halt h₁,
        Machine.runFrom_of_halt h₂]
      exact ⟨h, rfl, rfl, rfl⟩
    | act a =>
      obtain ⟨b, h₂, hab⟩ := h.next_of_act hhead h₁
      have hn' : ∀ p, (p - (m₁.perform a).tape.head).natAbs < limit → near p := by
        intro p hp
        have hd := a.move.natAbs_delta_le
        rw [Machine.head_perform] at hp
        exact hn p (by omega)
      rw [Machine.runFrom_of_act h₁] at ht
      obtain ⟨hm, hk, he, hpath⟩ := ih (h.perform hab) hn' ht
      rw [Machine.path_of_act h₁, Machine.path_of_act h₂, Machine.runFrom_of_act h₁,
        Machine.runFrom_of_act h₂, hpath, h.head]
      exact ⟨hm, congrArg (1 + ·) hk, he, rfl⟩

/-! ### Machines that look the same near their heads -/

/-- The two machines look the same, of their cells those nearer to the head than `limit`. -/
structure SameWithin (c : Comparison) (limit : Int) (m₁ m₂ : Machine) : Prop where
  state : c.same m₁.state m₂.state
  head : m₂.tape.head = m₁.tape.head
  cells : ∀ p, ((p - m₁.tape.head).natAbs : Int) < limit → c.same (m₁.tape.read p) (m₂.tape.read p)
  table : ∀ s, Option.Rel (c.SameAction still) (m₁.table.find? s) (m₂.table.find? s)

namespace SameWithin

variable {limit : Int}

theorem covers (h : c.SameWithin limit m₁ m₂) : c.Covers m₁.table m₂.table := by
  intro s a ha
  have ht := h.table s
  rw [ha] at ht
  cases hb : m₂.table.find? s with
  | none =>
    rw [hb] at ht
    exact nomatch ht
  | some b =>
    rw [hb] at ht
    cases ht with
    | some hab => exact ⟨b, rfl, hab⟩

theorem find?_eq_none (h : c.SameWithin limit m₁ m₂) (s : Situation)
    (ha : m₁.table.find? s = none) : m₂.table.find? s = none := by
  have ht := h.table s
  rw [ha] at ht
  cases hb : m₂.table.find? s with
  | none => rfl
  | some b =>
    rw [hb] at ht
    exact nomatch ht

theorem twins (h : c.SameWithin limit m₁ m₂) :
    c.Twins (fun p => ((p - m₁.tape.head).natAbs : Int) < limit) m₁ m₂ :=
  ⟨h.state, h.head, h.cells, h.covers⟩

end SameWithin

theorem sameAnswer_of_ending {r₁ r₂ : Run} (hk : r₁.steps = r₂.steps) (he : r₁.ending = r₂.ending)
    (hs : r₁.ending = .stuck → c.same r₁.machine.state r₂.machine.state ∧
      c.same r₁.machine.tape.readHead r₂.machine.tape.readHead) :
    c.SameAnswer r₁.answer r₂.answer := by
  rw [Run.answer, Run.answer, hk, ← he]
  cases h : r₁.ending with
  | halted => exact .ok r₂.steps true
  | stuck => exact .missing none (hs h).1 (hs h).2
  | limited => exact .ok r₂.steps false

end Comparison

namespace Machine

open TapeMachine.Comparison TapeMachine.Configuration

theorem steps_lt_of_stuck {m : Machine} {limit : Nat}
    (h : (runFrom 0 limit m).ending = .stuck) : (runFrom 0 limit m).steps < limit := by
  have hf := fate_runFrom limit m
  rw [h] at hf
  exact (Fate.stuck_iff.1 hf).1

theorem read_runFrom_of_far {m : Machine} {limit : Nat} {p : Int}
    (h : limit ≤ (p - m.tape.head).natAbs) :
    (runFrom 0 limit m).machine.tape.read p = m.tape.read p :=
  read_runFrom_of_notMem fun hp => Nat.not_lt.2 h (near_of_mem_path hp)

/-- **Runs are local.**  However a run ends, its head is at most as many cells away as it took
steps, the cells off the path of the head are as they were, and the window of materialised cells has
become the least one that has the old window and the path.  And all that the run comes to is settled
by what is nearer to the head than its limit: another machine that looks the same there gives the
same answer and leaves the same state, head and near cells.  Neither run changes any other cell. -/
theorem run_local (m : Machine) (limit : Int) :
    let r := m.run limit
    let path := m.path limit.toNat
    path.length = r.steps ∧
      (r.machine.tape.head - m.tape.head).natAbs ≤ r.steps ∧
      (∀ p, p ∉ path → r.machine.tape.read p = m.tape.read p) ∧
      r.machine.tape.asStrip.low = path.foldl min m.tape.asStrip.low ∧
      r.machine.tape.asStrip.high = (path.map (· + 1)).foldl max m.tape.asStrip.high ∧
      m.tape.contents = m.tape.asStrip.shown ∧
      r.machine.tape.contents = r.machine.tape.asStrip.shown ∧
      ∀ (c : Comparison) (m' : Machine), c.SameWithin limit m m' →
        let r' := m'.run limit
        c.SameAnswer r.answer r'.answer ∧ c.same r.machine.state r'.machine.state ∧
          r'.machine.tape.head = r.machine.tape.head ∧
          ∀ p, if ((p - m.tape.head).natAbs : Int) < limit
            then c.same (r.machine.tape.read p) (r'.machine.tape.read p)
            else r.machine.tape.read p = m.tape.read p ∧
              r'.machine.tape.read p = m'.tape.read p := by
  intro r path
  refine ⟨length_path m _, head_runFrom_near _ m, fun p hp => read_runFrom_of_notMem hp,
    low_runFrom _ m, high_runFrom _ m, m.tape.contents_eq_shown, r.machine.tape.contents_eq_shown,
    fun c m' h => ?_⟩
  intro r'
  have hnear : ∀ p, (p - m.tape.head).natAbs < limit.toNat →
      ((p - m.tape.head).natAbs : Int) < limit := by omega
  obtain ⟨ht, hk, he, _⟩ := twins_runFrom h.twins hnear (Or.inr h.find?_eq_none)
  refine ⟨sameAnswer_of_ending hk he fun hs => ⟨ht.state, ht.symbol ?_⟩, ht.state, ht.head, ?_⟩
  · -- a run that gets stuck has steps left, so its head is near the place where it began
    have hlt := steps_lt_of_stuck hs
    have hd := head_runFrom_near limit.toNat m
    exact hnear _ (Nat.lt_of_le_of_lt hd hlt)
  · intro p
    split
    · next hp => exact ht.cells p hp
    · next hp =>
      refine ⟨read_runFrom_of_far (by omega), read_runFrom_of_far ?_⟩
      rw [h.head]
      omega

/-- Of three cells, a run of two steps cannot tell the last one. -/
theorem run_local_marker :
    let m := marker (.ofList [.blank, .number 1, .number 5]) .right
    let m' := marker (.ofList [.blank, .number 1, .text "five"]) .right
    exact.SameWithin 2 m m' ∧ exact.SameAnswer (m.run 2).answer (m'.run 2).answer ∧
      (m.run 2).answer = .ok (2, false) ∧ m.path 2 = [0, 1] := by
  intro m m'
  have h : exact.SameWithin 2 m m' := by
    refine ⟨rfl, rfl, fun p hp => ?_, fun s => ?_⟩
    · have hp' : p = -1 ∨ p = 0 ∨ p = 1 := by
        have hz : m.tape.head = 0 := rfl
        omega
      rcases hp' with rfl | rfl | rfl
      · rfl
      · rfl
      · rfl
    · show Option.Rel _ (m.table.find? s) (m.table.find? s)
      cases m.table.find? s with
      | none => exact .none
      | some a => exact .some ⟨rfl, rfl, rfl⟩
  obtain ⟨_, _, _, _, _, _, _, hrun⟩ := run_local m 2
  exact ⟨h, (hrun exact m' h).1, by decide +kernel, by decide +kernel⟩

end Machine

end TapeMachine

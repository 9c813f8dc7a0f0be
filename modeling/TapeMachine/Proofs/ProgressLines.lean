import TapeMachine.Proofs.Jobs
import TapeMachine.Proofs.MoreRules
import TapeMachine.Proofs.Numerals
import TapeMachine.Proofs.Stepping

/-!
# The lines of a watched run

A machine is run by itself, or at a desk where lines tell how far it has come.  Both loops are
written out on their own, and they come to the same: the lines are all that is added.  There is one
for each multiple of the period up to the last step, in ascending order, but none at the limit.

* `Machine.marks_watchFrom`: the step counts that are shown, by induction on the limit.
* `Desk.perform_forM_console`: lines on the console, one after the other.
* `Desk.consoleLine_progressLine`, `Job.injective_progressLine`: the text of a progress line, which
  tells its count.
* `Job.perform_runMachine_of_ne`, `perform_runMachine_of_pos`: a run at a desk with the lines that
  it shows.
-/

namespace TapeMachine

/-! ### Step counts that are shown -/

namespace Machine

variable {m : Machine} {limit : Int} {period : Option Int}

/-- **The marks of a watch** are those of the steps that it sees. -/
theorem marks_watchFrom (hp : period ≠ some 0) (marks : List Nat) (done fuel : Nat) (m : Machine) :
    (watchFrom limit period marks done fuel m).marks =
      marks.reverse ++
        (List.range' (done + 1) (runFrom 0 fuel m).steps).filter (isMark limit period) := by
  induction fuel generalizing marks done m with
  | zero => exact (List.append_nil _).symm
  | succ fuel ih =>
    cases hn : m.next with
    | stuck =>
      rw [runFrom_of_stuck hn, watchFrom, hn]
      exact (List.append_nil _).symm
    | halt =>
      rw [runFrom_of_halt hn, watchFrom, hn]
      exact (List.append_nil _).symm
    | act a =>
      rw [runFrom_of_act hn, Run.steps_delay, Nat.add_comm 1, List.range'_succ, List.filter_cons,
        watchFrom, hn]
      simp only [if_neg hp]
      rw [ih]
      split
      · rw [List.reverse_cons, List.append_assoc]
        rfl
      · rfl

/-- The step counts that a run shows in the given period. -/
def marks (m : Machine) (limit : Int) (period : Option Int) : List Nat :=
  (List.range' 1 (m.run limit).steps).filter (isMark limit period)

theorem marks_watch (hp : period ≠ some 0) (m : Machine) (limit : Int) :
    (m.watch limit period).marks = m.marks limit period :=
  marks_watchFrom hp [] 0 limit.toNat m

theorem pairwise_marks (m : Machine) (limit : Int) (period : Option Int) :
    (m.marks limit period).Pairwise (· < ·) :=
  List.Pairwise.filter _ List.pairwise_lt_range'

theorem mem_marks_iff {k : Nat} :
    k ∈ m.marks limit period ↔
      1 ≤ k ∧ k ≤ (m.run limit).steps ∧ (k : Int) < limit ∧ ∃ p ∈ period, p ∣ (k : Int) := by
  rw [marks, List.mem_filter, List.mem_range'_1]
  cases period with
  | none => simp [isMark]
  | some p =>
    simp only [isMark, Bool.and_eq_true, beq_iff_eq, decide_eq_true_eq, Option.mem_def,
      Option.some.injEq, exists_eq_left', Int.dvd_iff_emod_eq_zero]
    omega

theorem steps_run_lt_iff (m : Machine) {limit : Int} (h : 1 ≤ (m.run limit).steps) :
    ((m.run limit).steps : Int) < limit ↔ (m.run limit).ending ≠ .limited := by
  obtain ⟨_, hends⟩ := takes_runFrom limit.toNat m
  rw [run] at h ⊢
  cases he : (runFrom 0 limit.toNat m).ending with
  | limited =>
    rw [he] at hends
    have hsteps : (runFrom 0 limit.toNat m).steps = limit.toNat := hends
    exact iff_of_false (by omega) fun hn => hn rfl
  | halted | stuck =>
    rw [he] at hends
    have hlt : (runFrom 0 limit.toNat m).steps < limit.toNat := hends.1
    exact iff_of_true (by omega) (by decide)

end Machine

theorem Run.report_eq_map_answer (r : Run) :
    r.report = r.answer.mapError fun fault => { fault with steps := some r.steps } := by
  obtain ⟨m, k, x⟩ := r
  cases x <;> rfl

/-! ### Lines on the console -/

/-- A line on the console, marked with the name of the working folder. -/
def Desk.consoleLine (d : Desk) (text : String) : Event :=
  let folder := d.disk.work.getLast?.getD ""
  .out s!"[{folder}] {text}\n"

theorem Desk.perform_console (d : Desk) (text : String) :
    d.perform (Job.console text) =
      (.ok (), { d with events := d.events.push (d.consoleLine text) }) := rfl

/-- The text of a progress line. -/
theorem Desk.consoleLine_progressLine (d : Desk) (name : String) (k : Nat) :
    let folder := d.disk.work.getLast?.getD ""
    d.consoleLine (Job.progressLine name k) =
      .out s!"[{folder}] [INFO] {name}: {Text.grouped k} steps so far...\n" := by
  intro folder
  rw [consoleLine, Job.progressLine, Event.out.injEq, ← String.toList_inj]
  simp [toString, folder]

/-- The count can be told from the line. -/
theorem Job.injective_progressLine (folder name : String) : Function.Injective fun k : Nat =>
    s!"[{folder}] [INFO] {name}: {Text.grouped k} steps so far...\n" := by
  intro k l h
  refine Text.grouped_injective (String.toList_inj.1 ?_)
  have hlist := congrArg String.toList h
  simpa [toString] using hlist

/-- **Lines one after the other** are added to what was shown. -/
theorem Desk.perform_forM_console {α : Type} (items : List α) (text : α → String) (d : Desk) :
    d.perform (items.forM fun a => Job.console (text a)) =
      (.ok (), { d with
        events := d.events ++ (items.map fun a => d.consoleLine (text a)).toArray }) := by
  induction items generalizing d with
  | nil => exact congrArg (fun events => (_, { d with events })) Array.append_empty.symm
  | cons a items ih =>
    show d.perform (Job.console (text a) >>= fun _ => _) = _
    rw [Desk.perform_bind_of_ok (d.perform_console (text a))]
    refine (ih _).trans ?_
    refine congrArg (fun events => (_, { d with events })) ?_
    rw [List.map_cons]
    simp only [List.push_append_toArray]
    rfl

/-! ### Runs with lines -/

namespace Job

theorem perform_replay_of_not_broken (d : Desk) (name : String) {w : Watch}
    (h : w.broken = false) :
    d.perform (replay name w) =
      (.ok (), { d with
        events := d.events ++
          (w.marks.map fun k => d.consoleLine (progressLine name k)).toArray }) := by
  rw [replay, Desk.perform_bind_of_ok (Desk.perform_forM_console w.marks (progressLine name) d), h]
  rfl

theorem perform_runMachine_of_ne (d : Desk) (m : Machine) (limit : Int) {period : Int}
    (hp : period ≠ 0) (name : String) (verbose : Bool) :
    let watched := if verbose then some period else none
    d.perform (runMachine m limit period name verbose) =
      (.ok (m.run limit), { d with
        events := d.events ++ ((m.marks limit watched).map fun k =>
          d.consoleLine (progressLine name k)).toArray }) := by
  intro watched
  have hw : watched ≠ some 0 := by
    cases verbose with
    | false => nofun
    | true => exact fun h => hp (Option.some.inj h)
  have hshown := perform_replay_of_not_broken d name (Machine.broken_watch_eq_false hw m limit)
  rw [Machine.marks_watch hw] at hshown
  rw [runMachine, Desk.perform_bind_of_ok hshown, Machine.run_watch hw]
  rfl

/-- **A run at a desk is a run, and its lines are all there is to see of it.**  It takes the steps of
the run by itself, leaves the same machine and tells the same, but that it also counts the steps
before a rule was missed.  If progress is shown, there is one line for each step below the limit
whose count is a multiple of the period, the last step among them if the limit was not reached.  A
line tells the count of its step, so that no two lines are the same. -/
theorem perform_runMachine_of_pos (d : Desk) (m : Machine) (limit : Int) {period : Int}
    (hp : 1 ≤ period) (name : String) (verbose : Bool) :
    let r := m.run limit
    let folder := d.disk.work.getLast?.getD ""
    let line (k : Nat) : String :=
      s!"[{folder}] [INFO] {name}: {Text.grouped k} steps so far...\n"
    (∀ k : Nat, (Text.grouped k).toList.filter (· ≠ ',') = Nat.toDigits 10 k) ∧
    Function.Injective line ∧
    ∃ marks : List Nat,
      d.perform (runMachine m limit period name verbose) =
        (.ok r, { d with events := d.events ++ (marks.map fun k => .out (line k)).toArray }) ∧
      r.report = (r.answer.mapError fun fault => { fault with steps := some r.steps }) ∧
      m.Takes r.steps r.machine ∧
      marks.Pairwise (· < ·) ∧
      (∀ k : Nat, k ∈ marks ↔
        verbose = true ∧ 1 ≤ k ∧ k ≤ r.steps ∧ (k : Int) < limit ∧ period ∣ k) ∧
      (verbose = true → 1 ≤ r.steps → period ∣ r.steps →
        (r.steps ∈ marks ↔ r.ending ≠ .limited)) := by
  intro r folder line
  let watched : Option Int := if verbose then some period else none
  have hw : watched ≠ some 0 := by
    cases verbose with
    | false => nofun
    | true =>
      intro h
      have hz : period = 0 := Option.some.inj h
      omega
  have hmem (k : Nat) : k ∈ m.marks limit watched ↔
      verbose = true ∧ 1 ≤ k ∧ k ≤ r.steps ∧ (k : Int) < limit ∧ period ∣ k := by
    rw [Machine.mem_marks_iff]
    cases verbose with
    | false => simp [watched]
    | true => simp [watched, r]
  refine ⟨Text.filter_grouped, injective_progressLine folder name, m.marks limit watched, ?_,
    r.report_eq_map_answer, (Machine.takes_runFrom _ m).1, m.pairwise_marks limit watched, hmem,
    fun hv h hd => ?_⟩
  · have hlines : (m.marks limit watched).map (fun k => d.consoleLine (progressLine name k)) =
        (m.marks limit watched).map fun k => .out (line k) :=
      List.map_congr_left fun k _ => d.consoleLine_progressLine name k
    rw [perform_runMachine_of_ne d m limit (by omega) name verbose, hlines]
  · rw [hmem, ← Machine.steps_run_lt_iff m h]
    exact ⟨fun hk => hk.2.2.2.1, fun hlt => ⟨hv, h, Nat.le_refl _, hlt, hd⟩⟩

/-- The one step before a rule is missed is shown. -/
theorem perform_runMachine_lone :
    let d : Desk := ⟨.new ["work"], default, [], #[], 986, by decide⟩
    (1 : Int) ≤ 1 ∧ (Machine.lone.run 5).report = .error ⟨⟨.number 1, .blank⟩, some 1⟩ ∧
      (d.perform (runMachine Machine.lone 5 1 "lone" true)).2.events =
        #[.out "[work] [INFO] lone: 1 steps so far...\n"] := by
  intro d
  have hk : (Machine.lone.run 5).steps = 1 := by decide +kernel
  obtain ⟨_, _, marks, hrun, _, _, hsorted, hmem, _⟩ :=
    perform_runMachine_of_pos d Machine.lone 5 (Int.le_refl 1) "lone" true
  have hone : ∀ k, k ∈ marks ↔ k = 1 := by
    intro k
    rw [hmem, hk]
    constructor
    · rintro ⟨_, hpos, hle, _⟩
      exact Nat.le_antisymm hle hpos
    · rintro rfl
      decide
  have hmarks : marks = [1] := by
    rcases marks with _ | ⟨k, _ | ⟨l, marks⟩⟩
    · exact absurd ((hone 1).2 rfl) List.not_mem_nil
    · rw [(hone k).1 List.mem_cons_self]
    · have hlt := List.rel_of_pairwise_cons hsorted List.mem_cons_self
      have hk := (hone k).1 List.mem_cons_self
      have hl := (hone l).1 (List.mem_cons_of_mem k List.mem_cons_self)
      omega
  have htext : Text.grouped (1 : Nat) = "1" := Text.grouped_of_lt (by decide)
  refine ⟨Int.le_refl 1, by decide +kernel, ?_⟩
  rw [hrun, hmarks]
  simp only [List.map_singleton, htext]
  rfl

end Job

end TapeMachine

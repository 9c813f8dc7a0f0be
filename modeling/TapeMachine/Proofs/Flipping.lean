import TapeMachine.Proofs.Sources
import TapeMachine.Proofs.Sweeping
import TapeMachine.Stock

/-!
# Flipping

The stock program `bitFlip` goes to the right and turns each truth value into the other one, up to
the first blank.  It writes into cells that are stored already and stops at the end of the stored
cells without a write, so that a tape has as many cells afterwards as it had before.  To see this,
the stored tape itself is followed: it is split at the head into the cells that are done and those
that are to be done.

* `Tape.between`: a stored tape with its head between two lists of cells; `writeHead_between`,
  `move_between`, `contents_between`.
* `next_midway`, `perform_midway`: one step of the machine.
* `runFrom_midway`: any number of steps, by induction on the limit.
* `run_bitFlip`: the program of the stock at every moment of its run.
-/

namespace TapeMachine

/-! ### Stored cells around the head -/

namespace Tape

/-- Cells that are stored from position 0 on, with the head on the first of `behind`. -/
def between (before behind : List Atom) : Tape :=
  ⟨(before ++ behind).toArray, #[], before.length⟩

variable {before behind : List Atom} {a b : Atom}

theorem readHead_between : (between before behind).readHead = behind.headD .blank := by
  have hp : (0 : Int) ≤ (before.length : Int) := Int.natCast_nonneg _
  rw [readHead, between, read, if_pos hp, Int.toNat_natCast, Array.getD_eq_getD_getElem?,
    List.getElem?_toArray, List.getElem?_append_right (Nat.le_refl _), Nat.sub_self]
  cases behind <;> rfl

theorem writeHead_between :
    (between before (a :: behind)).writeHead b = between before (b :: behind) := by
  have hp : (0 : Int) ≤ (before.length : Int) := Int.natCast_nonneg _
  have hi : before.length < (before ++ a :: behind).toArray.size := by simp
  rw [writeHead, between, write, if_pos hp, Int.toNat_natCast, put, dif_pos hi, between]
  simp

theorem move_between :
    (between before (a :: behind)).move .right = between (before ++ [a]) behind := by
  simp [between, move, Move.delta]

theorem contents_between : (between before behind).contents = before ++ behind := rfl

end Tape

namespace Stock.Flipping

open TapeMachine.Configuration

/-! ### The machine -/

def rules : List Rule :=
  [
    .numbered 1 (.truth true) 1 (.truth false) .right,
    .numbered 1 (.truth false) 1 (.truth true) .right,
    .numbered 1 .blank 1 .blank .hold
  ]

def table : Table := .ofList rules

theorem readSource_bitFlip :
    readSource SymbolKind.truth.read bitFlip = .ok (.start (.number 1) :: rules.map .rule) := by
  rw [readSource, scanSource, bitFlip, toList_sourceOf]
  decide +kernel

theorem machineOfSource_bitFlip :
    (KindSpec.named (.str "bool")).machineOfSource bitFlip =
      .ok (.new .empty (.number 1) table) :=
  (KindSpec.machineOfSource_eq_ok_iff rfl).2
    ⟨_, readSource_bitFlip, Machine.ofClauses_start_cons _ _⟩

def cells (xs : List (Option Bool)) : List Atom := xs.map fun x => x.elim .blank .truth

/-- The position of the first blank; the length of the list if there is none. -/
def firstBlank (xs : List (Option Bool)) : Nat := xs.findIdx Option.isNone

/-- The list with its first `k` truth values turned into the others. -/
def flipped (k : Nat) (xs : List (Option Bool)) : List (Option Bool) :=
  (xs.take k).map (Option.map not) ++ xs.drop k

/-- The machine when it has done with the cells of `done`. -/
def midway (done rest : List (Option Bool)) : Machine :=
  ⟨.between (cells done) (cells rest), .number 1, .number 1, table⟩

variable {done rest : List (Option Bool)}

theorem acts_flip : ∀ b : Bool,
    Acts table (.number 1) (.truth b) (.number 1) (.truth !b) .right := by
  decide

theorem stops_blank : Stops table (.number 1) .blank := by decide

theorem situation_midway :
    (midway done rest).situation = ⟨.number 1, (cells rest).headD .blank⟩ :=
  congrArg (Situation.mk (.number 1)) Tape.readHead_between

theorem next_midway_some (b : Bool) :
    (midway done (some b :: rest)).next = .act ⟨.number 1, .truth !b, .right⟩ := by
  rw [Machine.next_eq_act_iff, Machine.action?, situation_midway]
  exact acts_flip b

theorem next_midway_of_firstBlank (h : firstBlank rest = 0) : (midway done rest).next = .halt := by
  have hblank : (cells rest).headD .blank = .blank := by
    match rest, h with
    | [], _ => rfl
    | none :: rest, _ => rfl
    | some b :: rest, h => simp [firstBlank, List.findIdx_cons] at h
  obtain ⟨a, ha, hf⟩ := (Option.any_eq_true _ _).1 stops_blank
  rw [Machine.next_eq_halt_iff, Machine.action?, situation_midway, hblank]
  exact ⟨a, ha, hf⟩

/-- **One step** is done with one more cell. -/
theorem perform_midway (b : Bool) :
    (midway done (some b :: rest)).perform ⟨.number 1, .truth !b, .right⟩ =
      midway (done ++ [some !b]) rest := by
  have hcells : cells (done ++ [some !b]) = cells done ++ [.truth !b] := List.map_append
  have htape : ((Tape.between (cells done) (.truth b :: cells rest)).writeHead
      (.truth !b)).move .right = .between (cells (done ++ [some !b])) (cells rest) := by
    rw [Tape.writeHead_between, Tape.move_between, hcells]
  exact congrArg (fun tape => Machine.mk tape (.number 1) (.number 1) table) htape

theorem firstBlank_some_cons (b : Bool) (rest : List (Option Bool)) :
    firstBlank (some b :: rest) = firstBlank rest + 1 := by
  rw [firstBlank, List.findIdx_cons]
  rfl

/-- **Any number of steps** are done with as many cells, but none from the first blank on. -/
theorem runFrom_midway (limit : Nat) (done rest : List (Option Bool)) :
    Machine.runFrom 0 limit (midway done rest) =
      ⟨midway (done ++ (rest.take (min limit (firstBlank rest))).map (Option.map not))
          (rest.drop (min limit (firstBlank rest))),
        min limit (firstBlank rest),
        if firstBlank rest < limit then .halted else .limited⟩ := by
  induction limit generalizing done rest with
  | zero => simp [Machine.runFrom]
  | succ limit ih =>
    by_cases h : firstBlank rest = 0
    · rw [Machine.runFrom_of_halt (next_midway_of_firstBlank h), h]
      simp
    · obtain ⟨b, tail, rfl⟩ : ∃ b tail, rest = some b :: tail := by
        rcases rest with _ | ⟨_ | b, tail⟩
        · exact absurd rfl h
        · exact absurd rfl h
        · exact ⟨b, tail, rfl⟩
      rw [Machine.runFrom_of_act (next_midway_some b), perform_midway, ih, firstBlank_some_cons,
        Nat.add_min_add_right]
      simp [Run.delay, Nat.add_comm 1]

/-! ### The program -/

/-- **The stock program flips its input up to the first blank**, and so it does at every moment:
after `k` steps the first `k` cells are flipped, the head is behind them, and all other cells are as
they were.  No cell is added to those of the input. -/
theorem run_bitFlip (xs : List (Option Bool)) (limit : Nat) :
    ∃ m, (KindSpec.named (.str "bool")).machineOfSource bitFlip = .ok m ∧
      let r := (m.insertTape (.ofList (cells xs))).run limit
      let k := min limit (firstBlank xs)
      r.answer = .ok (if firstBlank xs < limit then (firstBlank xs, true) else (limit, false)) ∧
      r.machine.state = .number 1 ∧
      r.machine.tape.head = k ∧
      r.machine.tape.contents = cells (flipped k xs) := by
  refine ⟨_, machineOfSource_bitFlip, ?_⟩
  have hrun : ((Machine.new .empty (.number 1) table).insertTape (.ofList (cells xs))).run limit =
      ⟨midway ((xs.take (min limit (firstBlank xs))).map (Option.map not))
          (xs.drop (min limit (firstBlank xs))),
        min limit (firstBlank xs),
        if firstBlank xs < limit then .halted else .limited⟩ := runFrom_midway limit [] xs
  rw [hrun]
  refine ⟨?_, rfl, ?_, ?_⟩
  · by_cases h : firstBlank xs < limit
    · simp [Run.answer, h, Nat.min_eq_right (Nat.le_of_lt h)]
    · simp [Run.answer, h, Nat.min_eq_left (Nat.not_lt.1 h)]
  · have hle : firstBlank xs ≤ xs.length := List.findIdx_le_length
    have hlength : (cells ((xs.take (min limit (firstBlank xs))).map (Option.map not))).length =
        min limit (firstBlank xs) := by
      rw [cells, List.length_map, List.length_map, List.length_take]
      omega
    exact congrArg Nat.cast hlength
  · rw [midway, Tape.contents_between, flipped, cells, cells, cells, List.map_append]

/-- Behind a blank nothing is flipped, and a limit of one step leaves the second cell. -/
example : flipped (min 1 (firstBlank [some true, some true, none])) [some true, some true, none] =
    [some false, some true, none] := by
  decide

end Stock.Flipping

end TapeMachine

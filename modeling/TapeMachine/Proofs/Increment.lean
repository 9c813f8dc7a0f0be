import TapeMachine.Proofs.Sources
import TapeMachine.Proofs.Sweeping
import TapeMachine.Stock

/-!
# Adding one

The stock program `binaryIncrement` sweeps over a binary number to its end, in two states by turns,
since a rule that keeps state and symbol would be a halt.  Then it sweeps back over the ones at the
end and turns them to zeros, and at the first zero, or at the blank before the number, it writes a
one and halts.

* `binaryValue`: the number that truth values stand for.
* `binaryValue_carry`: what the machine does to the truth values adds one.
* `increment_leads`: the way of the machine.
* `run_binaryIncrement`: the program of the stock adds one to every number.
-/

namespace TapeMachine.Stock.Increment

open TapeMachine.Configuration

/-! ### Binary numbers -/

/-- The number that truth values stand for, the most significant one first. -/
def binaryValue (bs : List Bool) : Nat := bs.foldl (fun n b => 2 * n + b.toNat) 0

def trailingTrues (bs : List Bool) : Nat := (bs.reverse.takeWhile id).length

theorem binaryValue_concat (bs : List Bool) (b : Bool) :
    binaryValue (bs ++ [b]) = 2 * binaryValue bs + b.toNat := by
  rw [binaryValue, List.foldl_append]
  rfl

/-- **A carry.**  To add one is to turn the ones at the end to zeros and the zero before them to a
one. -/
theorem binaryValue_carry (as : List Bool) (k : Nat) :
    binaryValue (as ++ true :: List.replicate k false) =
      binaryValue (as ++ false :: List.replicate k true) + 1 := by
  induction k with
  | zero =>
    rw [List.replicate_zero, List.replicate_zero, binaryValue_concat, binaryValue_concat]
    rfl
  | succ k ih =>
    rw [List.replicate_succ', List.replicate_succ', ← List.cons_append, ← List.cons_append,
      ← List.append_assoc, ← List.append_assoc, binaryValue_concat, binaryValue_concat, ih,
      Bool.toNat_true, Bool.toNat_false]
    omega

theorem trailingTrues_concat_true (bs : List Bool) :
    trailingTrues (bs ++ [true]) = trailingTrues bs + 1 := by
  rw [trailingTrues, List.reverse_append]
  rfl

theorem trailingTrues_concat_false (bs : List Bool) : trailingTrues (bs ++ [false]) = 0 := by
  rw [trailingTrues, List.reverse_append]
  rfl

theorem eq_of_trailingTrues (bs : List Bool) :
    bs = List.replicate (trailingTrues bs) true ∨
      ∃ as, bs = as ++ false :: List.replicate (trailingTrues bs) true := by
  induction bs using List.reverseRecOn with
  | nil => exact Or.inl rfl
  | append_singleton bs b ih =>
    cases b with
    | false =>
      rw [trailingTrues_concat_false]
      exact Or.inr ⟨bs, rfl⟩
    | true =>
      rw [trailingTrues_concat_true, List.replicate_succ']
      rcases ih with h | ⟨as, h⟩
      · exact Or.inl (congrArg (· ++ [true]) h)
      · refine Or.inr ⟨as, ?_⟩
        rw [← List.cons_append, ← List.append_assoc]
        exact congrArg (· ++ [true]) h

/-! ### The machine -/

def rules : List Rule :=
  [
    .numbered 0 (.truth true) 10 (.truth true) .right,
    .numbered 0 (.truth false) 10 (.truth false) .right,
    .numbered 10 (.truth true) 0 (.truth true) .right,
    .numbered 10 (.truth false) 0 (.truth false) .right,
    .numbered 0 .blank 1 .blank .left,
    .numbered 10 .blank 1 .blank .left,
    .numbered 1 (.truth true) 1 (.truth false) .left,
    .numbered 1 (.truth false) 2 (.truth true) .hold,
    .numbered 1 .blank 2 (.truth true) .hold,
    .numbered 2 (.truth true) 2 (.truth true) .hold
  ]

def table : Table := .ofList rules

theorem readSource_binaryIncrement :
    readSource SymbolKind.truth.read binaryIncrement =
      .ok (.start (.number 0) :: rules.map .rule) := by
  rw [readSource, scanSource, binaryIncrement, toList_sourceOf]
  decide +kernel

theorem machineOfSource_binaryIncrement :
    (KindSpec.named (.str "bool")).machineOfSource binaryIncrement =
      .ok (.new .empty (.number 0) table) :=
  (KindSpec.machineOfSource_eq_ok_iff rfl).2
    ⟨_, readSource_binaryIncrement, Machine.ofClauses_start_cons _ _⟩

def forth : List Atom := [.number 0, .number 10]

theorem sweeps_forth : Sweeps table .right forth [.truth false, .truth true] id := by
  decide

theorem acts_turn : ∀ q ∈ forth, Acts table q .blank (.number 1) .blank .left := by
  decide

theorem sweeps_carry :
    Sweeps table .left [.number 1] [.truth true] fun _ => .truth false := by
  decide

theorem acts_write : ∀ x ∈ [Atom.blank, .truth false],
    Acts table (.number 1) x (.number 2) (.truth true) .hold := by
  decide

theorem stops_written : Stops table (.number 2) (.truth true) := by decide

def bits (bs : List Bool) : List Atom := bs.map Atom.truth

theorem mem_of_mem_bits {bs : List Bool} {a : Atom} (h : a ∈ bits bs) :
    a ∈ [Atom.truth false, .truth true] := by
  obtain ⟨b, _, rfl⟩ := List.mem_map.1 h
  cases b <;> decide

theorem forth_leads (bs : List Bool) :
    Leads table (bs.length + 1) (ahead (.number 0) 0 [] (bits bs))
      (back (.number 1) 0 (bits bs) [.blank]) := by
  obtain ⟨q, hq, hl⟩ := sweeps_forth.right 0 [] [] (q := .number 0) (by decide) fun a ha =>
    mem_of_mem_bits ha
  rw [List.append_nil, List.map_id, List.nil_append, ahead_nil, bits, List.length_map] at hl
  exact .tail hl (acts_turn q hq).step_left

/-- The way back over the ones at the end. -/
theorem carry_leads (xs : List Atom) (k : Nat) :
    Leads table k (back (.number 1) 0 (xs ++ bits (.replicate k true)) [.blank])
      (back (.number 1) 0 xs (bits (.replicate k false) ++ [.blank])) := by
  have hall : ∀ a ∈ bits (.replicate k true), a ∈ [Atom.truth true] := by
    intro a ha
    obtain ⟨b, hb, rfl⟩ := List.mem_map.1 ha
    rw [List.eq_of_mem_replicate hb]
    exact List.mem_cons_self
  obtain ⟨q, hq, hl⟩ := sweeps_carry.left 0 xs [.blank] (q := .number 1) (by decide) hall
  obtain rfl := List.mem_singleton.1 hq
  simpa only [bits, List.map_replicate, List.length_replicate] using hl

/-- **The way of the machine.**  It ends at the one that is written last, with zeros and the blank
behind it. -/
theorem increment_leads (bs : List Bool) :
    ∃ (o : Int) (as : List Bool),
      Leads table (bs.length + trailingTrues bs + 2)
        (ahead (.number 0) 0 [] (bits bs))
        (ahead (.number 2) o (bits as)
          (.truth true :: (bits (.replicate (trailingTrues bs) false) ++ [.blank]))) ∧
      o + as.length = bs.length - 1 - trailingTrues bs ∧
      binaryValue (as ++ true :: .replicate (trailingTrues bs) false) = binaryValue bs + 1 ∧
      as.length + 1 + trailingTrues bs = if false ∈ bs then bs.length else bs.length + 1 := by
  have hforth := forth_leads bs
  have hsteps : bs.length + trailingTrues bs + 2 = bs.length + 1 + trailingTrues bs + 1 := by omega
  rw [hsteps]
  generalize hk : trailingTrues bs = k at *
  rcases eq_of_trailingTrues bs with h | ⟨as, h⟩
  · rw [hk] at h
    have hcarry := carry_leads [] k
    rw [List.nil_append, ← h, back_nil] at hcarry
    have hwrite := (acts_write .blank List.mem_cons_self).step_hold (0 - 1) []
      (bits (.replicate k false) ++ [.blank])
    refine ⟨0 - 1, [], (hforth.trans hcarry).tail hwrite, ?_, ?_, ?_⟩
    · rw [h, List.length_replicate, List.length_nil]
      omega
    · rw [h]
      exact binaryValue_carry [] k
    · have hf : false ∉ bs := by
        rw [h]
        intro hm
        exact absurd (List.eq_of_mem_replicate hm) (by decide)
      rw [if_neg hf, h, List.length_replicate, List.length_nil]
      omega
  · rw [hk] at h
    have hbits : bits bs = bits as ++ [.truth false] ++ bits (.replicate k true) := by
      rw [h, bits, bits, bits, List.map_append, List.append_assoc]
      rfl
    have hcarry := carry_leads (bits as ++ [.truth false]) k
    rw [← hbits, back_concat] at hcarry
    have hwrite := (acts_write (.truth false) (by decide)).step_hold 0 (bits as)
      (bits (.replicate k false) ++ [.blank])
    have hlen : bs.length = as.length + 1 + k := by
      rw [h, List.length_append, List.length_cons, List.length_replicate]
      omega
    refine ⟨0, as, (hforth.trans hcarry).tail hwrite, ?_, ?_, ?_⟩
    · omega
    · rw [h]
      exact binaryValue_carry as k
    · have hf : false ∈ bs := h ▸ List.mem_append_right as List.mem_cons_self
      rw [if_pos hf, hlen]

/-! ### The program -/

theorem trimBlanks_bits_concat_blank (bs : List Bool) :
    Tape.trimBlanks (bits bs ++ [.blank]) = bits bs := by
  have hn : ∀ a ∈ bits bs, a ≠ .blank := by
    intro a ha
    obtain ⟨b, _, rfl⟩ := List.mem_map.1 ha
    exact Atom.noConfusion
  rw [Tape.trimBlanks_append_blanks fun b hb => List.mem_singleton.1 hb]
  refine Tape.trimBlanks_of_ends_ne (fun h => ?_) fun h => ?_
  · exact hn _ (List.mem_of_mem_head? h) rfl
  · exact hn _ (List.mem_of_getLast? h) rfl

/-- **The stock program adds one to every binary number**, after a number of steps that is known
exactly, also to the empty one and to one that gets a digit more. -/
theorem run_binaryIncrement (bs : List Bool) (limit : Int)
    (h : bs.length + trailingTrues bs + 2 < limit) :
    ∃ m, (KindSpec.named (.str "bool")).machineOfSource binaryIncrement = .ok m ∧
      let r := (m.insertTape (.ofList (bs.map .truth))).run limit
      r.answer = .ok (bs.length + trailingTrues bs + 2, true) ∧
      r.machine.state = .number 2 ∧
      r.machine.tape.head = bs.length - 1 - trailingTrues bs ∧
      ∃ cs : List Bool, r.machine.tape.trimmed = cs.map .truth ∧
        binaryValue cs = binaryValue bs + 1 ∧
        cs.length = if false ∈ bs then bs.length else bs.length + 1 := by
  refine ⟨_, machineOfSource_binaryIncrement, ?_⟩
  obtain ⟨o, as, hl, hhead, hvalue, hlength⟩ := increment_leads bs
  have hlimit : ((bs.length + trailingTrues bs + 2 : Nat) : Int) < limit := by omega
  obtain ⟨hanswer, hend⟩ := Machine.run_of_leads_halting
    (m := .new (.ofList (bits bs)) (.number 0) table)
    (by rw [Machine.configuration_new_ofList]; exact hl) stops_written.halting hlimit
  have hcells : bits as ++ .truth true :: (bits (.replicate (trailingTrues bs) false) ++ [.blank]) =
      bits (as ++ true :: .replicate (trailingTrues bs) false) ++ [.blank] := by
    rw [bits, bits, bits, List.map_append, List.append_assoc]
    rfl
  refine ⟨hanswer, congrArg Configuration.state hend, ?_,
    as ++ true :: .replicate (trailingTrues bs) false, ?_, hvalue, ?_⟩
  · have hbits : (bits as).length = as.length := List.length_map _
    rw [← hhead, ← hbits]
    exact congrArg Configuration.head hend
  · have htrimmed := Tape.trimmed_of_read_eq_laid (congrArg Configuration.cells hend)
    rw [hcells, trimBlanks_bits_concat_blank] at htrimmed
    exact htrimmed
  · rw [← hlength, List.length_append, List.length_cons, List.length_replicate]
    omega

/-- Three is one more than two ones, which have no zero for the carry. -/
theorem run_binaryIncrement_three :
    (([true, true] : List Bool).length + trailingTrues [true, true] + 2 : Int) < 100 ∧
    ∃ m, (KindSpec.named (.str "bool")).machineOfSource binaryIncrement = .ok m ∧
      let r := (m.insertTape (.ofList [.truth true, .truth true])).run 100
      r.answer = .ok (6, true) ∧ r.machine.state = .number 2 ∧ r.machine.tape.head = -1 ∧
      ∃ cs : List Bool, r.machine.tape.trimmed = cs.map .truth ∧
        binaryValue cs = 4 ∧ cs.length = 3 :=
  ⟨by decide, run_binaryIncrement [true, true] 100 (by decide)⟩

end TapeMachine.Stock.Increment

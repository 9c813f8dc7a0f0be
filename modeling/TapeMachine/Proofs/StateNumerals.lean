import Mathlib.Data.Nat.Digits.Defs
import TapeMachine.Proofs.ClauseFaults
import TapeMachine.Proofs.Numerals

/-!
# Numerals of states

A state is written in digits, and two tests stand before its value: the first takes digit signs of
any sort, the second takes signs, underscores and blanks as well, but only digits that have a place
value.  What passes both are the decimal digits, and their value is the positional one.

* `exists_of_isBlank`, `exists_of_isDigitSign`: blanks and digit signs lie in ranges that are apart.
* `readMagnitude_eq_ok_iff`: digit signs that are read as a number.
* `readState_eq_ok_iff`: the texts that are states; `decimalNumber_eq_ofDigits`: their values.
* `noClause_of_noState`: what a clause says of a text that is no state.
-/

namespace TapeMachine

namespace Text

/-! ### Digit signs among the other characters -/

def blankRanges : List (Nat × Nat) :=
  [(9, 13), (28, 32), (0x85, 0x85), (0xA0, 0xA0), (0x1680, 0x1680), (0x2000, 0x200A),
    (0x2028, 0x2029), (0x202F, 0x202F), (0x205F, 0x205F), (0x3000, 0x3000)]

def digitRanges : List (Nat × Nat) := decimalZeros.map (fun z => (z, z + 9)) ++ digitSignRanges

theorem exists_of_isBlank {c : Char} (h : isBlank c = true) :
    ∃ r ∈ blankRanges, r.1 ≤ c.toNat ∧ c.toNat ≤ r.2 := by
  simp only [isBlank, Bool.or_eq_true, Bool.and_eq_true, decide_eq_true_eq, beq_iff_eq] at h
  simp only [blankRanges, List.mem_cons, List.not_mem_nil, or_false, exists_eq_or_imp,
    exists_eq_left]
  omega

theorem exists_of_isDigitSign {c : Char} (h : isDigitSign c = true) :
    ∃ r ∈ digitRanges, r.1 ≤ c.toNat ∧ c.toNat ≤ r.2 := by
  rw [isDigitSign, Bool.or_eq_true] at h
  rcases h with h | h
  · obtain ⟨d, hd⟩ := Option.isSome_iff_exists.1 h
    obtain ⟨z, hz, hc⟩ := List.exists_of_findSome?_eq_some hd
    split at hc
    · next hr =>
      exact ⟨(z, z + 9), List.mem_append_left _ (List.mem_map.2 ⟨z, hz, rfl⟩), hr.1,
        Nat.le_of_lt_succ hr.2⟩
    · cases hc
  · obtain ⟨r, hr, hc⟩ := List.any_eq_true.1 h
    rw [Bool.and_eq_true, decide_eq_true_eq, decide_eq_true_eq] at hc
    exact ⟨r, List.mem_append_right _ hr, hc⟩

theorem isBlank_of_isDigitSign {c : Char} (h : isDigitSign c = true) : isBlank c = false := by
  refine Bool.eq_false_iff.2 fun hb => ?_
  have hapart : ∀ r ∈ blankRanges, ∀ q ∈ digitRanges, r.2 < q.1 ∨ q.2 < r.1 := by decide +kernel
  obtain ⟨r, hr, hrc⟩ := exists_of_isBlank hb
  obtain ⟨q, hq, hqc⟩ := exists_of_isDigitSign h
  have := hapart r hr q hq
  omega

/-- A character of other numerals: a sign, an underscore, a blank, or a digit sign without a place
value. -/
def IsStray (c : Char) : Prop :=
  c = '+' ∨ c = '-' ∨ c = '_' ∨ isBlank c = true ∨ isDigitSign c = true ∧ isDecimal c = false

theorem isDecimal_of_isStray {c : Char} (h : IsStray c) : isDecimal c = false := by
  refine Bool.eq_false_iff.2 fun hd => ?_
  have hs := isDigitSign_of_isDecimal hd
  rcases h with rfl | rfl | rfl | h | ⟨_, h⟩
  · exact absurd hs (by decide)
  · exact absurd hs (by decide)
  · exact absurd hs (by decide)
  · rw [isBlank_of_isDigitSign hs] at h
    cases h
  · rw [hd] at h
    cases h

/-! ### Digit signs that are read as a number -/

section Magnitude

variable {text : String} {cs : List Char} {ds : List ℕ} {n : Nat}

/-- Digit signs that are read as a number are decimal digits, since nothing but blanks may follow
these. -/
theorem isDecimal_of_readMagnitude (hcs : ∀ c ∈ cs, isDigitSign c = true)
    (h : readMagnitude text cs = .ok n) : cs ≠ [] ∧ ∀ c ∈ cs, isDecimal c = true := by
  constructor
  · rintro rfl
    cases h
  · intro c hc
    simp only [readMagnitude, spanDigits_eq] at h
    split at h
    · cases h
    · split at h
      · cases h
      · split at h
        · next hrest =>
          have hnil : cs.dropWhile (fun c => isDecimal c || c == '_') = [] := by
            refine List.eq_nil_iff_forall_not_mem.2 fun b hb => ?_
            have hblank := List.all_eq_true.1 hrest b hb
            rw [isNumeralBlank, isBlank_of_isDigitSign
              (hcs b ((List.dropWhile_sublist _).subset hb))] at hblank
            cases hblank
          have hp := List.dropWhile_eq_nil_iff.1 hnil c hc
          rw [Bool.or_eq_true, beq_iff_eq] at hp
          refine hp.resolve_right ?_
          rintro rfl
          exact absurd (hcs '_' hc) (by decide)
        · cases h

/-- **Digit signs** are read as a number exactly if they are decimal digits, at least one of them
and not too many. -/
theorem readMagnitude_eq_ok_iff (hcs : ∀ c ∈ cs, isDigitSign c = true) :
    readMagnitude text cs = .ok n ↔ cs ≠ [] ∧ cs.length ≤ numeralLimit ∧
      (∀ c ∈ cs, isDecimal c = true) ∧ n = decimalNumber cs := by
  constructor
  · intro h
    obtain ⟨hne, hd⟩ := isDecimal_of_readMagnitude hcs h
    rw [readMagnitude_of_isDecimal text hne hd] at h
    split at h
    · cases h
    · next hl => exact ⟨hne, Nat.not_lt.1 hl, hd, (Except.ok.inj h).symm⟩
  · rintro ⟨hne, hl, hd, rfl⟩
    rw [readMagnitude_of_isDecimal text hne hd, if_neg (Nat.not_lt.2 hl)]

theorem readInt_of_isDigitSign (hcs : ∀ c ∈ text.toList, isDigitSign c = true) :
    readInt text = (readMagnitude text text.toList).map Int.ofNat := by
  have hkeep : text.toList.dropWhile isNumeralBlank = text.toList := by
    cases hcons : text.toList with
    | nil => rfl
    | cons c cs =>
      refine List.dropWhile_cons_of_neg ?_
      rw [isNumeralBlank, isBlank_of_isDigitSign (hcs c (hcons ▸ List.mem_cons_self))]
      exact Bool.false_ne_true
  rw [readInt, hkeep]
  split
  · next he => exact absurd (hcs '-' (he ▸ List.mem_cons_self)) (by decide)
  · next he => exact absurd (hcs '+' (he ▸ List.mem_cons_self)) (by decide)
  · rfl

/-- **The value of digits** is their positional value in base ten. -/
theorem decimalNumber_eq_ofDigits (h : List.Forall₂ (fun c d => decimalValue? c = some d) cs ds) :
    decimalNumber cs = Nat.ofDigits 10 ds.reverse := by
  have hds : ds = cs.map fun c => (decimalValue? c).getD 0 := by
    induction h with
    | nil => rfl
    | cons hc _ ih => rw [List.map_cons, hc, ← ih, Option.getD_some]
  rw [hds]
  clear h hds
  induction cs using List.reverseRecOn with
  | nil => rfl
  | append_singleton cs c ih =>
    rw [decimalNumber_concat, ih, List.map_append, List.map_singleton, List.reverse_append,
      List.reverse_singleton, List.singleton_append, Nat.ofDigits_cons, Nat.add_comm]

theorem forall_isDecimal_iff :
    (∀ c ∈ cs, isDecimal c = true) ↔
      ∃ ds, List.Forall₂ (fun c d => decimalValue? c = some d) cs ds := by
  induction cs with
  | nil => exact ⟨fun _ => ⟨[], .nil⟩, fun _ => List.forall_mem_nil _⟩
  | cons c cs ih =>
    rw [List.forall_mem_cons, ih, isDecimal, Option.isSome_iff_exists]
    constructor
    · rintro ⟨⟨d, hd⟩, ds, hds⟩
      exact ⟨d :: ds, .cons hd hds⟩
    · rintro ⟨_, _ | ⟨hd, hds⟩⟩
      exact ⟨⟨_, hd⟩, _, hds⟩

end Magnitude

end Text

/-! ### Texts that are states -/

open Text

section States

variable {text : String} {a : Atom}

theorem readState_eq_readNumber (hne : text.toList ≠ [])
    (hcs : ∀ c ∈ text.toList, isDigitSign c = true) : readState text = readNumber text := by
  rw [readState, List.isEmpty_eq_false_iff.2 hne, List.all_eq_true.2 hcs]
  rfl

theorem readState_eq_notState (h : text.toList = [] ∨ ¬ ∀ c ∈ text.toList, isDigitSign c = true) :
    readState text = .error (.notState text) := by
  have hbad : (!text.toList.isEmpty && text.toList.all isDigitSign) = false := by
    rw [Bool.and_eq_false_iff, Bool.not_eq_false', List.isEmpty_iff, ← Bool.not_eq_true,
      List.all_eq_true]
    exact h
  rw [readState, hbad]
  rfl

/-- **A state is written** in decimal digits, at least one of them and not too many. -/
theorem readState_eq_ok_iff :
    readState text = .ok a ↔ text.toList ≠ [] ∧ text.toList.length ≤ numeralLimit ∧
      (∀ c ∈ text.toList, isDecimal c = true) ∧ a = .number (decimalNumber text.toList) := by
  by_cases h : text.toList = [] ∨ ¬ ∀ c ∈ text.toList, isDigitSign c = true
  · rw [readState_eq_notState h]
    constructor
    · intro hr
      cases hr
    · rintro ⟨hne, _, hd, _⟩
      exact absurd (fun c hc => isDigitSign_of_isDecimal (hd c hc)) (h.resolve_left hne)
  · rw [not_or, not_not] at h
    obtain ⟨hne, hcs⟩ := h
    simp only [readState_eq_readNumber hne hcs, readNumber_eq_ok_iff, readInt_of_isDigitSign hcs,
      map_eq_ok_iff, readMagnitude_eq_ok_iff hcs]
    constructor
    · rintro ⟨_, ⟨_, ⟨_, hl, hd, rfl⟩, rfl⟩, rfl⟩
      exact ⟨hne, hl, hd, rfl⟩
    · rintro ⟨_, hl, hd, rfl⟩
      exact ⟨_, ⟨_, ⟨hne, hl, hd, rfl⟩, rfl⟩, rfl⟩

theorem exists_fault_iff :
    (∃ fault, readState text = .error fault) ↔ ∀ a, readState text ≠ .ok a := by
  cases readState text <;> simp

/-- **What a clause says** of a text that is no state: the same wherever it stands, as long as all
before it is right. -/
theorem read_of_noState {fault : SourceFault} (h : NoState (some text) fault) (read : SymbolReader)
    (symbol newState newSymbol move : Field) :
    Clause.read read [] [some text] = .error fault ∧
    Clause.read read [some text, symbol] [newState, newSymbol, move] = .error fault ∧
    ∀ state, NamesState state → NamesSymbol read symbol →
      Clause.read read [state, symbol] [some text, newSymbol, move] = .error fault :=
  ⟨read_eq_error_iff.2 (.start h), read_eq_error_iff.2 (.state h), fun _ hs hx =>
    read_eq_error_iff.2 (.newState hs hx h)⟩

/-- **States are read in decimal digits.**  A text of one to 4300 decimal digits, of whatever
scripts, is the state of their value in base ten.  Every other text is refused, and a clause that
has it in the place of a state says so.  A state that is written is read again. -/
theorem states_read_digits (text : String) :
    (∀ a, readState text = .ok a ↔ text ≠ "" ∧ text.length ≤ 4300 ∧
      ∃ ds : List ℕ, List.Forall₂ (fun c d => decimalValue? c = some d) text.toList ds ∧
        a = .number (Nat.ofDigits 10 ds.reverse : ℕ)) ∧
    ((∃ fault, readState text = .error fault) ↔
      text = "" ∨ 4300 < text.length ∨ ∃ c ∈ text.toList, isDecimal c = false) ∧
    (∀ c ∈ text.toList, IsStray c → ∃ fault, readState text = .error fault) ∧
    (∀ fault, readState text = .error fault →
      ∀ read symbol newState newSymbol move,
        Clause.read read [] [some text] = .error (.field text .state) ∧
        Clause.read read [some text, symbol] [newState, newSymbol, move] =
          .error (.field text .state) ∧
        ∀ state, NamesState state → NamesSymbol read symbol →
          Clause.read read [state, symbol] [some text, newSymbol, move] =
            .error (.field text .state)) ∧
    ∀ n : ℕ, n < 10 ^ 4300 → readState (toString n) = .ok (.number n) := by
  have hlimit : numeralLimit = 4300 := rfl
  have hread (a : Atom) : readState text = .ok a ↔ text ≠ "" ∧ text.length ≤ 4300 ∧
      (∀ c ∈ text.toList, isDecimal c = true) ∧ a = .number (decimalNumber text.toList) := by
    rw [readState_eq_ok_iff, ne_eq, String.toList_eq_nil_iff, String.length_toList, hlimit]
  have hfault : (∃ fault, readState text = .error fault) ↔
      text = "" ∨ 4300 < text.length ∨ ∃ c ∈ text.toList, isDecimal c = false := by
    have hgood : (∃ a, readState text = .ok a) ↔
        text ≠ "" ∧ text.length ≤ 4300 ∧ ∀ c ∈ text.toList, isDecimal c = true := by
      simp only [hread, exists_and_left, exists_eq, and_true]
    rw [exists_fault_iff, ← not_exists, hgood]
    simp only [not_and_or, not_not, ne_eq, Nat.not_le, not_forall, Bool.not_eq_true, exists_prop]
  refine ⟨fun a => ?_, hfault, fun c hc hs => ?_, fun fault h read symbol newState newSymbol move =>
    ?_, fun n hn => ?_⟩
  · rw [hread]
    constructor
    · rintro ⟨hne, hl, hd, rfl⟩
      obtain ⟨ds, hds⟩ := forall_isDecimal_iff.1 hd
      exact ⟨hne, hl, ds, hds, by rw [decimalNumber_eq_ofDigits hds]⟩
    · rintro ⟨hne, hl, ds, hds, rfl⟩
      exact ⟨hne, hl, forall_isDecimal_iff.2 ⟨ds, hds⟩, by rw [decimalNumber_eq_ofDigits hds]⟩
  · exact hfault.2 (.inr (.inr ⟨c, hc, isDecimal_of_isStray hs⟩))
  · have hno : NoState (some text) (.field text .state) := .text (exists_fault_iff.1 ⟨fault, h⟩)
    exact read_of_noState hno read symbol newState newSymbol move
  · rw [← hlimit] at hn
    exact readState_toString hn

/-- Digits of two scripts with zeros before them are a state, and a superscript is none. -/
theorem states_read_digits_mixed :
    readState "00\u0664\uff12" = .ok (.number 42) ∧
    (∃ fault, readState "4\u00b2" = .error fault) ∧
    Clause.read SymbolKind.truth.read [some "4\u00b2", none] [some "0", none, some "Hold"] =
      .error (.field "4\u00b2" .state) := by
  obtain ⟨hstate, _⟩ := states_read_digits "00\u0664\uff12"
  obtain ⟨_, _, hstray, hclause, _⟩ := states_read_digits "4\u00b2"
  have hmark : IsStray '\u00b2' := .inr (.inr (.inr (.inr (by decide +kernel))))
  obtain ⟨fault, hfault⟩ := hstray _ (by decide) hmark
  refine ⟨(hstate _).2 ⟨by decide, by decide, [0, 0, 4, 2], ?_, rfl⟩, ⟨fault, hfault⟩,
    (hclause fault hfault _ _ _ _ _).2.1⟩
  exact .cons (by decide +kernel) (.cons (by decide +kernel)
    (.cons (by decide +kernel) (.cons (by decide +kernel) .nil)))

end States

end TapeMachine

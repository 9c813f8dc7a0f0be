import Mathlib.Algebra.Order.Ring.Nat
import Mathlib.Data.List.Basic
import Mathlib.Data.List.Induction
import Mathlib.Data.List.TakeDrop
import Mathlib.Data.List.TakeWhile
import TapeMachine.Proofs.Results
import TapeMachine.SymbolKind

/-!
# Numerals that are written

A number is written in decimal digits with a minus sign before them if it is negative.  The numeral
is read as the number again, unless it has more digits than are read at all; and a number that was
read never has.

* `decimalNumber_toDigits`, `decimalNumber_lt`: the value of digits.
* `readMagnitude_of_isDecimal`: digits that are read.
* `readInt_toString`: a written number is read; `natAbs_lt_of_readInt`: a read number is not too
  long to be written.
* `readState_toString`: the same for states.
* `filter_grouped`, `grouped_of_lt`, `grouped_of_le`: digits in groups of three.
-/

namespace TapeMachine.Text

/-! ### Digits -/

theorem decimalValue?_of_isDigit {c : Char} (h : c.isDigit = true) :
    decimalValue? c = some (c.toNat - '0'.toNat) := by
  obtain ⟨hl, hu⟩ := Char.isDigit_iff_toNat.1 h
  have hz : 0x30 ≤ c.toNat ∧ c.toNat < 0x30 + 10 := ⟨hl, Nat.lt_succ_of_le hu⟩
  rw [decimalValue?, decimalZeros, List.findSome?_cons, if_pos hz]
  rfl

theorem decimalValue?_lt {c : Char} {n : Nat} (h : decimalValue? c = some n) : n < 10 := by
  obtain ⟨z, _, hz⟩ := List.exists_of_findSome?_eq_some h
  split at hz
  · next hc =>
    have hn : c.toNat - z = n := Option.some.inj hz
    omega
  · exact nomatch hz

theorem isDecimal_of_isDigit {c : Char} (h : c.isDigit = true) : isDecimal c = true := by
  rw [isDecimal, decimalValue?_of_isDigit h]
  rfl

theorem decimalNumber_concat (cs : List Char) (c : Char) :
    decimalNumber (cs ++ [c]) = 10 * decimalNumber cs + (decimalValue? c).getD 0 := by
  rw [decimalNumber, List.foldl_append]
  rfl

theorem decimalNumber_lt (cs : List Char) : decimalNumber cs < 10 ^ cs.length := by
  induction cs using List.reverseRecOn with
  | nil => decide
  | append_singleton cs c ih =>
    have hv : (decimalValue? c).getD 0 < 10 := by
      cases h : decimalValue? c with
      | none => decide
      | some n => exact decimalValue?_lt h
    rw [decimalNumber_concat, List.length_append, List.length_singleton, Nat.pow_succ]
    omega

theorem decimalNumber_toDigits (n : Nat) : decimalNumber (Nat.toDigits 10 n) = n := by
  have hv : ∀ c ∈ Nat.toDigits 10 n, (decimalValue? c).getD 0 = c.toNat - '0'.toNat := by
    intro c hc
    rw [decimalValue?_of_isDigit (Nat.isDigit_of_mem_toDigits (by decide) (by decide) hc)]
    rfl
  have hf : decimalNumber (Nat.toDigits 10 n) = Nat.ofDigitChars 10 (Nat.toDigits 10 n) 0 := by
    rw [Nat.ofDigitChars_eq_foldl, decimalNumber]
    exact List.foldl_ext _ _ _ fun _ c hc => congrArg (_ + ·) (hv c hc)
  rw [hf, Nat.ofDigitChars_ten_toDigits]

/-! ### Reading -/

theorem spanDigits_eq (cs : List Char) :
    spanDigits cs =
      (cs.takeWhile fun c => isDecimal c || c == '_',
        cs.dropWhile fun c => isDecimal c || c == '_') :=
  List.span_eq_takeWhile_dropWhile _ cs

theorem lt_of_readMagnitude {text : String} {cs : List Char} {n : Nat}
    (h : readMagnitude text cs = .ok n) : n < 10 ^ numeralLimit := by
  simp only [readMagnitude] at h
  split at h
  · exact nomatch h
  · split at h
    · exact nomatch h
    · next hlimit =>
      split at h
      · obtain rfl := Except.ok.inj h
        exact Nat.lt_of_lt_of_le (decimalNumber_lt _)
          (Nat.pow_le_pow_right (by decide) (Nat.le_of_not_lt hlimit))
      · exact nomatch h

/-- **A number that was read** is not too long to be read again. -/
theorem natAbs_lt_of_readInt {text : String} {n : Int} (h : readInt text = .ok n) :
    n.natAbs < 10 ^ numeralLimit := by
  unfold readInt at h
  split at h
  · obtain ⟨k, hk, rfl⟩ := map_eq_ok_iff.1 h
    obtain ⟨j, hj, hjk⟩ := bind_eq_ok_iff.1 hk
    obtain rfl := Except.ok.inj hjk
    rw [Int.natAbs_neg, Int.natAbs_natCast]
    exact lt_of_readMagnitude hj
  all_goals
    obtain ⟨k, hk, rfl⟩ := map_eq_ok_iff.1 h
    exact lt_of_readMagnitude hk

/-- **Digits of any scripts** are a number, unless there are too many. -/
theorem readMagnitude_of_isDecimal (text : String) {cs : List Char} (hne : cs ≠ [])
    (hd : ∀ c ∈ cs, isDecimal c = true) :
    readMagnitude text cs =
      if numeralLimit < cs.length then .error (.tooLong cs.length)
      else .ok (decimalNumber cs) := by
  have hspan : spanDigits cs = (cs, []) := by
    have hp : ∀ c ∈ cs, (isDecimal c || c == '_') = true := fun c hc => by
      rw [hd c hc, Bool.true_or]
    rw [spanDigits_eq, List.takeWhile_eq_self_iff.2 hp, List.dropWhile_eq_nil_iff.2 hp]
  have hspaced : wellSpaced cs = true := by
    have hbar : '_' ∉ cs := fun hm => absurd (hd '_' hm) (by decide)
    rw [wellSpaced, splitAt_of_notMem hbar]
    simpa using hne
  simp only [readMagnitude, hspan, List.filter_eq_self.2 hd, hspaced]
  rfl

theorem readMagnitude_toDigits (text : String) {n : Nat} (h : n < 10 ^ numeralLimit) :
    readMagnitude text (Nat.toDigits 10 n) = .ok n := by
  have hd : ∀ c ∈ Nat.toDigits 10 n, isDecimal c = true := fun c hc =>
    isDecimal_of_isDigit (Nat.isDigit_of_mem_toDigits (by decide) (by decide) hc)
  have hlength : (Nat.toDigits 10 n).length ≤ numeralLimit :=
    (Nat.length_toDigits_le_iff (by decide) (by decide)).2 h
  rw [readMagnitude_of_isDecimal text Nat.toDigits_ne_nil hd, if_neg (Nat.not_lt.2 hlength),
    decimalNumber_toDigits]

theorem isBlank_of_isDigit {c : Char} (h : c.isDigit = true) : isBlank c = false := by
  have hl : 48 ≤ c.toNat := (Char.isDigit_iff_toNat.1 h).1
  have hu : c.toNat ≤ 57 := (Char.isDigit_iff_toNat.1 h).2
  refine Bool.eq_false_iff.2 fun hb => ?_
  simp only [isBlank, Bool.or_eq_true, Bool.and_eq_true, decide_eq_true_eq, beq_iff_eq] at hb
  omega

theorem isNumeralBlank_of_isDigit {c : Char} (h : c.isDigit = true) : isNumeralBlank c = false := by
  rw [isNumeralBlank, isBlank_of_isDigit h, Bool.false_and]

theorem readInt_of_isDigit {text : String} {c : Char} {cs : List Char} (h : text.toList = c :: cs)
    (hc : c.isDigit = true) : readInt text = (readMagnitude text (c :: cs)).map Int.ofNat := by
  have hb : ¬ isNumeralBlank c = true := by
    rw [isNumeralBlank_of_isDigit hc]
    exact Bool.false_ne_true
  rw [readInt, h, List.dropWhile_cons_of_neg hb]
  split
  · next he =>
    obtain ⟨rfl, _⟩ := List.cons.inj he
    exact absurd hc (by decide)
  · next he =>
    obtain ⟨rfl, _⟩ := List.cons.inj he
    exact absurd hc (by decide)
  · rfl

theorem readInt_of_minus {text : String} {cs : List Char} (h : text.toList = '-' :: cs) :
    readInt text = (readMagnitude text cs).map fun n => -Int.ofNat n := by
  have hb : ¬ isNumeralBlank '-' = true := by decide
  rw [readInt, h, List.dropWhile_cons_of_neg hb]
  split
  · next he =>
    obtain ⟨_, rfl⟩ := List.cons.inj he
    cases readMagnitude text cs <;> rfl
  · next he => exact absurd (List.cons.inj he).1 (by decide)
  · next hne _ => exact absurd rfl (hne cs)

theorem toList_toString (n : Int) :
    (toString n).toList =
      if 0 ≤ n then Nat.toDigits 10 n.natAbs else '-' :: Nat.toDigits 10 n.natAbs := by
  cases n with
  | ofNat n =>
    have hs : toString (Int.ofNat n) = n.repr := rfl
    rw [hs, Nat.repr_eq_ofList_toDigits, String.toList_ofList]
    exact (if_pos (Int.natCast_nonneg n)).symm
  | negSucc n =>
    have hs : toString (Int.negSucc n) = "-" ++ (n + 1).repr := rfl
    rw [hs, Nat.repr_eq_ofList_toDigits, String.toList_append, String.toList_ofList,
      String.toList_ofList]
    exact (if_neg (Int.negSucc_not_nonneg n).1).symm

/-- **A number that is written** can be read, if it has not too many digits. -/
theorem readInt_toString {n : Int} (h : n.natAbs < 10 ^ numeralLimit) :
    readInt (toString n) = .ok n := by
  have hs := toList_toString n
  by_cases hn : 0 ≤ n
  · rw [if_pos hn] at hs
    have hne : Nat.toDigits 10 n.natAbs ≠ [] := Nat.toDigits_ne_nil
    obtain ⟨c, cs, hcs⟩ := List.exists_cons_of_ne_nil hne
    have hc : c.isDigit = true :=
      Nat.isDigit_of_mem_toDigits (by decide) (by decide) (hcs ▸ List.mem_cons_self)
    rw [readInt_of_isDigit (hs.trans hcs) hc, ← hcs, readMagnitude_toDigits _ h]
    exact congrArg Except.ok (Int.natAbs_of_nonneg hn)
  · rw [if_neg hn] at hs
    rw [readInt_of_minus hs, readMagnitude_toDigits _ h]
    have hneg : -(n.natAbs : Int) = n := by omega
    exact congrArg Except.ok hneg

/-! ### Digits in groups -/

theorem filter_groupDigits {cs : List Char} (h : ',' ∉ cs) :
    (groupDigits cs).filter (· ≠ ',') = cs := by
  have hself {cs : List Char} (h : ',' ∉ cs) : cs.filter (· ≠ ',') = cs :=
    List.filter_eq_self.2 fun c hc => by simpa using fun he : c = ',' => h (he ▸ hc)
  induction cs using groupDigits.induct with
  | case1 cs hlen ih =>
    rw [groupDigits, dif_pos hlen, List.filter_append, List.filter_cons_of_neg (by simp),
      ih fun hc => h (List.mem_of_mem_take hc), hself fun hc => h (List.mem_of_mem_drop hc),
      List.take_append_drop]
  | case2 cs hlen => rw [groupDigits, dif_neg hlen, hself h]

theorem groupDigits_append {cs : List Char} (h : cs ≠ []) (a b c : Char) :
    groupDigits (cs ++ [a, b, c]) = groupDigits cs ++ [',', a, b, c] := by
  have hlen : (cs ++ [a, b, c]).length - 3 = cs.length := by
    rw [List.length_append]
    rfl
  have hpos := List.length_pos_iff.2 h
  rw [groupDigits, dif_pos (by rw [List.length_append, List.length_cons]; simp; omega), hlen,
    List.take_left, List.drop_left]

theorem toList_grouped (k : Nat) : (grouped k).toList = groupDigits (Nat.toDigits 10 k) := by
  have hk : ¬ (k : Int) < 0 := by omega
  rw [grouped, if_neg hk, String.toList_ofList, Int.natAbs_natCast]

theorem filter_grouped (k : Nat) :
    (grouped k).toList.filter (· ≠ ',') = Nat.toDigits 10 k := by
  rw [toList_grouped]
  refine filter_groupDigits fun h => ?_
  exact absurd (Nat.isDigit_of_mem_toDigits (by decide) (by decide) h) (by decide)

theorem grouped_injective {k l : Nat} (h : grouped k = grouped l) : k = l := by
  have hdigits : Nat.toDigits 10 k = Nat.toDigits 10 l := by
    rw [← filter_grouped, ← filter_grouped, h]
  rw [← Nat.ofDigitChars_ten_toDigits (n := k), hdigits, Nat.ofDigitChars_ten_toDigits]

theorem grouped_of_lt {k : Nat} (h : k < 1000) : grouped k = toString k := by
  have hlen : ¬ 3 < (Nat.toDigits 10 k).length :=
    Nat.not_lt.2 ((Nat.length_toDigits_le_iff (by decide) (by decide)).2 h)
  have hs : toString k = k.repr := rfl
  rw [← String.toList_inj, toList_grouped, groupDigits, dif_neg hlen, hs,
    Nat.repr_eq_ofList_toDigits, String.toList_ofList]

/-- **Digits in groups of three**: those of the thousands, a comma, and three digits. -/
theorem grouped_of_le {k : Nat} (h : 1000 ≤ k) :
    grouped k = grouped (k / 1000 : Nat) ++ String.ofList
      [',', (k / 100 % 10).digitChar, (k / 10 % 10).digitChar, (k % 10).digitChar] := by
  have hdigits : Nat.toDigits 10 k = Nat.toDigits 10 (k / 1000) ++
      [(k / 100 % 10).digitChar, (k / 10 % 10).digitChar, (k % 10).digitChar] := by
    rw [Nat.toDigits_of_base_le (by decide) (by omega : 10 ≤ k),
      Nat.toDigits_of_base_le (by decide) (by omega : 10 ≤ k / 10),
      Nat.toDigits_of_base_le (by decide) (by omega : 10 ≤ k / 10 / 10)]
    simp [Nat.div_div_eq_div_mul]
  rw [← String.toList_inj, String.toList_append, String.toList_ofList, toList_grouped,
    toList_grouped, hdigits, groupDigits_append Nat.toDigits_ne_nil]

end TapeMachine.Text

namespace TapeMachine

open Text

/-! ### States and symbols -/

theorem readNumber_toString {n : Int} (h : n.natAbs < 10 ^ numeralLimit) :
    readNumber (toString n) = .ok (.number n) := by
  rw [readNumber, readInt_toString h]

theorem readNumber_eq_ok_iff {text : String} {a : Atom} :
    readNumber text = .ok a ↔ ∃ n, readInt text = .ok n ∧ a = .number n := by
  rw [readNumber]
  cases readInt text <;> simp [eq_comm]

theorem exists_of_readNumber {text : String} {a : Atom} (h : readNumber text = .ok a) :
    ∃ n : Int, a = .number n ∧ n.natAbs < 10 ^ numeralLimit := by
  obtain ⟨n, hn, rfl⟩ := readNumber_eq_ok_iff.1 h
  exact ⟨n, rfl, natAbs_lt_of_readInt hn⟩

theorem nonneg_of_readNumber {text : String} {n : Int} (h : readNumber text = .ok (.number n))
    (hm : '-' ∉ text.toList) : 0 ≤ n := by
  obtain ⟨i, hi, hni⟩ := readNumber_eq_ok_iff.1 h
  obtain rfl := Atom.number.inj hni
  unfold readInt at hi
  split at hi
  · next he =>
    exact absurd ((List.dropWhile_sublist _).subset (he ▸ List.mem_cons_self)) hm
  all_goals
    obtain ⟨k, _, rfl⟩ := map_eq_ok_iff.1 hi
    exact Int.natCast_nonneg k

theorem exists_of_readState {text : String} {a : Atom} (h : readState text = .ok a) :
    ∃ n : Nat, a = .number n ∧ n < 10 ^ numeralLimit := by
  simp only [readState] at h
  split at h
  · next hd =>
    obtain ⟨i, rfl, hi⟩ := exists_of_readNumber h
    have hall := List.all_eq_true.1 (Bool.and_eq_true_iff.1 hd).2
    have hnonneg := nonneg_of_readNumber h fun hm => absurd (hall '-' hm) (by decide)
    exact ⟨i.toNat, by rw [Int.toNat_of_nonneg hnonneg], by omega⟩
  · exact nomatch h

theorem readState_toString {n : Nat} (h : n < 10 ^ numeralLimit) :
    readState (toString (n : Int)) = .ok (.number n) := by
  have hs := toList_toString n
  rw [if_pos (Int.natCast_nonneg n), Int.natAbs_natCast] at hs
  have hd : (Nat.toDigits 10 n).all isDigitSign = true :=
    List.all_eq_true.2 fun c hc => isDigitSign_of_isDecimal
      (isDecimal_of_isDigit (Nat.isDigit_of_mem_toDigits (by decide) (by decide) hc))
  have hn : (Nat.toDigits 10 n).isEmpty = false := List.isEmpty_eq_false_iff.2 Nat.toDigits_ne_nil
  rw [readState, hs]
  simp only [hd, hn, Bool.not_false, Bool.true_and, if_true]
  exact readNumber_toString h

end TapeMachine

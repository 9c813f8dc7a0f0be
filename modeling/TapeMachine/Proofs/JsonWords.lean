import TapeMachine.Json.Printer
import TapeMachine.Json.Reader
import TapeMachine.Proofs.Numerals

/-!
# Strings and integers of JSON

A string is written character by character, and each of them is read from what is written for it:
itself, a letter behind a backslash, or one or two units of four hexadecimal digits.  An integer is
written in decimal digits, which are read up to the first character that no number goes on with.

* `readUnit_hexDigits`, `readEscapedUnit_of_lt`, `readEscapedUnit_of_le`: units.
* `readString_escapeChar`, `readString_renderString`: strings.
* `Json.Ends`, `readNumber_toDigits`: integers.
-/

namespace TapeMachine

open Text

theorem Text.hexValue?_hexDigit : ∀ n < 16, hexValue? (hexDigit n) = some n := by decide

namespace Json

/-! ### Units -/

theorem readUnit_hexDigits (n : Nat) (rest : List Char) :
    readUnit (hexDigits 4 n ++ rest) = some (n % 65536, rest) := by
  have hv (k : Nat) : hexValue? (hexDigit (k % 16)) = some (k % 16) :=
    hexValue?_hexDigit _ (Nat.mod_lt k (by decide))
  simp only [hexDigits, List.nil_append, List.cons_append, readUnit, hv]
  show some (_, rest) = some (_, rest)
  rw [Option.some_inj, Prod.mk.injEq]
  exact ⟨by omega, rfl⟩

theorem units_of_lt {c : Char} (h : c.toNat < 0x10000) : units c = [c.toNat] := if_pos h

theorem readEscapedUnit_of_lt {c : Char} (h : c.toNat < 0x10000) (rest : List Char) :
    readEscapedUnit (hexDigits 4 c.toNat ++ rest) = some (c, rest) := by
  have hn : c.toNat % 65536 = c.toNat := Nat.mod_eq_of_lt h
  have hvalid : c.toNat < 0xD800 ∨ 0xDFFF < c.toNat ∧ c.toNat < 0x110000 := c.valid
  have hhigh : ¬ (0xD800 ≤ c.toNat ∧ c.toNat < 0xDC00) := by omega
  have hlow : ¬ (0xDC00 ≤ c.toNat ∧ c.toNat < 0xE000) := by omega
  rw [readEscapedUnit, readUnit_hexDigits, hn]
  simp only [Option.bind_eq_bind, Option.bind_some, if_neg hhigh, if_neg hlow, Char.ofNat_toNat]

theorem readEscapedUnit_of_le {c : Char} (h : 0x10000 ≤ c.toNat) (rest : List Char) :
    readEscapedUnit (hexDigits 4 (0xD800 + (c.toNat - 0x10000) / 0x400) ++
      '\\' :: 'u' :: (hexDigits 4 (0xDC00 + (c.toNat - 0x10000) % 0x400) ++ rest)) =
      some (c, rest) := by
  have hvalid : c.toNat < 0xD800 ∨ 0xDFFF < c.toNat ∧ c.toNat < 0x110000 := c.valid
  obtain ⟨high, hh⟩ : ∃ high, high = 0xD800 + (c.toNat - 0x10000) / 0x400 := ⟨_, rfl⟩
  obtain ⟨low, hl⟩ : ∃ low, low = 0xDC00 + (c.toNat - 0x10000) % 0x400 := ⟨_, rfl⟩
  have hhigh : high % 65536 = high := by omega
  have hlow : low % 65536 = low := by omega
  have hc : 0x10000 + 0x400 * (high - 0xD800) + (low - 0xDC00) = c.toNat := by omega
  have hhr : 0xD800 ≤ high ∧ high < 0xDC00 := by omega
  have hlr : 0xDC00 ≤ low ∧ low < 0xE000 := by omega
  rw [← hh, ← hl, readEscapedUnit, readUnit_hexDigits, hhigh]
  simp only [Option.bind_eq_bind, Option.bind_some, if_pos hhr, readUnit_hexDigits, hlow,
    if_pos hlr, hc, Char.ofNat_toNat]

/-! ### Strings -/

/-- **A character that is written** is read as that character. -/
theorem readString_escapeChar (c : Char) (fuel : Nat) (done rest : List Char) :
    readString (fuel + 1) done (escapeChar c ++ rest) = readString fuel (c :: done) rest := by
  unfold escapeChar
  split
  · next h =>
    rcases h with rfl | rfl
    · rfl
    · rfl
  next hquote =>
  split
  · next h => rw [h]; rfl
  split
  · next h => rw [h]; rfl
  split
  · next h => rw [h]; rfl
  split
  · next h =>
    obtain rfl : c = '\x08' := Char.toNat_inj.1 h
    rfl
  split
  · next h =>
    obtain rfl : c = '\x0c' := Char.toNat_inj.1 h
    rfl
  rw [not_or] at hquote
  split
  · next h =>
    have hplain : ¬ (c.toNat < 0x20 ∨ c = '\\') := not_or.2 ⟨by omega, hquote.2⟩
    rw [List.singleton_append, readString, if_neg hplain]
    all_goals simp_all
  · by_cases h : c.toNat < 0x10000
    · rw [units_of_lt h]
      simp only [List.flatMap_cons, List.flatMap_nil, unitEscape, List.append_nil, List.cons_append]
      rw [readString, readEscapedUnit_of_lt h]
    · rw [units, if_neg h]
      simp only [List.flatMap_cons, List.flatMap_nil, unitEscape, List.append_nil, List.cons_append,
        List.append_assoc]
      rw [readString, readEscapedUnit_of_le (Nat.le_of_not_lt h)]

theorem readString_flatMap {cs : List Char} {fuel : Nat} (h : cs.length < fuel)
    (done rest : List Char) :
    readString fuel done (cs.flatMap escapeChar ++ '"' :: rest) =
      .ok (String.ofList (done.reverse ++ cs), rest) := by
  induction cs generalizing fuel done with
  | nil =>
    obtain ⟨fuel, rfl⟩ : ∃ n, fuel = n + 1 := ⟨fuel - 1, by rw [List.length_nil] at h; omega⟩
    rw [List.flatMap_nil, List.nil_append, readString, List.append_nil]
  | cons c cs ih =>
    rw [List.length_cons] at h
    obtain ⟨fuel, rfl⟩ : ∃ n, fuel = n + 1 := ⟨fuel - 1, by omega⟩
    rw [List.flatMap_cons, List.append_assoc, readString_escapeChar, ih (by omega),
      List.reverse_cons, List.append_assoc, List.singleton_append]

theorem length_escapeChar_pos (c : Char) : 0 < (escapeChar c).length := by
  unfold escapeChar units unitEscape
  repeat' split
  all_goals simp

theorem length_le_length_flatMap (cs : List Char) :
    cs.length ≤ (cs.flatMap escapeChar).length := by
  induction cs with
  | nil => exact Nat.le_refl 0
  | cons c cs ih =>
    have hc := length_escapeChar_pos c
    rw [List.flatMap_cons, List.length_append, List.length_cons]
    omega

theorem toList_renderString (s : String) :
    (renderString s).toList = '"' :: (s.toList.flatMap escapeChar ++ ['"']) := by
  rw [renderString, String.toList_ofList, List.cons_append]

/-- **A string that is written** is read, if it has no more fuel to ask for than its length. -/
theorem readString_renderString {s : String} {fuel : Nat}
    (h : (renderString s).toList.length ≤ fuel) (rest : List Char) :
    readString fuel [] (s.toList.flatMap escapeChar ++ '"' :: rest) = .ok (s, rest) := by
  have hlength : s.toList.length < fuel := by
    have hle := length_le_length_flatMap s.toList
    rw [toList_renderString, List.length_cons, List.length_append] at h
    omega
  rw [readString_flatMap hlength, List.reverse_nil, List.nil_append, String.ofList_toList]

/-! ### Integers -/

/-- No number goes on with the text. -/
def Ends (rest : List Char) : Prop :=
  ∀ c ∈ rest.head?, isAsciiDigit c = false ∧ c ≠ '.' ∧ c ≠ 'e' ∧ c ≠ 'E'

theorem isAsciiDigit_of_isDigit {c : Char} (h : c.isDigit = true) : isAsciiDigit c = true := by
  obtain ⟨hl, hu⟩ := Char.isDigit_iff_toNat.1 h
  rw [isAsciiDigit, Bool.and_eq_true, decide_eq_true_eq, decide_eq_true_eq]
  exact ⟨hl, hu⟩

theorem isAsciiDigit_of_mem_toDigits {c : Char} {n : Nat} (h : c ∈ Nat.toDigits 10 n) :
    isAsciiDigit c = true :=
  isAsciiDigit_of_isDigit (Nat.isDigit_of_mem_toDigits (by decide) (by decide) h)

theorem span_digits {ds rest : List Char} (hd : ∀ c ∈ ds, isAsciiDigit c = true)
    (hr : Ends rest) : (ds ++ rest).span isAsciiDigit = (ds, rest) := by
  have hrest : rest.takeWhile isAsciiDigit = [] ∧ rest.dropWhile isAsciiDigit = rest := by
    cases rest with
    | nil => exact ⟨rfl, rfl⟩
    | cons c rest =>
      have hc : ¬ isAsciiDigit c = true := by simp [(hr c rfl).1]
      exact ⟨List.takeWhile_cons_of_neg hc, List.dropWhile_cons_of_neg hc⟩
  rw [List.span_eq_takeWhile_dropWhile, List.takeWhile_append_of_pos hd,
    List.dropWhile_append_of_pos hd, hrest.1, hrest.2, List.append_nil]

theorem eq_nil_of_toDigits {n : Nat} {ds : List Char} (h : Nat.toDigits 10 n = '0' :: ds) :
    ds = [] := by
  have hn : decimalNumber ds = n := by
    have hv := decimalNumber_toDigits n
    rw [h, decimalNumber, List.foldl_cons] at hv
    exact hv
  by_contra hds
  have hpos : 0 < ds.length := List.length_pos_iff.2 hds
  have hle := (Nat.length_toDigits_le_iff (by decide) hpos).2 (hn ▸ decimalNumber_lt ds)
  rw [h, List.length_cons] at hle
  omega

theorem readWhole_toDigits (n : Nat) {rest : List Char} (hr : Ends rest) :
    readWhole (Nat.toDigits 10 n ++ rest) = some (Nat.toDigits 10 n, rest) := by
  obtain ⟨c, ds, hcs⟩ := List.exists_cons_of_ne_nil (Nat.toDigits_ne_nil (b := 10) (n := n))
  have hspan := span_digits (fun c => isAsciiDigit_of_mem_toDigits (n := n)) hr
  rw [hcs, List.cons_append] at hspan ⊢
  unfold readWhole
  split
  · next he =>
    obtain ⟨rfl, rfl⟩ := List.cons.inj he
    rw [eq_nil_of_toDigits hcs, List.nil_append]
  · rw [hspan]

theorem readFraction_of_ends {rest : List Char} (hr : Ends rest) : readFraction rest = none := by
  unfold readFraction
  split
  · exact absurd rfl (hr '.' rfl).2.1
  · rfl

theorem readExponent_of_ends {rest : List Char} (hr : Ends rest) : readExponent rest = none := by
  unfold readExponent
  split
  · next c cs =>
    obtain ⟨_, _, he, hE⟩ := hr c rfl
    rw [if_neg (not_or.2 ⟨he, hE⟩)]
  · rfl

/-- **An integer that is written** is read, if it has no more digits than are read at all. -/
theorem readNumber_toDigits {limit n : Nat} (hn : (Nat.toDigits 10 n).length ≤ limit)
    (negative : Bool) {rest : List Char} (hr : Ends rest) :
    readNumber limit negative (Nat.toDigits 10 n ++ rest) =
      .ok (.int (if negative then -n else n), rest) := by
  rw [readNumber, readWhole_toDigits n hr]
  simp only [readFraction_of_ends hr, readExponent_of_ends hr, Bool.false_eq_true, if_false,
    if_neg (Nat.not_lt.2 hn), decimalNumber_toDigits]

end Json

end TapeMachine

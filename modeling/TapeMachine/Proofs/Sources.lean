import TapeMachine.Proofs.ClauseGrammar
import TapeMachine.Proofs.TokenGrammar

/-!
# Sources of a kind

A source is read in two steps: it is scanned to tokens, and the tokens are read as clauses with the
symbols of the kind that was asked for.  Texts that are written one behind the other have the tokens
of the first and then those of the second, and so it is with clauses.

* `KindSpec.machineOfSource_eq_ok_iff`: the machine of a source is that of its clauses.
* `Written.append`, `AreClauses.readAll_append`: texts and clauses one behind the other.
* `readSource_eq_ok_iff`: the clauses that are read are those that the text is written as.
-/

namespace TapeMachine

open Text

/-! ### The two steps -/

theorem inSource_eq_ok_iff {α : Type} {x : Except SourceFault α} {a : α} :
    inSource x = .ok a ↔ x = .ok a := by
  cases x with
  | error fault => simp [inSource]
  | ok b => simp [inSource]

def readSource (read : SymbolReader) (source : String) : Except SourceFault (List Clause) :=
  scanSource source >>= Clause.readAll read

theorem ofSource_eq_map_readSource (read : SymbolReader) (source : String) :
    Machine.ofSource read source = (readSource read source).map Machine.ofClauses := by
  rw [Machine.ofSource, readSource]
  cases scanSource source <;> rfl

theorem ofSource_of_readSource {read : SymbolReader} {source : String} {clauses : List Clause}
    (h : readSource read source = .ok clauses) :
    Machine.ofSource read source = .ok (Machine.ofClauses clauses) := by
  rw [ofSource_eq_map_readSource, h]
  rfl

namespace KindSpec

variable {spec : KindSpec} {read : SymbolReader}

theorem machineOfSource_of_resolve (h : spec.resolve = .ok read) (source : String) :
    spec.machineOfSource source =
      inSource ((readSource read source).map Machine.ofClauses) := by
  rw [machineOfSource, readSource]
  cases scanSource source with
  | error fault => rfl
  | ok ts => exact machineOfTokens_of_resolve h ts

theorem machineOfSource_eq_ok_iff (h : spec.resolve = .ok read) {source : String} {m : Machine} :
    spec.machineOfSource source = .ok m ↔
      ∃ clauses, readSource read source = .ok clauses ∧ Machine.ofClauses clauses = m := by
  rw [machineOfSource_of_resolve h, inSource_eq_ok_iff, map_eq_ok_iff]

theorem tapeOfText_of_resolve (h : spec.resolve = .ok read) (text : String) :
    spec.tapeOfText text = inSource (Tape.ofText read text) := by
  rw [tapeOfText, resolved, h]
  rfl

end KindSpec

/-! ### Written sources -/

theorem scan_of_written {ts : List Token} {cs : List Char} (h : Written ts cs) :
    Token.scan cs = .ok ts := by
  refine bind_eq_ok_iff.2 ⟨.resting ts, Scanner.feed_written h, ?_⟩
  rw [Scanner.finish, Scanner.resting, List.reverse_reverse]

theorem written_of_scan {ts : List Token} {cs : List Char} (h : Token.scan cs = .ok ts) :
    Written ts cs := by
  obtain ⟨s, hs, ht⟩ := bind_eq_ok_iff.1 h
  cases Scanner.reads_start.feed hs with
  | @resting us _ hw =>
    have hu : us = ts := by simpa [Scanner.finish, Scanner.resting] using ht
    exact hu ▸ hw
  | within _ _ _ => cases ht
  | pending _ => cases ht

theorem IsBlankText.append {v w : List Char} (hv : IsBlankText v) (hw : IsBlankText w) :
    IsBlankText (v ++ w) := by
  intro c hc
  rcases List.mem_append.1 hc with hc | hc
  · exact hv c hc
  · exact hw c hc

theorem Written.append_blank {ts : List Token} {cs w : List Char} (h : Written ts cs)
    (hw : IsBlankText w) : Written ts (cs ++ w) := by
  cases h with
  | blank hv => exact .blank (hv.append hw)
  | snoc hg hu hv =>
    rw [List.append_assoc]
    exact .snoc hg hu (hv.append hw)

theorem Written.append {ts us : List Token} {cs ds : List Char} (h : Written ts cs)
    (g : Written us ds) : Written (ts ++ us) (cs ++ ds) := by
  induction g with
  | blank hw =>
    rw [List.append_nil]
    exact h.append_blank hw
  | snoc _ hu hw ih =>
    rw [← List.append_assoc, ← List.append_assoc, ← List.append_assoc]
    exact .snoc ih hu hw

theorem AreClauses.readAll_append {read : SymbolReader} {ts : List Token} {cs : List Clause}
    (h : AreClauses read ts cs) (us : List Token) :
    Clause.readAll read (ts ++ us) = (Clause.readAll read us).map (cs ++ ·) := by
  induction h with
  | nil =>
    rw [List.nil_append]
    cases Clause.readAll read us <;> rfl
  | cons hc _ ih =>
    simp only [List.cons_append, Clause.readAll, hc.read_eq, ih]
    cases Clause.readAll read us <;> rfl

section Reading

variable {read : SymbolReader} {source : String} {ts : List Token} {clauses : List Clause}

theorem scanSource_eq_ok_iff : scanSource source = .ok ts ↔ Written ts source.toList := by
  rw [scanSource]
  constructor
  · intro h
    refine written_of_scan ?_
    cases hs : Token.scan source.toList with
    | error fault => simp [hs] at h
    | ok us => simpa [hs] using h
  · intro h
    rw [scan_of_written h]

/-- **The clauses that are read** are those that the text is written as. -/
theorem readSource_eq_ok_iff :
    readSource read source = .ok clauses ↔
      ∃ ts, Written ts source.toList ∧ AreClauses read ts clauses := by
  rw [readSource, bind_eq_ok_iff]
  simp only [scanSource_eq_ok_iff, readAll_eq_ok_iff]

end Reading

end TapeMachine

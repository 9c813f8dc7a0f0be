import TapeMachine.Proofs.ScanFaults

/-!
# Sources one behind the other

A source with another text behind it is read as if the two were read apart: the scanner keeps nothing
of a source but its tokens, the clauses of a source end where it ends, and what the second text says
overrides what the first one says.

* `Scanner.behind`: a scanner that has read some tokens before; `feed_behind`: it does not see them.
* `scan_append`, `readSource_append`: tokens and clauses of the two, one list behind the other.
* `Machine.table_ofClauses_append`, `Machine.start_ofClauses_append`: the later clauses override.
* `ofSource_append`: the machine of the two, or the fault of the second.
-/

namespace TapeMachine

open Text

/-! ### Tokens -/

namespace Scanner

/-- The scanner with some tokens before those that it has. -/
def behind (ts : List Token) (s : Scanner) : Scanner := { s with tokens := s.tokens ++ ts.reverse }

variable (ts : List Token)

theorem closeGroup_behind (s : Scanner) :
    (s.behind ts).closeGroup = s.closeGroup.behind ts := by
  have hb : (s.behind ts).buffer = s.buffer := rfl
  rw [closeGroup, closeGroup, hb]
  cases (strip s.buffer.reverse).isEmpty <;> rfl

theorem step_behind (s : Scanner) (c : Char) :
    (s.behind ts).step c = (s.step c).map (behind ts) := by
  have hf : (s.behind ts).fragment? = s.fragment? := rfl
  rw [step, step, hf]
  cases s.fragment? with
  | none =>
    simp only
    split_ifs <;> rfl
  | some f =>
    cases f with
    | group =>
      simp only [closeGroup_behind]
      split_ifs <;> rfl
    | arrow =>
      simp only
      split_ifs <;> rfl

theorem feed_behind (s : Scanner) (cs : List Char) :
    (s.behind ts).feed cs = (s.feed cs).map (behind ts) := by
  induction cs generalizing s with
  | nil => rfl
  | cons c cs ih =>
    rw [feed_cons, feed_cons, step_behind]
    cases s.step c with
    | error fault => rfl
    | ok s' => exact ih s'

theorem finish_behind (s : Scanner) : (s.behind ts).finish = s.finish.map (ts ++ ·) := by
  obtain ⟨fragment?, tokens, fields, buffer⟩ := s
  cases fragment? with
  | none =>
    have hr : (tokens ++ ts.reverse).reverse = ts ++ tokens.reverse := by
      rw [List.reverse_append, List.reverse_reverse]
    exact congrArg Except.ok hr
  | some f => rfl

end Scanner

open Scanner

/-- **A scan goes on behind a source as if it began there.** -/
theorem scan_append {ts : List Token} {cs : List Char} (h : Token.scan cs = .ok ts)
    (ds : List Char) : Token.scan (cs ++ ds) = (Token.scan ds).map (ts ++ ·) := by
  have hs : start.feed cs = .ok (start.behind ts) := feed_written (written_of_scan h)
  have hf : start.feed (cs ++ ds) = (start.feed ds).map (behind ts) := by
    rw [feed_append, hs]
    exact feed_behind ts start ds
  rw [Token.scan, Token.scan, hf]
  cases start.feed ds with
  | error fault => rfl
  | ok s => exact finish_behind ts s

theorem scan_append_of_unexpected {cs : List Char} {c : Char}
    (h : Token.scan cs = .error (.unexpected c)) (ds : List Char) :
    Token.scan (cs ++ ds) = .error (.unexpected c) := by
  obtain ⟨p, r, rfl, hb⟩ := scan_eq_unexpected_iff.1 h
  refine scan_eq_unexpected_iff.2 ⟨p, r ++ ds, ?_, hb⟩
  rw [List.append_assoc, List.cons_append]

theorem scanSource_append {ts : List Token} {a : String} (h : scanSource a = .ok ts)
    (b : String) : scanSource (a ++ b) = (scanSource b).map (ts ++ ·) := by
  have hs : Token.scan a.toList = .ok ts := scan_of_written (scanSource_eq_ok_iff.1 h)
  rw [scanSource, scanSource, String.toList_append, scan_append hs]
  cases Token.scan b.toList <;> rfl

/-! ### Clauses -/

section Clauses

variable {read : SymbolReader} {cs ds : List Clause} {a b : String}

theorem readSource_append (h : readSource read a = .ok cs) (b : String) :
    readSource read (a ++ b) = (readSource read b).map (cs ++ ·) := by
  obtain ⟨ts, hs, hc⟩ := bind_eq_ok_iff.1 h
  rw [readSource, readSource, scanSource_append hs]
  cases scanSource b with
  | error fault => rfl
  | ok us => exact (readAll_eq_ok_iff.1 hc).readAll_append us

def HasStart (read : SymbolReader) (source : String) : Prop :=
  ∃ ts clauses q, Written ts source.toList ∧ AreClauses read ts clauses ∧ Clause.start q ∈ clauses

theorem hasStart_iff (h : readSource read b = .ok ds) :
    HasStart read b ↔ ds.filterMap Clause.start? ≠ [] := by
  constructor
  · rintro ⟨ts, ds', q, hw, hc, hq⟩ he
    -- a source is written as one list of clauses only
    have hd : readSource read b = .ok ds' := readSource_eq_ok_iff.2 ⟨ts, hw, hc⟩
    rw [h] at hd
    cases hd
    exact nomatch List.filterMap_eq_nil_iff.1 he _ hq
  · intro hn
    obtain ⟨q, hq⟩ := List.exists_mem_of_ne_nil _ hn
    obtain ⟨c, hc, hcq⟩ := List.mem_filterMap.1 hq
    obtain ⟨ts, hw, ha⟩ := readSource_eq_ok_iff.1 h
    cases c with
    | rule r => exact nomatch hcq
    | start q' => exact ⟨ts, ds, q', hw, ha, hc⟩

end Clauses

namespace Machine

variable (cs ds : List Clause)

theorem table_ofClauses_append (s : Situation) :
    (ofClauses (cs ++ ds)).table.find? s =
      ((ofClauses ds).table.find? s).or ((ofClauses cs).table.find? s) := by
  rw [table_ofClauses, table_ofClauses, table_ofClauses, List.filterMap_append,
    Table.find?_ofList_append]

theorem start_ofClauses_append :
    (ds.filterMap Clause.start? ≠ [] → (ofClauses (cs ++ ds)).start = (ofClauses ds).start) ∧
      (ds.filterMap Clause.start? = [] → (ofClauses (cs ++ ds)).start = (ofClauses cs).start) := by
  rw [(denoted_ofClauses (cs ++ ds)).start, (denoted_ofClauses ds).start,
    (denoted_ofClauses cs).start, List.filterMap_append, List.getLast?_append]
  constructor
  · intro hn
    rw [List.getLast?_eq_some_getLast hn, Option.some_or]
  · intro he
    rw [he, List.getLast?_nil, Option.none_or]

end Machine

/-- **Sources are read one behind the other.**  Behind a source any text fails as it fails alone, and
with the same fault.  If it does not fail, the machine of the two has its action where it has one and
that of the first source elsewhere, and it starts as it says, or, if it does not say, as the first
source does.  A character that cannot be read stays the fault whatever follows.  Whatever reads the
symbols, this holds of the kind that was asked for too. -/
theorem ofSource_append (read : SymbolReader) (a b : String) :
    (∀ m₁, Machine.ofSource read a = .ok m₁ →
      (∀ fault, Machine.ofSource read (a ++ b) = .error fault ↔
        Machine.ofSource read b = .error fault) ∧
      ∀ m₂ m, Machine.ofSource read b = .ok m₂ → Machine.ofSource read (a ++ b) = .ok m →
        (∀ s, m.table.find? s = (m₂.table.find? s).or (m₁.table.find? s)) ∧
        (HasStart read b → m.start = m₂.start) ∧ (¬ HasStart read b → m.start = m₁.start)) ∧
    (∀ c, Token.scan a.toList = .error (.unexpected c) →
      Token.scan (a ++ b).toList = .error (.unexpected c)) ∧
    (∀ spec : KindSpec, spec.resolve = .ok read →
      ∀ source, spec.machineOfSource source = inSource (Machine.ofSource read source)) := by
  refine ⟨?_, ?_, ?_⟩
  · intro m₁ h₁
    rw [ofSource_eq_map_readSource, map_eq_ok_iff] at h₁
    obtain ⟨cs, hcs, rfl⟩ := h₁
    simp only [ofSource_eq_map_readSource, readSource_append hcs]
    cases hb : readSource read b with
    | error fault' =>
      refine ⟨fun fault => Iff.rfl, ?_⟩
      intro m₂ m h₂
      exact nomatch h₂
    | ok ds =>
      refine ⟨?_, ?_⟩
      · intro fault
        constructor
        · intro h
          exact nomatch h
        · intro h
          exact nomatch h
      · intro m₂ m h₂ h
        cases h₂
        cases h
        have hs := Machine.start_ofClauses_append cs ds
        rw [hasStart_iff hb, not_not]
        exact ⟨Machine.table_ofClauses_append cs ds, hs⟩
  · intro c hc
    rw [String.toList_append]
    exact scan_append_of_unexpected hc b.toList
  · intro spec hr source
    rw [KindSpec.machineOfSource_of_resolve hr, ofSource_eq_map_readSource]

/-- A starting state and a rule stay, another rule is overridden with its symbol written otherwise. -/
theorem ofSource_append_overridden :
    ∃ m, Machine.ofSource SymbolKind.number.read
        ("() -> (1) (0, 1) -> (0, None, Left) (5, 5) -> (6, 6, Right)" ++ "(0, 01) -> (1, 2, hold)") =
          .ok m ∧
      m.start = .number 1 ∧
      m.table.find? ⟨.number 0, .number 1⟩ = some ⟨.number 1, .number 2, .hold⟩ ∧
      m.table.find? ⟨.number 5, .number 5⟩ = some ⟨.number 6, .number 6, .right⟩ := by
  have ha : readSource SymbolKind.number.read
      "() -> (1) (0, 1) -> (0, None, Left) (5, 5) -> (6, 6, Right)" =
        .ok [.start (.number 1), .rule ⟨⟨.number 0, .number 1⟩, ⟨.number 0, .blank, .left⟩⟩,
          .rule ⟨⟨.number 5, .number 5⟩, ⟨.number 6, .number 6, .right⟩⟩] :=
    eq_ok_of_toOption (by decide +kernel)
  have hb : readSource SymbolKind.number.read "(0, 01) -> (1, 2, hold)" =
      .ok [.rule ⟨⟨.number 0, .number 1⟩, ⟨.number 1, .number 2, .hold⟩⟩] :=
    eq_ok_of_toOption (by decide +kernel)
  have hab := readSource_append ha "(0, 01) -> (1, 2, hold)"
  rw [hb] at hab
  have h := ofSource_of_readSource hab
  obtain ⟨_, hok⟩ := (ofSource_append SymbolKind.number.read _ _).1 _ (ofSource_of_readSource ha)
  obtain ⟨hfind, _, hstart⟩ := hok _ _ (ofSource_of_readSource hb) h
  have hn : ¬ HasStart SymbolKind.number.read "(0, 01) -> (1, 2, hold)" := by
    intro hs
    exact (hasStart_iff hb).1 hs rfl
  refine ⟨_, h, hstart hn, ?_, ?_⟩
  · rw [hfind]
    decide +kernel
  · rw [hfind]
    decide +kernel

end TapeMachine

import TapeMachine.Proofs.Numerals
import TapeMachine.Proofs.PrintedFields
import TapeMachine.RunRecord

/-!
# Symbols and rules that are printed

A symbol that was read is printed as a field that is read as the same symbol again: a text and a
truth value as they were written, a number perhaps with fewer signs.  Machines that come from
sources have no other symbols in their rules, and no states but numbers.

* `SymbolKind.Holds`: the values of a kind.
* `SymbolKind.Prints`: symbols that can be printed and read.
* `SymbolKind.prints_of_isSymbol`: what was read can be printed.
* `SymbolKind.RulePrints`: rules that can be printed as clauses; `prints_of_machineOfSource`: the
  rules of a machine are such.
-/

namespace TapeMachine

open Text TapeMachine.Field

/-! ### Numbers -/

theorem mem_toString {n : Int} {c : Char} (h : c ∈ (toString n).toList) :
    c.isDigit = true ∨ c = '-' := by
  rw [toList_toString] at h
  split at h
  · exact Or.inl (Nat.isDigit_of_mem_toDigits (by decide) (by decide) h)
  · rcases List.mem_cons.1 h with rfl | h
    · exact Or.inr rfl
    · exact Or.inl (Nat.isDigit_of_mem_toDigits (by decide) (by decide) h)

theorem notMem_toString {c : Char} (hd : c.isDigit = false) (hm : c ≠ '-') (n : Int) :
    c ∉ (toString n).toList := by
  intro h
  rcases mem_toString h with h | h
  · rw [hd] at h
    exact nomatch h
  · exact hm h

theorem whole_toString (n : Int) : Whole (some (toString n)) := by
  refine whole_some (strip_of_forall fun c hc => ?_) fun h => ?_
  · rcases mem_toString hc with hc | rfl
    · exact isBlank_of_isDigit hc
    · decide
  · refine notMem_toString (c := 'N') (by decide) (by decide) n ?_
    rw [h]
    decide +kernel

/-! ### Symbols -/

abbrev Atom.field (a : Atom) : Field := RunRecord.cellText a

theorem render_eq_word (a : Atom) : a.render = a.field.word := by
  cases a <;> rfl

theorem field_eq_empty_iff {a : Atom} : a.field = some "" ↔ a = .text "" := by
  cases a with
  | blank => simp [Atom.field, RunRecord.cellText]
  | truth b => cases b <;> decide +kernel
  | number n =>
    refine ⟨fun h => ?_, fun h => nomatch h⟩
    have he : toString n = "" := Option.some.inj h
    have hl := toList_toString n
    rw [he] at hl
    split at hl
    · exact absurd hl.symm Nat.toDigits_ne_nil
    · exact nomatch hl
  | text s =>
    have hf : (Atom.text s).field = some s := rfl
    rw [hf, Option.some.injEq, Atom.text.injEq]

namespace SymbolKind

variable {kind : SymbolKind} {f : Field} {a : Atom} {c : Char}

def Holds : SymbolKind → Atom → Prop
  | .truth, .truth _ => True
  | .number, .number _ => True
  | .text, .text _ => True
  | _, _ => False

/-- The symbol is printed as one field, and this is read as the symbol. -/
structure Prints (kind : SymbolKind) (a : Atom) : Prop where
  read : IsSymbol kind.read a.field a
  plain : a.field.Plain

/-- A text is read as a value of the kind, which is printed as the text, unless it is a number. -/
theorem holds_and_field_of_read {text : String} (h : kind.read text = .ok a) :
    kind.Holds a ∧ (a.field = some text ∨
      kind = .number ∧ ∃ n : Int, a = .number n ∧ n.natAbs < 10 ^ numeralLimit) := by
  cases kind with
  | truth =>
    simp only [read] at h
    split at h
    · next hs =>
      obtain rfl := Except.ok.inj h
      exact ⟨trivial, Or.inl (congrArg some hs.symm)⟩
    · split at h
      · next hs =>
        obtain rfl := Except.ok.inj h
        exact ⟨trivial, Or.inl (congrArg some hs.symm)⟩
      · exact nomatch h
  | number =>
    obtain ⟨n, rfl, hn⟩ := exists_of_readNumber h
    exact ⟨trivial, Or.inr ⟨rfl, n, rfl, hn⟩⟩
  | text =>
    obtain rfl := Except.ok.inj h
    exact ⟨trivial, Or.inl rfl⟩

theorem blank_or_holds (h : IsSymbol kind.read f a) : a = .blank ∨ kind.Holds a := by
  cases h with
  | blank => exact Or.inl rfl
  | text ht => exact Or.inr (holds_and_field_of_read ht).1

theorem field_of_isSymbol (h : IsSymbol kind.read f a) :
    a.field = f ∨ kind = .number ∧ ∃ n : Int, a = .number n ∧ n.natAbs < 10 ^ numeralLimit := by
  cases h with
  | blank => exact Or.inl rfl
  | text ht => exact (holds_and_field_of_read ht).2

theorem free_field (h : IsSymbol kind.read f a) (hf : f.Free c) (hd : c.isDigit = false)
    (hm : c ≠ '-') : a.field.Free c := by
  rcases field_of_isSymbol h with he | ⟨_, n, rfl, _⟩
  · exact he ▸ hf
  · exact free_some (notMem_toString hd hm n)

/-- **A symbol that was read can be printed.** -/
theorem prints_of_isSymbol (h : IsSymbol kind.read f a) (hf : f.Plain) : kind.Prints a := by
  have hfree : a.field.Free ',' := free_field h hf.free_comma (by decide) (by decide)
  rcases field_of_isSymbol h with he | ⟨rfl, n, rfl, hn⟩
  · exact ⟨he ▸ h, he ▸ hf⟩
  · exact ⟨.text (readNumber_toString hn), whole_toString n, hfree⟩

theorem eq_text_of_prints_empty (h : kind.Prints (.text "")) : kind = .text := by
  have hf : (Atom.text "").field = some "" := rfl
  have hr := h.read
  rw [hf] at hr
  cases hr with
  | text ht =>
    cases kind with
    | text => rfl
    | truth => exact nomatch ht
    | number => exact nomatch ht

end SymbolKind

/-! ### States and moves -/

/-- The states that can be read. -/
def Atom.IsState (q : Atom) : Prop := ∃ n : Nat, q = .number n ∧ n < 10 ^ numeralLimit

theorem isState_zero : Atom.IsState (.number 0) := ⟨0, rfl, Nat.pow_pos (by decide)⟩

section States

variable {q : Atom} (h : q.IsState)
include h

theorem readState_label : readState q.label = .ok q := by
  obtain ⟨n, rfl, hn⟩ := h
  exact readState_toString hn

theorem grouped_label : Field.Grouped (some q.label) := by
  obtain ⟨n, rfl, _⟩ := h
  have hfree {c : Char} (hd : c.isDigit = false) (hm : c ≠ '-') :
      Field.Free c (some (toString (n : Int))) := free_some (notMem_toString hd hm n)
  exact ⟨⟨whole_toString n, hfree (by decide) (by decide)⟩, hfree (by decide) (by decide)⟩

theorem Atom.IsState.end_notMem_label : '\n' ∉ q.label.toList := by
  obtain ⟨n, rfl, _⟩ := h
  exact notMem_toString (by decide) (by decide) n

theorem label_ne_empty : q.label ≠ "" := by
  intro he
  have hr := readState_label h
  rw [he] at hr
  exact nomatch hr

end States

theorem grouped_name (m : Move) : Field.Grouped (some m.name) := by
  have hw : Field.Whole (some m.name) := by
    cases m <;> exact whole_some (by decide +kernel) (by decide +kernel)
  have hcomma : ',' ∉ m.name.toList := by cases m <;> decide +kernel
  have hclose : ')' ∉ m.name.toList := by cases m <;> decide +kernel
  exact ⟨⟨hw, free_some hcomma⟩, free_some hclose⟩

/-! ### Rules -/

namespace SymbolKind

variable {kind : SymbolKind}

structure PrintsInGroup (kind : SymbolKind) (a : Atom) : Prop where
  read : IsSymbol kind.read a.field a
  grouped : a.field.Grouped

theorem PrintsInGroup.prints {a : Atom} (h : kind.PrintsInGroup a) : kind.Prints a :=
  ⟨h.read, h.grouped.toPlain⟩

structure CausePrints (kind : SymbolKind) (s : Situation) : Prop where
  state : s.state.IsState
  symbol : kind.PrintsInGroup s.symbol

structure EffectPrints (kind : SymbolKind) (a : Action) : Prop where
  state : a.state.IsState
  symbol : kind.PrintsInGroup a.symbol

/-- The rule can be printed as a clause. -/
structure RulePrints (kind : SymbolKind) (r : Rule) : Prop where
  cause : kind.CausePrints r.situation
  effect : kind.EffectPrints r.action

def ClausePrints (kind : SymbolKind) : Clause → Prop
  | .start q => q.IsState
  | .rule r => kind.RulePrints r

theorem printsInGroup_of_isSymbol {f : Field} {a : Atom} (h : IsSymbol kind.read f a)
    (hf : f.Grouped) : kind.PrintsInGroup a := by
  have hp := prints_of_isSymbol h hf.toPlain
  exact ⟨hp.read, hp.plain, free_field h hf.free_close (by decide) (by decide)⟩

theorem clausePrints_of_isClause {cause effect : List Field} {c : Clause}
    (h : IsClause kind.read cause effect c)
    (hc : ∀ f ∈ cause, f.Grouped) (he : ∀ f ∈ effect, f.Grouped) : kind.ClausePrints c := by
  cases h with
  | start hq => exact exists_of_readState hq
  | @rule _ _ _ symbol newSymbol _ _ _ _ _ hq hx hr hy _ =>
    have hsymbol := hc symbol (List.mem_cons_of_mem _ List.mem_cons_self)
    have hnewSymbol := he newSymbol (List.mem_cons_of_mem _ List.mem_cons_self)
    exact ⟨⟨exists_of_readState hq, printsInGroup_of_isSymbol hx hsymbol⟩,
      ⟨exists_of_readState hr, printsInGroup_of_isSymbol hy hnewSymbol⟩⟩

/-- **Clauses that were read can be printed.** -/
theorem clausePrints_of_areClauses {ts : List Token} {clauses : List Clause}
    (h : AreClauses kind.read ts clauses)
    (ht : ∀ fs, .group fs ∈ ts → ∀ f ∈ fs, f.Grouped) : ∀ c ∈ clauses, kind.ClausePrints c := by
  induction h with
  | nil => exact fun c hc => absurd hc List.not_mem_nil
  | @cons cause effect c ts cs hc _ ih =>
    have hcause := ht cause List.mem_cons_self
    have heffect := ht effect (List.mem_cons_of_mem _ (List.mem_cons_of_mem _ List.mem_cons_self))
    intro d hd
    rcases List.mem_cons.1 hd with rfl | hd
    · exact clausePrints_of_isClause hc hcause heffect
    · refine ih (fun fs hfs => ht fs ?_) d hd
      exact List.mem_cons_of_mem _ (List.mem_cons_of_mem _ (List.mem_cons_of_mem _ hfs))

theorem clausePrints_of_readSource {source : String} {clauses : List Clause}
    (h : readSource kind.read source = .ok clauses) : ∀ c ∈ clauses, kind.ClausePrints c := by
  obtain ⟨ts, hw, hc⟩ := readSource_eq_ok_iff.1 h
  exact clausePrints_of_areClauses hc fun fs hfs => hw.grouped hfs

end SymbolKind

/-! ### Tables -/

section Tables

variable {P : Situation → Prop} {Q : Action → Prop}

/-- An entry of a table may have its situation from one rule and its action from a later one. -/
theorem forall_mem_insertRule {s : Situation} {a : Action} {rules : List Rule} (hs : P s) (ha : Q a)
    (h : ∀ r ∈ rules, P r.situation ∧ Q r.action) :
    ∀ r ∈ insertRule s a rules, P r.situation ∧ Q r.action := by
  induction rules with
  | nil =>
    intro r hr
    rw [List.mem_singleton.1 hr]
    exact ⟨hs, ha⟩
  | cons q rules ih =>
    obtain ⟨hq, hrules⟩ := List.forall_mem_cons.1 h
    rw [insertRule]
    split
    · exact List.forall_mem_cons.2 ⟨⟨hq.1, ha⟩, hrules⟩
    · exact List.forall_mem_cons.2 ⟨hq, ih hrules⟩

end Tables

structure Draft.Prints (kind : SymbolKind) (d : Draft) : Prop where
  start : d.start.IsState
  rules : ∀ r ∈ d.table.rules, kind.RulePrints r

theorem Draft.prints_empty (kind : SymbolKind) : Draft.empty.Prints kind :=
  ⟨isState_zero, fun _ hr => absurd hr List.not_mem_nil⟩

theorem Draft.Prints.add {kind : SymbolKind} {d : Draft} {c : Clause} (h : d.Prints kind)
    (hc : kind.ClausePrints c) : (d.add c).Prints kind := by
  cases c with
  | start q => exact ⟨hc, h.rules⟩
  | rule r =>
    refine ⟨h.start, fun q hq => ?_⟩
    have hboth := forall_mem_insertRule hc.cause hc.effect
      (fun p hp => ⟨(h.rules p hp).cause, (h.rules p hp).effect⟩) q hq
    exact ⟨hboth.1, hboth.2⟩

theorem Draft.Prints.foldl {kind : SymbolKind} {clauses : List Clause} {d : Draft}
    (h : d.Prints kind) (hc : ∀ c ∈ clauses, kind.ClausePrints c) :
    (clauses.foldl Draft.add d).Prints kind := by
  induction clauses generalizing d with
  | nil => exact h
  | cons c clauses ih =>
    obtain ⟨hfirst, hrest⟩ := List.forall_mem_cons.1 hc
    exact ih (h.add hfirst) hrest

/-- **The rules of a machine from a source can be printed.** -/
theorem prints_of_machineOfSource {spec : KindSpec} {kind : SymbolKind}
    (hk : spec.resolve = .ok kind.read) {source : String} {m : Machine}
    (h : spec.machineOfSource source = .ok m) :
    m.start.IsState ∧ ∀ r ∈ m.table.rules, kind.RulePrints r := by
  obtain ⟨clauses, hr, rfl⟩ := (KindSpec.machineOfSource_eq_ok_iff hk).1 h
  have hd := (Draft.prints_empty kind).foldl (SymbolKind.clausePrints_of_readSource hr)
  exact ⟨hd.start, hd.rules⟩

end TapeMachine

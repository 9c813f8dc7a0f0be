import Mathlib.Data.List.Perm.Basic
import TapeMachine.Machine.Dump
import TapeMachine.Proofs.PrintedRules
import TapeMachine.Proofs.Sorting

/-!
# Dumped clauses

The lines of a dump between `Transitions:` and the tape are clauses.  With a clause for the starting
state before them they are a source of the same machine, except when a rule is for the symbol with
an empty text: this is printed as nothing, and so its cause has one field where two are due.

* `Machine.dumpedSource`: the source that a dump gives.
* `Machine.clausesOfDump_dump`: where its clauses stand in the text of the dump.
* `Machine.written_dumpedSource`: the tokens that it is written as.
* `Table.ofList_rules`, `Table.find?_eq_of_perm`: tables do not depend on the order of their rules.
* `machineOfSource_dumpedSource`: what is read from it.
-/

namespace TapeMachine

open Text TapeMachine.Field

/-! ### Tables of the same rules -/

theorem insertRule_of_forall {s : Situation} {a : Action} {rules : List Rule}
    (h : ∀ r ∈ rules, r.situation.like s = false) : insertRule s a rules = rules ++ [⟨s, a⟩] := by
  induction rules with
  | nil => rfl
  | cons r rules ih =>
    obtain ⟨hr, hrules⟩ := List.forall_mem_cons.1 h
    rw [insertRule, hr, ih hrules]
    rfl

theorem distinct_of_perm {rules rules' : List Rule} (hp : rules.Perm rules') (h : Distinct rules) :
    Distinct rules' := by
  refine hp.pairwise h fun {r q} hrq => ?_
  rw [Situation.like_comm]
  exact hrq

namespace Table

theorem ofList_rules {rules : List Rule} (h : Distinct rules) : (ofList rules).rules = rules := by
  induction rules using List.reverseRecOn with
  | nil => rfl
  | append_singleton rules r ih =>
    obtain ⟨hrules, _, hr⟩ := List.pairwise_append.1 h
    rw [ofList_concat]
    show insertRule r.situation r.action (ofList rules).rules = _
    rw [ih hrules]
    exact insertRule_of_forall fun q hq => hr q hq r List.mem_cons_self

theorem find?_eq_of_perm {t u : Table} (h : t.rules.Perm u.rules) (s : Situation) :
    t.find? s = u.find? s := by
  ext a
  rw [find?_eq_some_iff, find?_eq_some_iff]
  simp only [h.mem_iff]

end Table

/-! ### One clause -/

theorem written_groups {cause effect : List Field} {u v : List Char}
    (hu : Spells (.group cause) u) (hv : Spells (.group effect) v) :
    Written [.group cause, .arrow, .group effect] (u ++ [' ', '-', '>', ' '] ++ v) := by
  have hblank : IsBlankText [' '] := List.all_eq_true.1 (by decide)
  have hcause := ((Written.blank isBlankText_nil).concat hu).append_blank hblank
  have heffect := ((hcause.concat .arrow).append_blank hblank).concat hv
  simpa only [List.nil_append, List.append_assoc, List.cons_append] using heffect

namespace Rule

def causeFields (r : Rule) : List Field :=
  if r.situation.symbol = .text "" then [some r.situation.state.label]
  else [some r.situation.state.label, r.situation.symbol.field]

def effectFields (r : Rule) : List Field :=
  [some r.action.state.label, r.action.symbol.field, some r.action.move.name]

def tokens (r : Rule) : List Token := [.group r.causeFields, .arrow, .group r.effectFields]

variable {kind : SymbolKind} {r : Rule}

theorem spells_cause (h : kind.CausePrints r.situation) :
    Spells (.group r.causeFields)
      ('(' :: ((line [some r.situation.state.label, r.situation.symbol.field]).toList ++
        [')'])) := by
  have hf : ∀ g ∈ [some r.situation.state.label] ++ [r.situation.symbol.field],
      Field.Grouped g := by
    simp only [List.singleton_append, List.forall_mem_cons]
    exact ⟨grouped_label h.state, h.symbol.grouped, fun _ hn => absurd hn List.not_mem_nil⟩
  have hs := spells_line hf
  rw [List.singleton_append] at hs
  rw [causeFields]
  simp only [← field_eq_empty_iff]
  exact hs

theorem spells_effect (h : kind.EffectPrints r.action) :
    Spells (.group r.effectFields)
      ('(' :: ((line [some r.action.state.label, r.action.symbol.field,
        some r.action.move.name]).toList ++ [')'])) := by
  have hf : ∀ g ∈ [some r.action.state.label, r.action.symbol.field] ++ [some r.action.move.name],
      Field.Grouped g := by
    simp only [List.cons_append, List.nil_append, List.forall_mem_cons]
    exact ⟨grouped_label h.state, h.symbol.grouped, grouped_name _,
      fun _ hn => absurd hn List.not_mem_nil⟩
  have hname : (some r.action.move.name : Field) ≠ some "" := by
    cases r.action.move <;> decide +kernel
  have hs := spells_line hf
  rw [if_neg hname] at hs
  exact hs

theorem clause_toList (r : Rule) :
    r.clause.toList =
      '(' :: ((line [some r.situation.state.label, r.situation.symbol.field]).toList ++ [')']) ++
        [' ', '-', '>', ' '] ++
        '(' :: ((line [some r.action.state.label, r.action.symbol.field,
          some r.action.move.name]).toList ++ [')']) := by
  simp only [clause, line, List.map_cons, List.map_nil, String.intercalate_cons_cons,
    String.intercalate_singleton, String.toList_append, render_eq_word, word, Option.getD_some]
  have hopen : (toString "(").toList = ['('] := rfl
  have hcomma : (toString ", ").toList = ", ".toList := rfl
  have harrow : (toString ") -> ").toList = [')', ' ', '-', '>', ' '] := rfl
  have hclose : (toString ")").toList = [')'] := rfl
  have hword (s : String) : (toString s).toList = s.toList := rfl
  simp only [hopen, hcomma, harrow, hclose, hword, List.append_assoc, List.cons_append,
    List.nil_append]

/-- **A printed rule is written as its tokens.** -/
theorem written_clause (h : kind.RulePrints r) : Written r.tokens ("  " ++ r.clause).toList := by
  have hstart : Written [] "  ".toList := .blank (List.all_eq_true.1 (by decide))
  rw [String.toList_append, clause_toList]
  exact hstart.append (written_groups (spells_cause h.cause) (spells_effect h.effect))

end Rule

/-! ### The whole source -/

namespace Machine

/-- The lines of a dump between its headings and its tape. -/
def dumpedClauses (m : Machine) : List String :=
  ((m.dumpLines.dropWhile fun line => line != "Transitions:").drop 1).dropLast

/-- A clause for the starting state, and behind it the clauses of the dump. -/
def dumpedSource (m : Machine) : String :=
  "() -> (" ++ m.start.label ++ ")\n" ++ "\n".intercalate m.dumpedClauses

theorem between_eq {α : Type} [BEq α] [LawfulBEq α] {title a b tape : α} {lines : List α} (ha : a ≠ title)
    (hb : b ≠ title) :
    ((([a, b, title] ++ lines ++ [tape]).dropWhile fun line => line != title).drop 1).dropLast =
      lines := by
  have ht : (title != title) = false := bne_self_eq_false title
  rw [List.append_assoc, List.cons_append, List.cons_append, List.cons_append, List.nil_append]
  simp only [List.dropWhile_cons, bne_iff_ne.2 ha, bne_iff_ne.2 hb, ht, if_true,
    Bool.false_eq_true, if_false]
  exact List.dropLast_concat

theorem ne_of_head? {cs ds : List Char} (h : cs.head? ≠ ds.head?) : cs ≠ ds := fun he => h (he ▸ rfl)

theorem state_ne_title (m : Machine) :
    s!"State: {m.state.label} (starting state {m.start.label})".toList ≠ "Transitions:".toList := by
  have hs : (toString "State: ").toList = 'S' :: "tate: ".toList := rfl
  refine ne_of_head? ?_
  simp [String.toList_append, hs]

theorem head_ne_title (m : Machine) : s!"Head: {m.tape.head}".toList ≠ "Transitions:".toList := by
  have hh : (toString "Head: ").toList = 'H' :: "ead: ".toList := rfl
  refine ne_of_head? ?_
  simp [String.toList_append, hh]

theorem dumpedClauses_eq (m : Machine) : m.dumpedClauses = m.ruleLines :=
  between_eq (fun h => m.state_ne_title (congrArg String.toList h))
    fun h => m.head_ne_title (congrArg String.toList h)

/-! ### The text of a dump -/

/-- What stands in a text between the line `Transitions:` and the last line. -/
def clausesOfDump (dump : String) : List Char :=
  ['\n'].intercalate (((splitAt '\n' dump.toList).dropWhile fun line =>
    line != "Transitions:".toList).drop 1).dropLast

theorem splitAt_intercalate {lines : List String} (h : lines ≠ []) :
    splitAt '\n' ("\n".intercalate lines).toList =
      lines.flatMap fun line => splitAt '\n' line.toList := by
  induction lines with
  | nil => exact absurd rfl h
  | cons line lines ih =>
    cases lines with
    | nil => rw [String.intercalate_singleton, List.flatMap_singleton]
    | cons next lines =>
      have hend : "\n".toList = ['\n'] := rfl
      rw [String.intercalate_cons_cons, String.toList_append, String.toList_append, hend,
        List.append_assoc, List.singleton_append, splitAt_append_sep, ih (List.cons_ne_nil _ _)]
      rfl

theorem splitAt_titled {a b title tape : String} (lines : List String) (ha : '\n' ∉ a.toList)
    (hb : '\n' ∉ b.toList) (ht : '\n' ∉ title.toList) (hl : '\n' ∉ tape.toList) :
    splitAt '\n' ("\n".intercalate ([a, b, title] ++ lines ++ [tape])).toList =
      [a.toList, b.toList, title.toList] ++ lines.flatMap (fun line => splitAt '\n' line.toList) ++
        [tape.toList] := by
  rw [splitAt_intercalate (List.concat_ne_nil _ _), List.flatMap_append, List.flatMap_append,
    List.flatMap_singleton, splitAt_of_notMem hl, List.flatMap_cons, List.flatMap_cons,
    List.flatMap_singleton, splitAt_of_notMem ha, splitAt_of_notMem hb, splitAt_of_notMem ht]
  rfl

/-- **The lines of the rules stand in the text of the dump** between `Transitions:` and the line
with the tape, as long as that line and the first one have no ends in them. -/
theorem clausesOfDump_dump {m : Machine} (hstate : m.state.IsState) (hstart : m.start.IsState)
    (htape : '\n' ∉ (cellsLine m.tape.trimmed).toList) :
    (splitAt '\n' m.dump.toList).getLast? = some s!"Tape: [{cellsLine m.tape.trimmed}]".toList ∧
    clausesOfDump m.dump = ("\n".intercalate m.dumpedClauses).toList := by
  have hfirst : '\n' ∉ s!"State: {m.state.label} (starting state {m.start.label})".toList := by
    have hopen : '\n' ∉ (toString "State: ").toList := by decide
    have hbetween : '\n' ∉ (toString " (starting state ").toList := by decide
    have hclose : '\n' ∉ (toString ")").toList := by decide
    simp only [String.toList_append, List.mem_append, not_or]
    exact ⟨⟨⟨⟨hopen, hstate.end_notMem_label⟩, hbetween⟩, hstart.end_notMem_label⟩, hclose⟩
  have hsecond : '\n' ∉ s!"Head: {m.tape.head}".toList := by
    have hopen : '\n' ∉ (toString "Head: ").toList := by decide
    rw [String.toList_append, List.mem_append, not_or]
    exact ⟨hopen, notMem_toString (by decide) (by decide) _⟩
  have hlast : '\n' ∉ s!"Tape: [{cellsLine m.tape.trimmed}]".toList := by
    have hopen : '\n' ∉ (toString "Tape: [").toList := by decide
    have hclose : '\n' ∉ (toString "]").toList := by decide
    simp only [String.toList_append, List.mem_append, not_or]
    exact ⟨⟨hopen, htape⟩, hclose⟩
  have htitle : '\n' ∉ "Transitions:".toList := by decide
  have hlines := splitAt_titled m.ruleLines hfirst hsecond htitle hlast
  rw [clausesOfDump, dump, dumpLines, hlines, dumpedClauses_eq]
  refine ⟨List.getLast?_concat, ?_⟩
  rw [between_eq m.state_ne_title m.head_ne_title]
  by_cases hr : m.ruleLines = []
  · rw [hr]
    rfl
  · rw [← splitAt_intercalate hr, intercalate_splitAt]

end Machine

section Lines

variable {kind : SymbolKind} {rules : List Rule}

theorem written_ruleLines (h : ∀ r ∈ rules, kind.RulePrints r) :
    Written (rules.flatMap Rule.tokens)
      ("\n".intercalate (rules.map fun r => "  " ++ r.clause)).toList := by
  induction rules with
  | nil => exact .blank isBlankText_nil
  | cons r rules ih =>
    obtain ⟨hr, hrules⟩ := List.forall_mem_cons.1 h
    have hline := Rule.written_clause hr
    cases rules with
    | nil =>
      rw [List.map_singleton, String.intercalate_singleton, List.flatMap_singleton]
      exact hline
    | cons q rules =>
      have hbreak : IsBlankText "\n".toList := List.all_eq_true.1 (by decide)
      have hne : (q :: rules).map (fun r => "  " ++ r.clause) ≠ [] := by simp
      rw [List.flatMap_cons, List.map_cons, String.intercalate_cons_of_ne_nil hne,
        String.toList_append, String.toList_append]
      exact (hline.append_blank hbreak).append (ih hrules)

def startTokens (q : Atom) : List Token := [.group [], .arrow, .group [some q.label]]

theorem written_start {q : Atom} (h : q.IsState) :
    Written (startTokens q) ("() -> (" ++ q.label ++ ")\n").toList := by
  have hf : ∀ g ∈ [] ++ [some q.label], Field.Grouped g := by
    simp only [List.nil_append, List.forall_mem_singleton]
    exact grouped_label h
  have hs := spells_line hf
  rw [List.nil_append, if_neg fun he => label_ne_empty h (Option.some.inj he)] at hs
  have hempty : Spells (.group []) ['(', ')'] := .group List.not_mem_nil
  have hend : IsBlankText ['\n'] := List.all_eq_true.1 (by decide)
  have hl : (line [some q.label]).toList = q.label.toList := by
    rw [line, List.map_singleton, String.intercalate_singleton]
    rfl
  have hc : ("() -> (" ++ q.label ++ ")\n").toList =
      ['(', ')'] ++ [' ', '-', '>', ' '] ++ '(' :: ((line [some q.label]).toList ++ [')']) ++
        ['\n'] := by
    have hopen : "() -> (".toList = ['(', ')', ' ', '-', '>', ' ', '('] := rfl
    have hclose : ")\n".toList = [')', '\n'] := rfl
    simp only [String.toList_append, hopen, hclose, hl, List.append_assoc, List.cons_append,
      List.nil_append]
  rw [hc]
  exact (written_groups hempty hs).append_blank hend

end Lines

section Reading

variable {kind : SymbolKind} {rules : List Rule} {r : Rule}

theorem isClause_start {q : Atom} (h : q.IsState) :
    IsClause kind.read [] [some q.label] (.start q) := .start (readState_label h)

theorem Rule.isClause (h : kind.RulePrints r) (hs : r.situation.symbol ≠ .text "") :
    IsClause kind.read r.causeFields r.effectFields (.rule r) := by
  rw [Rule.causeFields, if_neg hs]
  exact .rule (readState_label h.cause.state) h.cause.symbol.read
    (readState_label h.effect.state) h.effect.symbol.read (Move.read?_name r.action.move)

theorem areClauses_tokens (h : ∀ r ∈ rules, kind.RulePrints r)
    (hs : ∀ r ∈ rules, r.situation.symbol ≠ .text "") :
    AreClauses kind.read (rules.flatMap Rule.tokens) (rules.map Clause.rule) := by
  induction rules with
  | nil => exact .nil
  | cons r rules ih =>
    obtain ⟨hr, hrules⟩ := List.forall_mem_cons.1 h
    obtain ⟨hsr, hsrules⟩ := List.forall_mem_cons.1 hs
    exact .cons (r.isClause hr hsr) (ih hrules hsrules)

theorem readAll_tokens_eq_error (h : ∀ r ∈ rules, kind.RulePrints r)
    (hs : ∃ r ∈ rules, r.situation.symbol = .text "") :
    Clause.readAll kind.read (rules.flatMap Rule.tokens) = .error (.arity 1 3) := by
  induction rules with
  | nil =>
    obtain ⟨r, hr, _⟩ := hs
    exact absurd hr List.not_mem_nil
  | cons r rules ih =>
    obtain ⟨hr, hrules⟩ := List.forall_mem_cons.1 h
    rw [List.flatMap_cons, Rule.tokens, List.cons_append, List.cons_append, List.cons_append,
      List.nil_append, Clause.readAll]
    by_cases hsr : r.situation.symbol = .text ""
    · rw [Rule.causeFields, if_pos hsr]
      rfl
    · have hrest : ∃ q ∈ rules, q.situation.symbol = .text "" := by
        obtain ⟨q, hq, hsq⟩ := hs
        rcases List.mem_cons.1 hq with rfl | hq
        · exact absurd hsq hsr
        · exact ⟨q, hq, hsq⟩
      rw [(r.isClause hr hsr).read_eq, ih hrules hrest]
      rfl

end Reading

/-! ### What is read from a dump -/

section Machine

variable {spec : KindSpec} {kind : SymbolKind} {m : Machine}

theorem Machine.written_dumpedSource (hq : m.start.IsState)
    (hr : ∀ r ∈ m.table.rules, kind.RulePrints r) :
    Written (startTokens m.start ++ m.table.sorted.flatMap Rule.tokens) m.dumpedSource.toList := by
  have hsorted : ∀ r ∈ m.table.sorted, kind.RulePrints r :=
    fun r h => hr r (List.mem_mergeSort.1 h)
  rw [Machine.dumpedSource, Machine.dumpedClauses_eq, Machine.ruleLines, String.toList_append]
  exact (written_start hq).append (written_ruleLines hsorted)

theorem readSource_dumpedSource (hq : m.start.IsState)
    (hr : ∀ r ∈ m.table.rules, kind.RulePrints r) :
    readSource kind.read m.dumpedSource =
      (Clause.readAll kind.read (m.table.sorted.flatMap Rule.tokens)).map
        ([Clause.start m.start] ++ ·) := by
  have hw := m.written_dumpedSource hq hr
  have hstart : AreClauses kind.read (startTokens m.start) [.start m.start] :=
    .cons (isClause_start hq) .nil
  rw [readSource, scanSource_eq_ok_iff.2 hw]
  exact hstart.readAll_append _

/-- A machine that was read has not run yet, so that the text of its dump has the clauses. -/
theorem Machine.toList_dumpedSource (hk : spec.resolve = .ok kind.read) {source : String}
    (hm : spec.machineOfSource source = .ok m) :
    m.dumpedSource.toList =
      ("() -> (" ++ m.start.label ++ ")\n").toList ++ clausesOfDump m.dump := by
  obtain ⟨hq, _⟩ := prints_of_machineOfSource hk hm
  obtain ⟨clauses, _, rfl⟩ := (KindSpec.machineOfSource_eq_ok_iff hk).1 hm
  have hd := denoted_ofClauses clauses
  have htape : '\n' ∉ (cellsLine (ofClauses clauses).tape.trimmed).toList := by
    rw [hd.tape]
    exact List.not_mem_nil
  rw [dumpedSource, String.toList_append, (clausesOfDump_dump (hd.state ▸ hq) hq htape).2]

/-- **Dumped clauses are a source of the same machine.** -/
theorem machineOfSource_dumpedSource (hk : spec.resolve = .ok kind.read) {source : String}
    (hm : spec.machineOfSource source = .ok m) :
    m.table.orderFault? = none ∧
    m.dumpedSource.toList =
      ("() -> (" ++ m.start.label ++ ")\n").toList ++ Machine.clausesOfDump m.dump ∧
    ((∀ r ∈ m.table.rules, r.situation.symbol ≠ .text "") →
      ∃ m', spec.machineOfSource m.dumpedSource = .ok m' ∧ m'.start = m.start ∧
        m'.table.rules.Perm m.table.rules ∧ ∀ s, m'.table.find? s = m.table.find? s) ∧
    ((∃ r ∈ m.table.rules, r.situation.symbol = .text "") →
      kind = .text ∧ spec.machineOfSource m.dumpedSource = .error (.source (.arity 1 3))) := by
  obtain ⟨hq, hr⟩ := prints_of_machineOfSource hk hm
  have hperm : m.table.sorted.Perm m.table.rules := List.mergeSort_perm _ _
  have hsorted : ∀ r ∈ m.table.sorted, kind.RulePrints r := fun r h => hr r (hperm.mem_iff.1 h)
  have hread := readSource_dumpedSource hq hr
  refine ⟨?_, Machine.toList_dumpedSource hk hm, fun hs => ?_, fun hs => ?_⟩
  · refine Table.orderFault?_eq_none fun r h => ?_
    obtain ⟨n, hn, _⟩ := (hr r h).cause.state
    exact ⟨n, hn⟩
  · have hc := areClauses_tokens hsorted fun r h => hs r (hperm.mem_iff.1 h)
    rw [hc.readAll_eq] at hread
    have hrules : (Table.ofList m.table.sorted).rules = m.table.sorted :=
      Table.ofList_rules (distinct_of_perm hperm.symm m.table.distinct)
    have hp : (Table.ofList m.table.sorted).rules.Perm m.table.rules := by
      rw [hrules]
      exact hperm
    refine ⟨.new .empty m.start (.ofList m.table.sorted), ?_, rfl, hp, Table.find?_eq_of_perm hp⟩
    refine (KindSpec.machineOfSource_eq_ok_iff hk).2 ⟨_, hread, ?_⟩
    exact Machine.ofClauses_start_cons m.start m.table.sorted
  · have hs' : ∃ r ∈ m.table.sorted, r.situation.symbol = .text "" := by
      obtain ⟨r, h, he⟩ := hs
      exact ⟨r, hperm.mem_iff.2 h, he⟩
    have hkind : kind = .text := by
      obtain ⟨r, h, he⟩ := hs
      have hp := (hr r h).cause.symbol.prints
      rw [he] at hp
      exact SymbolKind.eq_text_of_prints_empty hp
    refine ⟨hkind, ?_⟩
    rw [KindSpec.machineOfSource_of_resolve hk, hread, readAll_tokens_eq_error hsorted hs']
    rfl

/-- A symbol with an arrow in it is read again, and an empty one in a cause is not. -/
theorem dumpedSource_texts :
    (∃ m m', (KindSpec.named (.str "str")).machineOfSource "(0, (->) -> (1, , right)" = .ok m ∧
      (KindSpec.named (.str "str")).machineOfSource m.dumpedSource = .ok m' ∧
      m'.table.find? ⟨.number 0, .text "(->"⟩ = some ⟨.number 1, .text "", .right⟩) ∧
    ∃ m, (KindSpec.named (.str "str")).machineOfSource "(0, ,) -> (1, x, hold)" = .ok m ∧
      (KindSpec.named (.str "str")).machineOfSource m.dumpedSource =
        .error (.source (.arity 1 3)) := by
  have hk : (KindSpec.named (.str "str")).resolve = .ok SymbolKind.text.read := rfl
  constructor
  · have hm : (KindSpec.named (.str "str")).machineOfSource "(0, (->) -> (1, , right)" =
        .ok (.ofClauses [.rule ⟨⟨.number 0, .text "(->"⟩, ⟨.number 1, .text "", .right⟩⟩]) :=
      (KindSpec.machineOfSource_eq_ok_iff hk).2 ⟨_, by decide +kernel, rfl⟩
    obtain ⟨_, _, hread, _⟩ := machineOfSource_dumpedSource hk hm
    obtain ⟨m', hm', _, _, hf⟩ := hread (by decide +kernel)
    exact ⟨_, m', hm, hm', (hf _).trans (by decide +kernel)⟩
  · have hm : (KindSpec.named (.str "str")).machineOfSource "(0, ,) -> (1, x, hold)" =
        .ok (.ofClauses [.rule ⟨⟨.number 0, .text ""⟩, ⟨.number 1, .text "x", .hold⟩⟩]) :=
      (KindSpec.machineOfSource_eq_ok_iff hk).2 ⟨_, by decide +kernel, rfl⟩
    obtain ⟨_, _, _, hfault⟩ := machineOfSource_dumpedSource hk hm
    exact ⟨_, hm, (hfault (by decide +kernel)).2⟩

end Machine

end TapeMachine

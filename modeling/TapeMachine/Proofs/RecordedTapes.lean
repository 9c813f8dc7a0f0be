import TapeMachine.Proofs.Configuration
import TapeMachine.Proofs.Jobs
import TapeMachine.Proofs.PrintedRules
import TapeMachine.Proofs.Trimming

/-!
# Recorded tapes

The cells of a tape that was read, and the symbols of a machine that was read, are blank or values
of one kind, and so are all cells that the machine ever comes to have.  So the tape in the record of
a run can be read again.  Only a tape of one empty text is recorded as nothing, which is read as the
empty tape.

* `Configuration.Prints`: all cells can be printed; `Configuration.Prints.leads`: and this stays so.
* `prints_ofText`: the cells of a tape that was read; `ofText_line`: reading printed cells.
* `simulate_tapeLine`: the tape in the record of a program.
-/

namespace TapeMachine

open Text TapeMachine.Field

theorem prints_blank (kind : SymbolKind) : kind.Prints .blank := ⟨.blank, whole_none, free_none⟩

/-! ### Runs -/

namespace Configuration

variable {kind : SymbolKind} {t : Table} {c d : Configuration} {k : Nat}

def Prints (kind : SymbolKind) (c : Configuration) : Prop := ∀ p, kind.Prints (c.cells p)

theorem Prints.after {a : Action} (h : c.Prints kind) (ha : kind.Prints a.symbol) :
    (c.after a).Prints kind := by
  intro p
  show kind.Prints (Function.update c.cells c.head a.symbol p)
  rw [Function.update_apply]
  split
  · exact ha
  · exact h p

/-- **One step** writes a symbol of the table. -/
theorem Prints.step (h : c.Prints kind) (ht : ∀ r ∈ t.rules, kind.RulePrints r)
    (hs : Step t c d) : d.Prints kind := by
  obtain ⟨a, ha, _, rfl⟩ := hs
  obtain ⟨r, hr, _, rfl⟩ := Table.find?_eq_some_iff.1 ha
  exact h.after (ht r hr).effect.symbol.prints

/-- **Any number of steps.** -/
theorem Prints.leads (h : c.Prints kind) (ht : ∀ r ∈ t.rules, kind.RulePrints r)
    (hl : Leads t k c d) : d.Prints kind := by
  induction hl with
  | refl => exact h
  | tail _ hs ih => exact (ih h).step ht hs

end Configuration

/-! ### Tapes -/

section Tapes

variable {kind : SymbolKind} {t : Tape} {cells : List Atom}

theorem prints_ofList (h : ∀ a ∈ cells, kind.Prints a) (p : Int) :
    kind.Prints ((Tape.ofList cells).read p) := by
  rw [Tape.read_ofList]
  split
  · rw [List.getD_eq_getElem?_getD]
    cases ha : cells[p.toNat]? with
    | none => exact prints_blank kind
    | some a => exact h a (List.mem_of_getElem? ha)
  · exact prints_blank kind

theorem prints_ofText {text : String} (h : Tape.ofText kind.read text = .ok t) (p : Int) :
    kind.Prints (t.read p) := by
  rw [Tape.ofText] at h
  split at h
  · obtain rfl := Except.ok.inj h
    have hnone : ∀ a ∈ ([] : List Atom), kind.Prints a := fun _ ha => absurd ha List.not_mem_nil
    exact prints_ofList hnone p
  · obtain ⟨cells, hm, rfl⟩ := map_eq_ok_iff.1 h
    refine prints_ofList (fun a ha => ?_) p
    obtain ⟨f, hf, hfa⟩ := exists_of_mem_mapM hm ha
    obtain ⟨piece, hp, rfl⟩ := List.mem_map.1 hf
    have hfree := free_ofPiece (of_mem_splitAt hp).1
    exact SymbolKind.prints_of_isSymbol (symbolField_eq_ok_iff.1 hfa) ⟨whole_ofPiece piece, hfree⟩

theorem prints_recorded (h : ∀ p, kind.Prints (t.read p)) (trim : Bool) :
    ∀ a ∈ RunRecord.recorded t trim, kind.Prints a := by
  have hc : ∀ a ∈ t.contents, kind.Prints a := by
    rw [Tape.contents_eq_map_read]
    intro a ha
    obtain ⟨i, _, rfl⟩ := List.mem_map.1 ha
    exact h _
  intro a ha
  rw [RunRecord.recorded] at ha
  split at ha
  · exact hc a ((Tape.trimBlanks_sublist _).subset ha)
  · exact hc a ha

theorem contents_ofList (cells : List Atom) : (Tape.ofList cells).contents = cells := rfl

/-- **Reading printed cells** gives the cells, but for a single empty text. -/
theorem ofText_line (h : ∀ a ∈ cells, kind.Prints a) :
    Tape.ofText kind.read (line (cells.map Atom.field)) =
      .ok (if cells = [.text ""] then .empty else .ofList cells) := by
  have hplain : ∀ f ∈ cells.map Atom.field, f.Plain :=
    List.forall_mem_map.2 fun a ha => (h a ha).plain
  have hsingle : cells.map Atom.field = [some ""] ↔ cells = [.text ""] := by
    rw [List.map_eq_singleton_iff]
    simp only [field_eq_empty_iff, exists_eq_right]
  have hblank : (strip (line (cells.map Atom.field)).toList).isEmpty = true ↔
      cells = [] ∨ cells = [.text ""] := by
    rw [List.isEmpty_iff, strip_line_eq_nil_iff hplain, List.map_eq_nil_iff, hsingle]
  rw [Tape.ofText]
  by_cases hne : cells = []
  · subst hne
    rfl
  · by_cases hs : cells = [.text ""]
    · rw [if_pos (hblank.2 (Or.inr hs)), if_pos hs]
    · have hread : (cells.map Atom.field).mapM (symbolField kind.read) = .ok cells :=
        mapM_eq_ok_iff.2 <| List.forall₂_map_left_iff.2 <| List.forall₂_same.2 fun a ha =>
          symbolField_eq_ok_iff.2 (h a ha).read
      have hfields := fields_line (fun he => hne (List.map_eq_nil_iff.1 he)) hplain
      rw [if_neg (mt hblank.1 (not_or.2 ⟨hne, hs⟩)), if_neg hs, hfields, hread]
      rfl

end Tapes

/-! ### Records -/

theorem tapeLine_ofRun (program : String) (r : Run) (trim : Bool) (time : Moment) :
    (RunRecord.ofRun program r trim time).tapeLine =
      line ((RunRecord.recorded r.machine.tape trim).map Atom.field) := rfl

section Simulation

open TapeMachine.Configuration

variable {d : Desk} {path source tape : String} {plan : Plan} {kind : SymbolKind} {m : Machine}
  {t : Tape}

theorem prints_of_leads {spec : KindSpec} (hk : spec.resolve = .ok kind.read)
    (hm : spec.machineOfSource source = .ok m) (ht : spec.tapeOfText tape = .ok t) {k : Nat}
    {c : Configuration} (hl : Leads m.table k (m.insertTape t).configuration c) :
    c.Prints kind := by
  rw [KindSpec.tapeOfText_of_resolve hk, inSource_eq_ok_iff] at ht
  have hstart : (m.insertTape t).configuration.Prints kind := fun p => prints_ofText ht p
  exact hstart.leads (prints_of_machineOfSource hk hm).2 hl

/-- **The tape in a record is a tape for the next run.** -/
theorem simulate_tapeLine (hk : plan.kind.resolve = .ok kind.read) (hp : plan.tape = .str tape)
    (hs : (d.perform (Job.readText path)).1 = .ok source)
    (hm : plan.kind.machineOfSource source = .ok m) (ht : plan.kind.tapeOfText tape = .ok t) :
    (∀ k c, Leads m.table k (m.insertTape t).configuration c →
      ∀ p, c.cells p = .blank ∨ kind.Holds (c.cells p)) ∧
    (plan.verbose = false ∨ plan.logFrequency ≠ 0 →
      ∃ e, (d.perform (Program.simulate path plan)).1 = .ok e) ∧
    ∀ e, (d.perform (Program.simulate path plan)).1 = .ok e →
      let final := ((m.insertTape t).run plan.maxSteps).machine
      let cells := if plan.trimBlanks then final.tape.trimmed else final.tape.contents
      (cells ≠ [.text ""] →
        ∃ t', plan.kind.tapeOfText e.tapeLine = .ok t' ∧ t'.contents = cells) ∧
      (cells = [.text ""] → kind = .text ∧ plan.kind.tapeOfText e.tapeLine = .ok .empty) := by
  have hsim := perform_simulate hs hm ht hp
  refine ⟨fun k c hl p => SymbolKind.blank_or_holds (prints_of_leads hk hm ht hl p).read,
    fun hv => ?_, fun e he => ?_⟩
  · have hperiod : (if plan.verbose then some plan.logFrequency else none) ≠ some 0 := by
      rcases hv with hv | hv
      · simp [hv]
      · split
        · exact fun h => hv (Option.some.inj h)
        · exact (Option.some_ne_none 0).symm
    rw [hsim, Plan.watch, Machine.broken_watch_eq_false hperiod, if_neg Bool.false_ne_true]
    exact ⟨_, rfl⟩
  · rw [hsim] at he
    cases hb : (plan.watch (m.insertTape t)).broken with
    | true =>
      rw [if_pos hb] at he
      cases he
    | false =>
      rw [hb, if_neg Bool.false_ne_true] at he
      obtain rfl := Except.ok.inj he
      have hrun : (plan.watch (m.insertTape t)).run = (m.insertTape t).run plan.maxSteps :=
        Machine.run_of_not_broken hb
      rw [hrun, tapeLine_ofRun, KindSpec.tapeOfText_of_resolve hk]
      intro final cells
      have hfinal : ∀ p, kind.Prints (final.tape.read p) :=
        prints_of_leads hk hm ht (Machine.fate_runFrom _ (m.insertTape t)).leads
      have hcells : ∀ a ∈ cells, kind.Prints a := prints_recorded hfinal plan.trimBlanks
      have hread := ofText_line hcells
      refine ⟨fun hne => ?_, fun hempty => ?_⟩
      · rw [if_neg hne] at hread
        exact ⟨_, inSource_eq_ok_iff.2 hread, contents_ofList cells⟩
      · rw [if_pos hempty] at hread
        have hkind : kind.Prints (.text "") := hcells _ (hempty ▸ List.mem_singleton_self _)
        exact ⟨SymbolKind.eq_text_of_prints_empty hkind, inSource_eq_ok_iff.2 hread⟩

def emptyingDesk : Desk where
  disk := ⟨[(["empty.tm"], .file (Text.encodeUtf8 "(0, a) -> (1, , Right)"))], []⟩
  clock := default
  answers := []
  events := #[]
  nesting := Desk.usualNesting
  nesting_pos := Desk.usualNesting_pos

def textPlan (tape : String) : Plan := { tape := .str tape, kind := .named (.str "str") }

/-- An empty text is recorded between other cells, and lost alone. -/
theorem simulate_emptying :
    (∃ e t',
      (emptyingDesk.perform (Program.simulate "empty.tm" (textPlan "a, None, b"))).1 = .ok e ∧
      (KindSpec.named (.str "str")).tapeOfText e.tapeLine = .ok t' ∧
      t'.contents = [.text "", .blank, .text "b"]) ∧
    ∃ e, (emptyingDesk.perform (Program.simulate "empty.tm" (textPlan "a"))).1 = .ok e ∧
      (KindSpec.named (.str "str")).tapeOfText e.tapeLine = .ok .empty := by
  have hk (tape : String) : (textPlan tape).kind.resolve = .ok SymbolKind.text.read := rfl
  have hs : (emptyingDesk.perform (Job.readText "empty.tm")).1 = .ok "(0, a) -> (1, , Right)" :=
    eq_ok_of_toOption (by decide +kernel)
  have hm : (KindSpec.named (.str "str")).machineOfSource "(0, a) -> (1, , Right)" =
      .ok (.ofClauses [.rule ⟨⟨.number 0, .text "a"⟩, ⟨.number 1, .text "", .right⟩⟩]) :=
    (KindSpec.machineOfSource_eq_ok_iff (hk "")).2 ⟨_, by decide +kernel, rfl⟩
  have ht (cells : List Atom) (tape : String)
      (h : Tape.ofText SymbolKind.text.read tape = .ok (.ofList cells)) :
      (KindSpec.named (.str "str")).tapeOfText tape = .ok (.ofList cells) :=
    (KindSpec.tapeOfText_of_resolve (hk tape) tape).trans (inSource_eq_ok_iff.2 h)
  constructor
  · have htape := ht [.text "a", .blank, .text "b"] "a, None, b" (by decide +kernel)
    obtain ⟨_, hgives, hread⟩ := simulate_tapeLine (hk "a, None, b") rfl hs hm htape
    obtain ⟨e, he⟩ := hgives (Or.inl rfl)
    obtain ⟨t', ht', hc⟩ := (hread e he).1 (by decide +kernel)
    exact ⟨e, t', he, ht', hc.trans (by decide +kernel)⟩
  · have htape := ht [.text "a"] "a" (by decide +kernel)
    obtain ⟨_, hgives, hread⟩ := simulate_tapeLine (hk "a") rfl hs hm htape
    obtain ⟨e, he⟩ := hgives (Or.inl rfl)
    exact ⟨e, he, ((hread e he).2 (by decide +kernel)).2⟩

end Simulation

end TapeMachine

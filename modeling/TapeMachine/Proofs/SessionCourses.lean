import TapeMachine.Proofs.SavedSetups
import TapeMachine.Proofs.SessionTurns

/-!
# Courses of a session

A session goes on by turns.  So the machine after any number of turns is the fold of what the
entries of the turns do to it, and all else about the session is as it was.

* `Session.Course`: turns one after the other, with a trace of what was entered.
* `Course.eq_replay`: what they leave; `Course.perform_turnsWithin`: they are those of the session.
* `Session.of_perform_start`: what a session starts with.
* `courses_of_start`: a session from its start.
-/

namespace TapeMachine.Session

variable {s s' : Session} {d d' : Desk} {read : SymbolReader} {rest : List Json}

/-! ### Courses -/

/-- What a trace of entries makes of the machine, each at the desk at which its turn began. -/
def replay (spec : KindSpec) (trace : List (Desk × Entry)) (loaded : Option Loaded) :
    Option Loaded :=
  trace.foldl (fun loaded entry => entry.2.act spec entry.1 loaded) loaded

/-- Turns one after the other from a session at a desk, with the trace of what was entered. -/
inductive Course (s₀ : Session) (d₀ : Desk) : List (Desk × Entry) → Session → Desk → Prop
  | start : Course s₀ d₀ [] s₀ d₀
  | turn {s s' : Session} {d d' : Desk} {e : Entry} {rest : List Json}
      {trace : List (Desk × Entry)} (before : Course s₀ d₀ trace s d)
      (entered : e.Entered s d rest) (legible : e.Legible d.disk)
      (turned : d.perform s.turn = (.ok (some s'), d')) :
      Course s₀ d₀ (trace ++ [(d, e)]) s' d'

theorem eq_of_perform_turn {e : Entry} (hk : s.config.kindSpec.resolve = .ok read)
    (he : e.Entered s d rest) (hl : e.Legible d.disk)
    (h : d.perform s.turn = (.ok (some s'), d')) :
    s' = { s with loaded := e.act s.config.kindSpec d s.loaded } ∧ d'.answers = rest := by
  obtain ⟨d₁, hturn, hrest, _⟩ | ⟨_, fault, d₁, hturn⟩ := perform_turn hk he hl
  · rw [hturn] at h
    cases h
    exact ⟨rfl, hrest⟩
  · rw [hturn] at h
    cases h

theorem length_lt_of_entered {e : Entry} (h : e.Entered s d rest) :
    rest.length < d.answers.length := by
  obtain ⟨choice, replies, ha, _⟩ := h
  rw [ha, List.length_cons, List.length_append]
  omega

namespace Course

variable {s₀ : Session} {d₀ : Desk} {trace : List (Desk × Entry)}

theorem eq_replay (hk : s₀.config.kindSpec.resolve = .ok read) (h : Course s₀ d₀ trace s d) :
    s = { s₀ with loaded := replay s₀.config.kindSpec trace s₀.loaded } := by
  induction h with
  | start => rfl
  | turn before entered legible turned ih =>
    have hconfig := congrArg config ih
    obtain ⟨rfl, _⟩ := eq_of_perform_turn (hconfig ▸ hk) entered legible turned
    rw [replay, List.foldl_concat, ← replay, ih]
    rfl

theorem config_eq (hk : s₀.config.kindSpec.resolve = .ok read) (h : Course s₀ d₀ trace s d) :
    s.config = s₀.config := by
  rw [h.eq_replay hk]
  rfl

theorem perform_turnsWithin (hk : s₀.config.kindSpec.resolve = .ok read)
    (h : Course s₀ d₀ trace s d) {turns : Nat} (hn : d₀.answers.length < turns) :
    ∃ left, d.answers.length < left ∧
      d₀.perform (turnsWithin turns s₀) = d.perform (turnsWithin left s) := by
  induction h with
  | start => exact ⟨turns, hn, rfl⟩
  | turn before entered legible turned ih =>
    obtain ⟨left, hlt, hleft⟩ := ih
    obtain ⟨_, hrest⟩ :=
      eq_of_perform_turn (before.config_eq hk ▸ hk) entered legible turned
    -- the turn took an answer, so one turn was left for it
    have hless := length_lt_of_entered entered
    obtain ⟨left, rfl⟩ : ∃ n, left = n + 1 := ⟨left - 1, by omega⟩
    refine ⟨left, by rw [hrest]; omega, ?_⟩
    rw [hleft, turnsWithin, Desk.perform_bind_of_ok turned]

end Course

/-! ### The start of a session -/

theorem exists_kind_of_validate {settings : Settings} {c : Config}
    (h : settings.validate = .ok c) : ∃ read, c.kindSpec.resolve = .ok read := by
  have hknown := (Settings.checkRanges_eq_ok_iff.1 (Settings.checkRanges_of_validate h)).1
  rw [Config.kindSpec, KindSpec.resolve]
  cases hn : SymbolKind.ofName? c.symbolType with
  | none => exact absurd hknown (Pairs.lookup_eq_none_iff_notMem.1 hn)
  | some kind => exact ⟨kind.read, rfl⟩

theorem exists_kind_of_loadStandard {setup : Setup}
    (h : d.perform Setup.loadStandard = (.ok setup, d')) :
    ∃ read, setup.config.kindSpec.resolve = .ok read := by
  obtain ⟨_, _, _, _, htext, _⟩ :=
    Setup.of_perform_load (Setup.perform_loadStandard_eq_ok_iff.1 h)
  obtain ⟨_, _, _, hc⟩ := Setup.ofText_eq_ok_iff.1 htext
  exact exists_kind_of_validate hc

theorem head_of_tapeOfText {spec : KindSpec} {text : String} {tape : Tape}
    (hk : spec.resolve = .ok read) (h : spec.tapeOfText text = .ok tape) : tape.head = 0 := by
  rw [KindSpec.tapeOfText_of_resolve hk, inSource_eq_ok_iff, Tape.ofText] at h
  split at h
  · cases h
    rfl
  · obtain ⟨cells, _, rfl⟩ := map_eq_ok_iff.1 h
    rfl

theorem of_perform_start (h : d.perform start = (.ok s, d')) :
    s.loaded = none ∧ ∃ read, s.config.kindSpec.resolve = .ok read := by
  rw [start] at h
  obtain ⟨setup, d₁, hsetup, h⟩ := Desk.of_perform_bind h
  obtain ⟨log, d₂, hlog, h⟩ := Desk.of_perform_bind h
  cases h
  exact ⟨rfl, exists_kind_of_loadStandard hsetup⟩

/-- **A session is the fold of what its entries do to the machine**, from no machine on.  The
session comes by every course, and goes on from there unless the disk is in the way. -/
theorem courses_of_start {d₀ d₁ : Desk} {s₀ : Session} (hstart : d₀.perform start = (.ok s₀, d₁)) :
    s₀.loaded = none ∧
    (∀ text tape, s₀.config.kindSpec.tapeOfText text = .ok tape → tape.head = 0) ∧
    ∀ {trace : List (Desk × Entry)} {s : Session} {d : Desk}, Course s₀ d₁ trace s d →
      s = { s₀ with loaded := replay s₀.config.kindSpec trace none } ∧
      (∃ turns, d.answers.length < turns ∧ d₀.perform run = d.perform (turnsWithin turns s)) ∧
      ∀ {e : Entry} {rest : List Json}, e.Entered s d rest → e.Legible d.disk →
        (∃ d', d.perform s.turn =
            (.ok (some { s with loaded := e.act s₀.config.kindSpec d s.loaded }), d') ∧
          d'.answers = rest ∧ d'.clock = d.clock ∧
          ((∀ limit, e ≠ .run limit) → d'.disk = d.disk)) ∨
        e.Blocked s d.disk ∧ ∃ fault d', d.perform s.turn = (.error (.disk fault), d') := by
  obtain ⟨hnone, read, hk⟩ := of_perform_start hstart
  refine ⟨hnone, fun text tape => head_of_tapeOfText hk, fun {trace s d} hcourse => ?_⟩
  have heq := hcourse.eq_replay hk
  rw [hnone] at heq
  have hkind : s.config = s₀.config := hcourse.config_eq hk
  refine ⟨heq, ?_, fun {e rest} he hl => ?_⟩
  · obtain ⟨turns, hlt, hturns⟩ := hcourse.perform_turnsWithin hk (Nat.lt_succ_self _)
    refine ⟨turns, hlt, ?_⟩
    rw [run, Desk.perform_bind_of_ok hstart, ← hturns]
    rfl
  · rw [← hkind] at hk ⊢
    exact perform_turn hk he hl

/-! ### A session at a desk -/

def oneStepText : String := "(0, None) -> (1, true, Right) (1, None) -> (1, None, Right)"

/-- A desk with a configuration and one program; a second one is asked for before it. -/
def preparedDesk : Desk where
  disk := ⟨[(["work"], .folder), (["work", "logs"], .folder), (["work", "config"], .folder),
    (["work", "config", "runtime_config.json"], .file (Text.encodeUtf8 "\x7b\x7d")),
    (["work", "one.tm"], .file (Text.encodeUtf8 oneStepText))], ["work"]⟩
  clock := ⟨2024, 2, 29, 12, 34, 56, 0⟩
  answers := [.str "1", .str "two.tm", .str "1", .str "one.tm", .null, .str "8"]
  events := #[]
  nesting := Desk.usualNesting
  nesting_pos := Desk.usualNesting_pos

def freshSession : Session := ⟨Setup.standard, ⟨"logs/", "turing_", "2024-02-29"⟩, none⟩

/-- What is not there is not loaded; what is there is, and takes a step. -/
theorem courses_of_start_prepared :
    ∃ trace s d s' d', Course freshSession preparedDesk trace s d ∧
      trace.map Prod.snd = [.loadProgram "two.tm", .loadProgram "one.tm"] ∧
      s.loaded = replay freshSession.config.kindSpec trace none ∧
      s.loaded.map (fun l => (l.program, l.machine.state)) = some ("one.tm", .number 0) ∧
      d.perform s.turn = (.ok (some s'), d') ∧ d'.answers.length = 1 ∧
      s'.loaded.map (fun l => (l.program, l.machine.state)) = some ("one.tm", .number 1) := by
  have hstart : preparedDesk.perform start = (.ok freshSession, preparedDesk) := by
    with_unfolding_all rfl
  obtain ⟨_, _, hcourse⟩ := courses_of_start hstart
  have hprograms (loaded : Option Loaded) : programsIn preparedDesk.disk
      ({ freshSession with loaded } : Session).config.programsDirectory = .ok [] := by
    show programsIn preparedDesk.disk Config.standard.programsDirectory = .ok []
    decide +kernel
  have hlisted (path : String) (loaded : Option Loaded) :
      ¬ (Entry.loadProgram path).Blocked { freshSession with loaded } preparedDesk.disk := by
    rintro ⟨fault, h⟩
    rw [hprograms loaded] at h
    cases h
  -- the first entry, and the session after it
  have he₁ (loaded : Option Loaded) : (Entry.loadProgram "two.tm").Entered
      { freshSession with loaded } preparedDesk [.str "1", .str "one.tm", .null, .str "8"] :=
    ⟨.str "1", [.str "two.tm"], rfl, by decide +kernel,
      .inl ⟨[], .str "two.tm", hprograms loaded, rfl, rfl⟩⟩
  have hl₁ : (Entry.loadProgram "two.tm").Legible preparedDesk.disk :=
    Disk.Legible.of_error (.system .missing "two.tm") (by decide) (by decide +kernel)
  have hact₁ : (Entry.loadProgram "two.tm").act freshSession.config.kindSpec preparedDesk none =
      none := by with_unfolding_all rfl
  obtain ⟨d₁, ht₁, ha₁, _, hd₁⟩ :=
    ((hcourse .start).2.2 (he₁ none) hl₁).resolve_right fun h => hlisted "two.tm" none h.1
  have hdisk₁ : d₁.disk = preparedDesk.disk := hd₁ nofun
  have hc₁ := Course.turn .start (he₁ none) hl₁ ht₁
  -- the second one
  have he₂ (loaded : Option Loaded) : (Entry.loadProgram "one.tm").Entered
      { freshSession with loaded } d₁ [.null, .str "8"] :=
    ⟨.str "1", [.str "one.tm"], ha₁, by decide +kernel,
      .inl ⟨[], .str "one.tm", hdisk₁ ▸ hprograms loaded, rfl, rfl⟩⟩
  have hl₂ : (Entry.loadProgram "one.tm").Legible d₁.disk := by
    rw [hdisk₁]
    exact Disk.Legible.of_text (Text.encodeUtf8 oneStepText) oneStepText (by decide)
      (by decide +kernel) (by decide +kernel)
  obtain ⟨d₂, ht₂, ha₂, _, hd₂⟩ :=
    ((hcourse hc₁).2.2 (he₂ _) hl₂).resolve_right fun h =>
      hlisted "one.tm" _ (by rw [← hdisk₁]; exact h.1)
  have hc₂ := Course.turn hc₁ (he₂ _) hl₂ ht₂
  -- the third one, which is next
  have he₃ (loaded : Option Loaded) :
      Entry.step.Entered { freshSession with loaded } d₂ [.str "8"] :=
    ⟨.null, [], ha₂, by decide +kernel, rfl⟩
  obtain ⟨d₃, ht₃, ha₃, _⟩ := ((hcourse hc₂).2.2 (he₃ _) trivial).resolve_right fun h => h.1
  refine ⟨_, _, d₂, _, d₃, hc₂, rfl, ?_, ?_, ht₃, by rw [ha₃]; rfl, ?_⟩
  · exact congrArg loaded (hcourse hc₂).1
  · dsimp only
    rw [Entry.act_congr hdisk₁, show freshSession.loaded = none from rfl, hact₁]
    decide +kernel
  · dsimp only
    rw [Entry.act_congr hdisk₁, show freshSession.loaded = none from rfl, hact₁]
    with_unfolding_all rfl

end TapeMachine.Session

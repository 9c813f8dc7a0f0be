import TapeMachine.Proofs.Sources

/-!
# Faults of a scan

A text that is no source breaks off in a group or in an arrow, or it has a character at which it can
no longer become a source, whatever follows.  The scanner tells the three apart, and the character
that it stops at is the first one of this sort.  What carries this is that a scanner which is still
reading stands in a text that can be completed: a closing parenthesis ends a group, `>` an arrow.

* `Accepted`, `Viable`: texts that are sources, and texts that something completes.
* `viable_iff_feed`: a text is viable if and only if the scanner gets through it.
* `breaksAt_iff`: the first character that cannot be read.
* `scan_faults`: the three faults, each with its exact condition.
-/

namespace TapeMachine

open Text

def Accepted (cs : List Char) : Prop := ∃ ts, Token.scan cs = .ok ts

/-- Some text behind it makes the text a source. -/
def Viable (cs : List Char) : Prop := ∃ ds, Accepted (cs ++ ds)

def OpenGroup (cs : List Char) : Prop := ∃ g b, cs = g ++ '(' :: b ∧ Accepted g ∧ ')' ∉ b

def OpenArrow (cs : List Char) : Prop := ∃ g, cs = g ++ ['-'] ∧ Accepted g

/-- The text could become a source, and with one more character it cannot. -/
def BreaksAt (p : List Char) (c : Char) : Prop := Viable p ∧ ¬ Viable (p ++ [c])

/-- The text could become a source up to some character of it, and no further. -/
def Broken (cs : List Char) : Prop := ∃ p c r, cs = p ++ c :: r ∧ BreaksAt p c

variable {cs p : List Char} {c : Char} {s : Scanner} {ts : List Token}

theorem Written.accepted (h : Written ts cs) : Accepted cs := ⟨ts, scan_of_written h⟩

theorem Accepted.exists_written (h : Accepted cs) : ∃ ts, Written ts cs := by
  obtain ⟨ts, hs⟩ := h
  exact ⟨ts, written_of_scan hs⟩

/-! ### Viable texts -/

namespace Scanner

/-- **A scanner that is still reading can be satisfied.** -/
theorem Reads.viable (h : Reads cs s) : Viable cs := by
  cases h with
  | resting hw =>
    refine ⟨[], ?_⟩
    rw [List.append_nil]
    exact hw.accepted
  | within hw hb _ =>
    refine ⟨[')'], ?_⟩
    rw [List.append_assoc]
    exact (hw.concat (.group hb)).accepted
  | pending hw =>
    refine ⟨['>'], ?_⟩
    rw [List.append_assoc]
    exact (hw.concat .arrow).accepted

theorem eq_unexpected_of_step {fault : ScanFault} (h : s.step c = .error fault) :
    fault = .unexpected c := by
  unfold step at h
  split at h
  · split_ifs at h
    all_goals cases h
    rfl
  · split_ifs at h
  · split_ifs at h
    cases h
    rfl

theorem scan_of_step_error {fault : ScanFault} (h : start.feed p = .ok s)
    (hc : s.step c = .error fault) (r : List Char) : Token.scan (p ++ c :: r) = .error fault := by
  have hf : start.feed (p ++ c :: r) = .error fault := by
    rw [feed_append, h]
    show s.feed (c :: r) = _
    rw [feed_cons, hc]
    rfl
  rw [Token.scan, hf]
  rfl

end Scanner

open Scanner

/-- **A text is viable if and only if the scanner gets through it.** -/
theorem viable_iff_feed : Viable cs ↔ ∃ s, start.feed cs = .ok s := by
  constructor
  · rintro ⟨ds, ts, hs⟩
    obtain ⟨s', hf, _⟩ := bind_eq_ok_iff.1 hs
    rw [feed_append] at hf
    obtain ⟨s, hcs, _⟩ := bind_eq_ok_iff.1 hf
    exact ⟨s, hcs⟩
  · rintro ⟨s, hs⟩
    exact (reads_start.feed hs).viable

/-- **The first character that cannot be read.** -/
theorem breaksAt_iff :
    BreaksAt p c ↔ ∃ s, start.feed p = .ok s ∧ s.step c = .error (.unexpected c) := by
  rw [BreaksAt, viable_iff_feed, viable_iff_feed]
  constructor
  · rintro ⟨⟨s, hs⟩, hn⟩
    refine ⟨s, hs, ?_⟩
    cases h : s.step c with
    | error fault => rw [eq_unexpected_of_step h]
    | ok s' =>
      -- a scanner that took `c` is still reading, and what it reads can be completed
      exfalso
      apply hn
      refine ⟨s', ?_⟩
      rw [feed_append, hs]
      exact (feed_singleton s c).trans h
  · rintro ⟨s, hs, hc⟩
    refine ⟨⟨s, hs⟩, ?_⟩
    rintro ⟨s', hs'⟩
    rw [feed_append, hs] at hs'
    have h : s.step c = .ok s' := (feed_singleton s c).symm.trans hs'
    rw [hc] at h
    cases h

/-! ### What a scan fails with -/

theorem scan_eq_unfinished_iff {f : Fragment} :
    Token.scan cs = .error (.unfinished f) ↔ ∃ s, start.feed cs = .ok s ∧ s.fragment? = some f := by
  rw [Token.scan, bind_eq_error_iff]
  constructor
  · rintro (h | ⟨s, hs, hf⟩)
    · obtain ⟨_, _, _, _, _, _, hc⟩ := foldlM_eq_error_iff.1 h
      cases eq_unexpected_of_step hc
    · refine ⟨s, hs, ?_⟩
      rw [finish] at hf
      cases hx : s.fragment? with
      | none =>
        rw [hx] at hf
        cases hf
      | some f' =>
        rw [hx] at hf
        cases hf
        rfl
  · rintro ⟨s, hs, hf⟩
    refine Or.inr ⟨s, hs, ?_⟩
    rw [finish, hf]

theorem scan_eq_unexpected_iff :
    Token.scan cs = .error (.unexpected c) ↔ ∃ p r, cs = p ++ c :: r ∧ BreaksAt p c := by
  constructor
  · intro h
    rw [Token.scan, bind_eq_error_iff] at h
    rcases h with h | ⟨s, _, hf⟩
    · obtain ⟨p, c', r, s, hcs, hs, hc⟩ := foldlM_eq_error_iff.1 h
      cases eq_unexpected_of_step hc
      exact ⟨p, r, hcs, breaksAt_iff.2 ⟨s, hs, hc⟩⟩
    · rw [finish] at hf
      split at hf <;> cases hf
  · rintro ⟨p, r, rfl, hb⟩
    obtain ⟨s, hs, hc⟩ := breaksAt_iff.1 hb
    exact scan_of_step_error hs hc r

theorem broken_iff : Broken cs ↔ ∃ c, Token.scan cs = .error (.unexpected c) := by
  constructor
  · rintro ⟨p, c, r, hcs, hb⟩
    exact ⟨c, scan_eq_unexpected_iff.2 ⟨p, r, hcs, hb⟩⟩
  · rintro ⟨c, hc⟩
    obtain ⟨p, r, hcs, hb⟩ := scan_eq_unexpected_iff.1 hc
    exact ⟨p, c, r, hcs, hb⟩

theorem scan_eq_open_group_iff :
    Token.scan cs = .error (.unfinished .group) ↔ OpenGroup cs := by
  rw [scan_eq_unfinished_iff]
  constructor
  · rintro ⟨s, hs, hf⟩
    cases reads_start.feed hs with
    | resting _ => cases hf
    | @within ts g b p ps hw hb _ => exact ⟨g, b, rfl, hw.accepted, hb⟩
    | pending _ => cases hf
  · rintro ⟨g, b, rfl, hg, hb⟩
    obtain ⟨ts, hw⟩ := hg.exists_written
    obtain ⟨ps, p, _, hf⟩ := feed_body ts hb
    refine ⟨.within ts ps p, ?_, rfl⟩
    rw [feed_append, feed_written hw]
    show (resting ts).feed ('(' :: b) = _
    rw [feed_cons, step_resting_open]
    exact hf

theorem scan_eq_open_arrow_iff :
    Token.scan cs = .error (.unfinished .arrow) ↔ OpenArrow cs := by
  rw [scan_eq_unfinished_iff]
  constructor
  · rintro ⟨s, hs, hf⟩
    cases reads_start.feed hs with
    | resting _ => cases hf
    | within _ _ _ => cases hf
    | @pending ts g hw => exact ⟨g, rfl, hw.accepted⟩
  · rintro ⟨g, rfl, hg⟩
    obtain ⟨ts, hw⟩ := hg.exists_written
    refine ⟨.pending ts, ?_, rfl⟩
    rw [feed_append, feed_written hw]
    exact (feed_singleton (resting ts) '-').trans step_resting_dash

/-- **Each text that is no source has one fault.**  A scan breaks off in a group or in an arrow if
and only if the text does behind a source.  It stops at a character if and only if this is the first
one with which the text can no longer become a source, and then it stops there whatever follows.
Exactly one of the three is the case. -/
theorem scan_faults (cs : List Char) :
    (Token.scan cs = .error (.unfinished .group) ↔ OpenGroup cs) ∧
    (Token.scan cs = .error (.unfinished .arrow) ↔ OpenArrow cs) ∧
    (∀ c, Token.scan cs = .error (.unexpected c) ↔ ∃ p r, cs = p ++ c :: r ∧ BreaksAt p c) ∧
    (∀ p c, BreaksAt p c → ∀ r, Token.scan (p ++ c :: r) = .error (.unexpected c)) ∧
    (¬ Accepted cs ↔
      (OpenGroup cs ∧ ¬ OpenArrow cs ∧ ¬ Broken cs) ∨
      (¬ OpenGroup cs ∧ OpenArrow cs ∧ ¬ Broken cs) ∨
      (¬ OpenGroup cs ∧ ¬ OpenArrow cs ∧ Broken cs)) := by
  refine ⟨scan_eq_open_group_iff, scan_eq_open_arrow_iff, fun _ => scan_eq_unexpected_iff, ?_, ?_⟩
  · intro p c hb r
    exact scan_eq_unexpected_iff.2 ⟨p, r, rfl, hb⟩
  · rw [broken_iff, ← scan_eq_open_group_iff, ← scan_eq_open_arrow_iff, Accepted]
    cases h : Token.scan cs with
    | ok ts => simp
    | error fault =>
      cases fault with
      | unexpected c => simp
      | unfinished f => cases f <;> simp

/-- A comma between groups is seen before the group that is left open behind it. -/
theorem scan_faults_comma :
    BreaksAt ['(', ')', ' '] ',' ∧
      Token.scan ['(', ')', ' ', ',', '(', '-'] = .error (.unexpected ',') := by
  have hb : BreaksAt ['(', ')', ' '] ',' :=
    breaksAt_iff.2 ⟨_, rfl, rfl⟩
  exact ⟨hb, (scan_faults []).2.2.2.1 _ _ hb ['(', '-']⟩

end TapeMachine

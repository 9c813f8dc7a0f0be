import Mathlib.Data.List.Induction
import TapeMachine.Proofs.Results
import TapeMachine.Token

/-!
# The grammar of tokens

A source is written as blanks, a token, blanks, a token, and so on to the last blanks.  An arrow is
spelled `->`.  A group is spelled by its body between `(` and `)`, and its fields are the pieces
between the commas of the body.  This file shows that the scanner, which has never a whole body in
sight but collects characters into fields and fields into groups, finds exactly the tokens that are
written.

* `Written`: the texts that a list of tokens is written as.
* `Reads`: where the scanner stands after a text, and what it has collected by then.
* `Reads.step`: one more character; `Reads.feed`: any number of them.
* `scan_eq_ok_iff_written`: a scan gives a list of tokens if and only if the text is written so.
-/

namespace TapeMachine

open Text

/-! ### Written tokens -/

def IsBlankText (w : List Char) : Prop := ∀ c ∈ w, isBlank c = true

def dropEmptyEnd (ps : List (List Char)) : List (List Char) :=
  if ps.getLast? = some [] then ps.dropLast else ps

/-- The field of a piece that has no blanks at its ends. -/
def Field.ofStripped (p : List Char) : Field :=
  if String.ofList p = absent then none else some (String.ofList p)

def groupFields (body : List Char) : List Field :=
  (dropEmptyEnd ((splitAt ',' body).map strip)).map Field.ofStripped

inductive Spells : Token → List Char → Prop
  | arrow : Spells .arrow ['-', '>']
  | group {body : List Char} :
      ')' ∉ body → Spells (.group (groupFields body)) ('(' :: (body ++ [')']))

/-- `Written ts cs`: the text `cs` is blanks and the tokens `ts` in turn, each with blanks behind
it. -/
inductive Written : List Token → List Char → Prop
  | blank {w : List Char} : IsBlankText w → Written [] w
  | snoc {ts : List Token} {t : Token} {cs u w : List Char} :
      Written ts cs → Spells t u → IsBlankText w → Written (ts ++ [t]) (cs ++ u ++ w)

theorem isBlankText_nil : IsBlankText [] := by
  intro c hc
  exact absurd hc (by simp)

theorem IsBlankText.concat {w : List Char} {c : Char} (h : IsBlankText w) (hc : isBlank c = true) :
    IsBlankText (w ++ [c]) := by
  intro d hd
  rcases List.mem_append.1 hd with hd | hd
  · exact h d hd
  · rw [List.mem_singleton.1 hd]
    exact hc

theorem Written.concat_blank {ts : List Token} {cs : List Char} {c : Char} (h : Written ts cs)
    (hc : isBlank c = true) : Written ts (cs ++ [c]) := by
  cases h with
  | blank hw => exact .blank (hw.concat hc)
  | snoc hg hu hw =>
    rw [List.append_assoc]
    exact .snoc hg hu (hw.concat hc)

theorem Written.concat {ts : List Token} {t : Token} {cs u : List Char} (h : Written ts cs)
    (hu : Spells t u) : Written (ts ++ [t]) (cs ++ u) := by
  have hs := Written.snoc h hu isBlankText_nil
  rw [List.append_nil] at hs
  exact hs

/-! ### Where a scanner can stand -/

namespace Scanner

/-- Between two tokens, after the tokens `ts`. -/
def resting (ts : List Token) : Scanner := ⟨none, ts.reverse, [], []⟩

/-- Inside a group, after the closed pieces `ps` and a part `p` of the open one. -/
def within (ts : List Token) (ps : List (List Char)) (p : List Char) : Scanner :=
  ⟨some .group, ts.reverse, (ps.map Field.ofPiece).reverse, p.reverse⟩

/-- Inside an arrow. -/
def pending (ts : List Token) : Scanner := ⟨some .arrow, ts.reverse, [], []⟩

variable {ts : List Token} {ps : List (List Char)} {p : List Char} {c : Char}

theorem step_resting_of_blank (h : isBlank c = true) : (resting ts).step c = .ok (resting ts) := by
  simp only [step, resting, h, if_true]

theorem step_resting_open : (resting ts).step '(' = .ok (within ts [] []) := rfl

theorem step_resting_dash : (resting ts).step '-' = .ok (pending ts) := rfl

theorem step_within_comma : (within ts ps p).step ',' = .ok (within ts (ps ++ [p]) []) := by
  simp [step, within, closeField]

theorem step_within_of_ne (h : c ≠ ')') (h' : c ≠ ',') :
    (within ts ps p).step c = .ok (within ts ps (p ++ [c])) := by
  simp [step, within, h, h']

theorem step_resting_of_else (h : isBlank c = false) (ho : c ≠ '(') (hd : c ≠ '-') :
    (resting ts).step c = .error (.unexpected c) := by
  simp [step, resting, h, ho, hd]

theorem step_pending_of_ne (h : c ≠ '>') : (pending ts).step c = .error (.unexpected c) := by
  simp [step, pending, h]

theorem step_pending : (pending ts).step '>' = .ok (resting (ts ++ [.arrow])) := by
  simp [step, pending, resting]

theorem groupFields_of_splitAt {body : List Char} (h : splitAt ',' body = ps ++ [p]) :
    groupFields body =
      if (strip p).isEmpty then ps.map Field.ofPiece else (ps ++ [p]).map Field.ofPiece := by
  have hf : ∀ qs : List (List Char), (qs.map strip).map Field.ofStripped = qs.map Field.ofPiece :=
    fun qs => List.map_map
  rw [groupFields, h, dropEmptyEnd]
  by_cases hp : strip p = []
  · simp only [List.map_append, List.map_cons, List.map_nil, hp, List.getLast?_concat, if_true,
      List.dropLast_concat, List.isEmpty_nil, hf]
  · simp only [List.map_append, List.map_cons, List.map_nil, List.getLast?_concat,
      Option.some.injEq, hp, if_false, List.isEmpty_iff, hf]
    rfl

theorem step_within_close {body : List Char} (h : splitAt ',' body = ps ++ [p]) :
    (within ts ps p).step ')' = .ok (resting (ts ++ [.group (groupFields body)])) := by
  rw [groupFields_of_splitAt h]
  by_cases hp : (strip p).isEmpty <;> simp [step, within, closeGroup, closeField, resting, hp]

/-! ### What a scanner has read -/

/-- `Reads cs s`: the scanner `s` can stand at the end of the text `cs`.  It has the complete tokens
of `cs`, and of an open group the pieces of what its body is so far. -/
inductive Reads : List Char → Scanner → Prop
  | resting {ts : List Token} {cs : List Char} : Written ts cs → Reads cs (.resting ts)
  | within {ts : List Token} {g b p : List Char} {ps : List (List Char)} :
      Written ts g → ')' ∉ b → splitAt ',' b = ps ++ [p] → Reads (g ++ '(' :: b) (.within ts ps p)
  | pending {ts : List Token} {g : List Char} :
      Written ts g → Reads (g ++ ['-']) (.pending ts)

/-- **One more character.** -/
theorem Reads.step {cs : List Char} {s s' : Scanner} {c : Char} (h : Reads cs s)
    (hs : s.step c = .ok s') : Reads (cs ++ [c]) s' := by
  cases h with
  | resting hw =>
    by_cases hb : isBlank c
    · rw [step_resting_of_blank hb] at hs
      cases hs
      exact .resting (hw.concat_blank hb)
    · by_cases ho : c = '('
      · subst ho
        rw [step_resting_open] at hs
        cases hs
        have hp : splitAt ',' [] = [] ++ [[]] := rfl
        exact .within hw List.not_mem_nil hp
      · by_cases hd : c = '-'
        · subst hd
          rw [step_resting_dash] at hs
          cases hs
          exact .pending hw
        · rw [step_resting_of_else (by simpa using hb) ho hd] at hs
          exact nomatch hs
  | @within ts g b p ps hw hb hp =>
    rw [List.append_assoc]
    by_cases hc : c = ')'
    · subst hc
      rw [step_within_close hp] at hs
      cases hs
      exact .resting (hw.concat (.group hb))
    · have hb' : ')' ∉ b ++ [c] := by
        rw [List.mem_append, List.mem_singleton]
        rintro (h | h)
        · exact hb h
        · exact hc h.symm
      by_cases hm : c = ','
      · subst hm
        rw [step_within_comma] at hs
        cases hs
        have hp' : splitAt ',' (b ++ [',']) = (ps ++ [p]) ++ [[]] := by
          rw [splitAt_append_self, hp]
        exact .within hw hb' hp'
      · rw [step_within_of_ne hc hm] at hs
        cases hs
        exact .within hw hb' (splitAt_append_of_ne hm hp)
  | pending hw =>
    by_cases hc : c = '>'
    · subst hc
      rw [step_pending] at hs
      cases hs
      rw [List.append_assoc]
      exact .resting (hw.concat .arrow)
    · rw [step_pending_of_ne hc] at hs
      exact nomatch hs

/-- **Any number of characters.** -/
theorem Reads.feed {g cs : List Char} {s s' : Scanner} (h : Reads g s)
    (hs : s.feed cs = .ok s') : Reads (g ++ cs) s' := by
  induction cs generalizing g s with
  | nil =>
    cases hs
    rw [List.append_nil]
    exact h
  | cons c cs ih =>
    rw [feed_cons, bind_eq_ok_iff] at hs
    obtain ⟨s₁, h₁, h₂⟩ := hs
    have hr := ih (h.step h₁) h₂
    rw [List.append_assoc] at hr
    exact hr

theorem reads_start : Reads [] start := .resting (.blank isBlankText_nil)

/-! ### What a scanner does with written tokens -/

theorem feed_blank {w : List Char} (h : IsBlankText w) : (resting ts).feed w = .ok (resting ts) := by
  induction w with
  | nil => rfl
  | cons c w ih =>
    rw [feed_cons, step_resting_of_blank (h c List.mem_cons_self)]
    exact ih fun d hd => h d (List.mem_cons_of_mem c hd)

theorem feed_body (ts : List Token) {b : List Char} (h : ')' ∉ b) :
    ∃ ps p, splitAt ',' b = ps ++ [p] ∧ (within ts [] []).feed b = .ok (within ts ps p) := by
  induction b using List.reverseRecOn with
  | nil => exact ⟨[], [], rfl, rfl⟩
  | append_singleton b c ih =>
    rw [List.mem_append, List.mem_singleton, not_or] at h
    obtain ⟨ps, p, hp, hf⟩ := ih h.1
    by_cases hm : c = ','
    · subst hm
      refine ⟨ps ++ [p], [], by rw [splitAt_append_self, hp], ?_⟩
      rw [feed_append, hf]
      exact (feed_singleton _ _).trans step_within_comma
    · refine ⟨ps, p ++ [c], splitAt_append_of_ne hm hp, ?_⟩
      rw [feed_append, hf]
      exact (feed_singleton _ _).trans (step_within_of_ne (Ne.symm h.2) hm)

theorem feed_spelled {t : Token} {u : List Char} (h : Spells t u) :
    (resting ts).feed u = .ok (resting (ts ++ [t])) := by
  cases h with
  | arrow => exact step_pending
  | @group body hb =>
    obtain ⟨ps, p, hp, hf⟩ := feed_body ts hb
    rw [feed_cons, step_resting_open]
    show (within ts [] []).feed (body ++ [')']) = _
    rw [feed_append, hf]
    exact (feed_singleton _ _).trans (step_within_close hp)

theorem feed_written {cs : List Char} (h : Written ts cs) : start.feed cs = .ok (resting ts) := by
  induction h with
  | @blank w hw =>
    have hs : start = resting [] := rfl
    rw [hs]
    exact feed_blank hw
  | @snoc ts t cs u w _ hu hw ih =>
    rw [feed_append, feed_append, ih]
    show (resting ts).feed u >>= _ = _
    rw [feed_spelled hu]
    exact feed_blank hw

end Scanner

/-- **A scan finds what is written.**  A text gives a list of tokens if and only if it is written as
these tokens, one after the other, with blanks before, between and behind them. -/
theorem scan_eq_ok_iff_written (text : String) (ts : List Token) :
    Token.scan text.toList = .ok ts ↔ Written ts text.toList := by
  generalize text.toList = cs
  rw [Token.scan, bind_eq_ok_iff]
  constructor
  · rintro ⟨s, hs, ht⟩
    cases Scanner.reads_start.feed hs with
    | @resting ts' _ hw =>
      rw [Scanner.finish, Scanner.resting] at ht
      cases ht
      rw [List.reverse_reverse]
      exact hw
    | within _ _ _ => exact nomatch ht
    | pending _ => exact nomatch ht
  · intro h
    refine ⟨.resting ts, Scanner.feed_written h, ?_⟩
    rw [Scanner.finish, Scanner.resting, List.reverse_reverse]

/-- A blank last piece is no field, an empty one before it is. -/
example : Token.scan "( 1, None ,, ) ->".toList =
    .ok [.group [some "1", none, some ""], .arrow] := by
  decide +kernel

end TapeMachine

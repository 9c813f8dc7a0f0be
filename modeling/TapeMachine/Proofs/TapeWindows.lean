import Std.Data.String.ToInt
import TapeMachine.Proofs.TapeHistory
import TapeMachine.Session

/-!
# Windows of a tape

A window shows the cells that are at most a radius away from the head, each under its position.  It
is as wide for a head far out, where nothing is stored, as for one at the origin.  A window can take
the place of the listing just if no cell outside of it holds anything: both are then the same up to
the blanks at their ends.

* `Grid.under`: what a grid shows under a heading; `lookup_zip_toString`: under a position.
* `filter_trimBlanks`: blanks at the ends are all that goes.
* `trimBlanks_stretch_eq_iff`: the stretches that show as much as one that shows it all.
* `window_shows_around_head`: what a window shows, and what it hides.
-/

namespace TapeMachine

/-! ### What stands under a heading -/

/-- What a grid shows under a heading, row by row. -/
def Grid.under (g : Grid) (heading : String) : List (Option String) :=
  g.rows.map fun row => (g.columns.zip row).lookup heading

/-- Numbers that differ are written differently, so each finds its own column. -/
theorem lookup_zip_toString (cell : Int → String) (ps : List Int) (p : Int) :
    ((ps.map toString).zip (ps.map cell)).lookup (toString p) =
      if p ∈ ps then some (cell p) else none := by
  induction ps with
  | nil => rfl
  | cons q ps ih =>
    rw [List.map_cons, List.map_cons, List.zip_cons_cons, List.lookup_cons]
    by_cases h : p = q
    · subst h
      rw [beq_self_eq_true, if_pos List.mem_cons_self]
    · have hs : (toString p == toString q) = false :=
        beq_eq_false_iff_ne.2 fun he => h (Int.repr_injective he)
      have hm : p ∈ q :: ps ↔ p ∈ ps := by rw [List.mem_cons, or_iff_right h]
      rw [hs, ih]
      simp only [hm]

namespace Tape

/-! ### Positions -/

theorem length_window (center radius : Int) :
    (window center radius).length = (2 * radius + 1).toNat := by
  rw [window, List.length_map, List.length_range]

theorem getElem?_window (center : Int) {radius : Int} {i : Nat} (h : i < 2 * radius + 1) :
    (window center radius)[i]? = some (center - radius + i) := by
  have hi : i < (2 * radius + 1).toNat := by omega
  rw [window, List.getElem?_map, List.getElem?_range hi, Option.map_some]

theorem mem_window {center radius p : Int} :
    p ∈ window center radius ↔ center - radius ≤ p ∧ p ≤ center + radius := by
  rw [window, List.mem_map]
  constructor
  · rintro ⟨i, hi, rfl⟩
    rw [List.mem_range] at hi
    omega
  · rintro ⟨hl, hu⟩
    exact ⟨(p - (center - radius)).toNat, List.mem_range.2 (by omega), by omega⟩

theorem window_ne_nil (center : Int) {radius : Int} (h : 0 ≤ radius) :
    window center radius ≠ [] :=
  List.ne_nil_of_mem (mem_window.2 ⟨by omega, by omega⟩ : center ∈ window center radius)

theorem around_eq_stretch (t : Tape) (radius : Int) :
    t.around radius = stretch t.read (t.head - radius) (2 * radius + 1).toNat := by
  rw [around, window, List.map_map]
  rfl

/-! ### What is hidden -/

theorem filter_dropWhile_isBlankCell (cells : List Atom) :
    (cells.dropWhile isBlankCell).filter (· ≠ .blank) = cells.filter (· ≠ .blank) := by
  induction cells with
  | nil => rfl
  | cons a cells ih =>
    by_cases h : a = .blank
    · rw [List.dropWhile_cons_of_pos (isBlankCell_iff.2 h), ih,
        List.filter_cons_of_neg (by simp [h])]
    · rw [List.dropWhile_cons_of_neg (mt isBlankCell_iff.1 h)]

theorem filter_trimBlanks (cells : List Atom) :
    (trimBlanks cells).filter (· ≠ .blank) = cells.filter (· ≠ .blank) := by
  rw [trimBlanks, List.filter_reverse, filter_dropWhile_isBlankCell, ← List.filter_reverse,
    List.reverse_reverse, filter_dropWhile_isBlankCell]

variable {cells : Int → Atom} {p q : Int} {n k : Nat}

theorem eq_blank_of_filter_stretch_eq_nil (h : (stretch cells p n).filter (· ≠ .blank) = [])
    (hl : p ≤ q) (hu : q < p + n) : cells q = .blank := by
  have hm : cells q ∈ stretch cells p n :=
    List.mem_map.2 ⟨(q - p).toNat, List.mem_range.2 (by omega), congrArg cells (by omega)⟩
  simpa using List.filter_eq_nil_iff.1 h _ hm

/-- A stretch that hides something shows less than one that hides nothing. -/
theorem blankOutside_of_trimBlanks_eq (hp : BlankOutside cells p n)
    (h : trimBlanks (stretch cells q k) = trimBlanks (stretch cells p n)) :
    BlankOutside cells q k := by
  -- a wider stretch around both shows as much as either, so beside the second it has only blanks
  let i := (q - min p q).toNat
  let j := (max (p + n) (q + k) - (q + k)).toNat
  have hwide : BlankOutside cells (q - i) (i + k + j) := fun x hx => hp x (by omega)
  have hshown := (trimBlanks_stretch_eq hwide hp).trans h.symm
  have hfilter := congrArg (List.filter (· ≠ .blank)) hshown
  have hq : q - i + (i + k : Nat) = q + k := by omega
  rw [filter_trimBlanks, filter_trimBlanks, stretch_add, stretch_add, Int.sub_add_cancel, hq,
    List.filter_append, List.filter_append] at hfilter
  have hlength := congrArg List.length hfilter
  rw [List.length_append, List.length_append] at hlength
  have hbefore : (stretch cells (q - i) i).filter (· ≠ .blank) = [] :=
    List.length_eq_zero_iff.1 (by omega)
  have hbehind : (stretch cells (q + k) j).filter (· ≠ .blank) = [] :=
    List.length_eq_zero_iff.1 (by omega)
  intro x hx
  by_cases hin : q - i ≤ x ∧ x < q + k + j
  · rcases hx with hx | hx
    · exact eq_blank_of_filter_stretch_eq_nil hbefore hin.1 (by omega)
    · exact eq_blank_of_filter_stretch_eq_nil hbehind hx hin.2
  · exact hwide x (by omega)

/-- **Stretches that show it all.**  Without the blanks at its ends, a stretch is as one that hides
nothing just if it hides nothing either. -/
theorem trimBlanks_stretch_eq_iff (hp : BlankOutside cells p n) :
    trimBlanks (stretch cells q k) = trimBlanks (stretch cells p n) ↔ BlankOutside cells q k :=
  ⟨blankOutside_of_trimBlanks_eq hp, fun hq => trimBlanks_stretch_eq hq hp⟩

theorem trimBlanks_around_eq_iff (t : Tape) {radius : Int} (h : 0 ≤ radius) :
    trimBlanks (t.around radius) = t.trimmed ↔
      ∀ p, t.read p ≠ .blank → (p - t.head).natAbs ≤ radius := by
  rw [around_eq_stretch, trimmed, contents_eq_stretch,
    trimBlanks_stretch_eq_iff (blankOutside_contents t)]
  constructor
  · intro hb p hp
    by_contra hfar
    exact hp (hb p (by omega))
  · intro hnear p hp
    by_contra hne
    have := hnear p hne
    omega

/-! ### Windows in a history -/

namespace Operation

def isWindow : Operation → Bool
  | .around _ => true
  | _ => false

theorem isWindow_eq_false_of_changes {op : Operation} (h : op.changes = true) :
    op.isWindow = false := by
  cases op with
  | around _ => nomatch h
  | _ => rfl

end Operation

theorem after_filter_not_isWindow (t : Tape) (ops : List Operation) :
    t.after (ops.filter fun op => !op.isWindow) = t.after ops := by
  rw [← after_filter_changes, ← after_filter_changes t ops, List.filter_filter]
  refine congrArg t.after (List.filter_congr fun op _ => ?_)
  cases h : op.changes with
  | false => rfl
  | true => rw [Operation.isWindow_eq_false_of_changes h]; rfl

/-! ### What a window shows -/

/-- What a cell of a window says; only the one of the head stands out. -/
def windowCell (t : Tape) (p : Int) : String :=
  if p = t.head then markup "reverse" (t.read p).render else (t.read p).render

variable (t : Tape) {radius : Int}

theorem rows_windowGrid (h : 0 ≤ radius) :
    (t.windowGrid radius).rows = [(window t.head radius).map t.windowCell] := by
  have hne : ¬ (window t.head radius).isEmpty = true := by
    rw [List.isEmpty_iff]
    exact window_ne_nil t.head h
  exact if_neg hne

theorem under_windowGrid (h : 0 ≤ radius) (p : Int) :
    (t.windowGrid radius).under (toString p) =
      [if t.head - radius ≤ p ∧ p ≤ t.head + radius then some (t.windowCell p) else none] := by
  have hl := lookup_zip_toString t.windowCell (window t.head radius) p
  simp only [mem_window] at hl
  rw [Grid.under, rows_windowGrid t h, List.map_singleton, ← hl]
  rfl

theorem perform_showMachine (d : Desk) (l : Loaded) (radius : Int) :
    ∃ title,
      let shown := #[title, .table (l.machine.tape.windowGrid radius)]
      d.perform (Session.showMachine (some l) radius) =
        (.ok (), { d with events := d.events ++ shown }) :=
  ⟨_, rfl⟩

/-- **A window shows the cells around the head.**  Whatever was done with a tape, the window has the
positions that are at most the radius away from the head, in order, and one row, in which the cell
of each position is under it and only the cell of the head stands out.  Just if no cell farther
away holds anything, the window is the listing up to blanks at the ends.  Windows that were looked
at on the way make no difference to the tape, and to show a machine is to show its window. -/
theorem window_shows_around_head (vs : List Atom) (ops : List Operation) (h : 0 ≤ radius) :
    let t := (ofList vs).after ops
    let g := t.windowGrid radius
    g.columns.length = 2 * radius + 1 ∧
      (∀ i : Nat, i < 2 * radius + 1 →
        g.columns[i]? = some (toString (t.head - radius + i))) ∧
      (∃ row, g.rows = [row] ∧ row.length = g.columns.length) ∧
      (∀ p : Int, g.under (toString p) =
        [if t.head - radius ≤ p ∧ p ≤ t.head + radius then
          some (if p = t.head then markup "reverse" (t.read p).render else (t.read p).render)
        else none]) ∧
      (trimBlanks (t.around radius) = t.trimmed ↔
        ∀ p, t.read p ≠ .blank → (p - t.head).natAbs ≤ radius) ∧
      (ofList vs).after (ops.filter fun op => !op.isWindow) = t ∧
      ∀ (d : Desk) (l : Loaded), l.machine.tape = t →
        ∃ title, d.perform (Session.showMachine (some l) radius) =
          (.ok (), { d with events := d.events ++ #[title, .table g] }) := by
  intro t g
  have hcolumns : g.columns = (window t.head radius).map toString := rfl
  refine ⟨?_, ?_, ?_, t.under_windowGrid h, t.trimBlanks_around_eq_iff h,
    after_filter_not_isWindow _ ops, ?_⟩
  · rw [hcolumns, List.length_map, length_window]
    omega
  · intro i hi
    rw [hcolumns, List.getElem?_map, getElem?_window t.head hi, Option.map_some]
  · refine ⟨_, t.rows_windowGrid h, ?_⟩
    rw [hcolumns, List.length_map, List.length_map]
  · intro d l hl
    obtain ⟨title, ht⟩ := perform_showMachine d l radius
    rw [hl] at ht
    exact ⟨title, ht⟩

theorem window_shows_right_of_seven :
    let t := (ofList [.number 7]).after [.around 4, .moveRight]
    (0 : Int) ≤ 1 ∧ (t.windowGrid 1).under (toString (0 : Int)) = [some "7"] ∧
      (t.windowGrid 1).under (toString (1 : Int)) = [some "[reverse]None[/reverse]"] ∧
      (t.windowGrid 1).under (toString (3 : Int)) = [none] ∧
      trimBlanks (t.around 1) = t.trimmed := by
  have hr : (0 : Int) ≤ 1 := by decide
  obtain ⟨_, _, _, hunder, hhides, _⟩ :=
    window_shows_around_head [.number 7] [.around 4, .moveRight] hr
  refine ⟨hr, (hunder 0).trans (by decide +kernel), (hunder 1).trans (by decide +kernel),
    (hunder 3).trans (by decide +kernel), hhides.2 fun p hp => ?_⟩
  -- nothing but the 7 stands on the tape
  by_contra hfar
  have hp0 : p < 0 ∨ 0 < p := by
    have : (((ofList [.number 7]).after [.around 4, .moveRight]).head) = 1 := rfl
    omega
  refine hp ((read_ofList [.number 7] p).trans ?_)
  split
  · rw [List.getD_eq_getElem?_getD, List.getElem?_eq_none (by simp; omega), Option.getD_none]
  · rfl

end Tape

end TapeMachine

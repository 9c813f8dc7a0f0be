import TapeMachine.Proofs.Results
import TapeMachine.Table.Order

/-!
# Sorting without failures

Sorting by runs compares only items of the list that is sorted.  So it does not fail if no two of
them fail to be compared, and a table whose states are numbers can always be listed.

* `RunSort.gives_sort`: sorting items of a sort that can be compared.
* `Table.orderFault?_eq_none`: listing a table of numbered states.
-/

namespace TapeMachine

namespace RunSort

variable {α ε : Type} {lt : α → α → Except ε Bool} {p : α → Prop}

/-- Any two items with the property `p` can be compared. -/
def Compares (lt : α → α → Except ε Bool) (p : α → Prop) : Prop :=
  ∀ a b, p a → p b → Gives (fun _ => True) (lt a b)

def Holds (p : α → Prop) (items : List α) : Prop := ∀ a ∈ items, p a

def HoldsBoth (p : α → Prop) (parts : List α × List α) : Prop := Holds p parts.1 ∧ Holds p parts.2

theorem holds_nil : Holds p [] := fun _ ha => absurd ha List.not_mem_nil

theorem holds_cons {a : α} {items : List α} : Holds p (a :: items) ↔ p a ∧ Holds p items :=
  List.forall_mem_cons

theorem holds_append {xs ys : List α} : Holds p (xs ++ ys) ↔ Holds p xs ∧ Holds p ys :=
  List.forall_mem_append

theorem holds_reverse {items : List α} (h : Holds p items) : Holds p items.reverse :=
  fun a ha => h a (List.mem_reverse.1 ha)

/-! ### Runs -/

theorem gives_runAfter (h : Compares lt p) (down : Bool) {last : α} {items : List α} (hl : p last)
    (hi : Holds p items) : Gives (HoldsBoth p) (runAfter lt down last items) := by
  induction items generalizing last with
  | nil => exact gives_ok ⟨holds_nil, holds_nil⟩
  | cons x xs ih =>
    obtain ⟨hx, hxs⟩ := holds_cons.1 hi
    refine (h x last hx hl).bind fun r _ => ?_
    split
    · refine (ih hx hxs).bind fun parts hp => ?_
      exact gives_ok ⟨holds_cons.2 ⟨hx, hp.1⟩, hp.2⟩
    · exact gives_ok ⟨holds_nil, hi⟩

theorem gives_takeRun (h : Compares lt p) {items : List α} (hi : Holds p items) :
    Gives (HoldsBoth p) (takeRun lt items) := by
  rcases items with _ | ⟨x, _ | ⟨y, rest⟩⟩
  · exact gives_ok ⟨holds_nil, holds_nil⟩
  · exact gives_ok ⟨hi, holds_nil⟩
  · obtain ⟨hx, hyr⟩ := holds_cons.1 hi
    obtain ⟨hy, hr⟩ := holds_cons.1 hyr
    refine (h y x hy hx).bind fun down _ => ?_
    refine (gives_runAfter h down hy hr).bind fun parts hp => ?_
    have hrun : Holds p (x :: y :: parts.1) := holds_cons.2 ⟨hx, holds_cons.2 ⟨hy, hp.1⟩⟩
    refine gives_ok ⟨?_, hp.2⟩
    cases down with
    | true => exact holds_reverse hrun
    | false => exact hrun

theorem gives_insert (h : Compares lt p) {item : α} {items : List α} (hx : p item)
    (hi : Holds p items) : Gives (Holds p) (insert lt item items) := by
  fun_induction insert lt item items with
  | case1 => exact gives_ok (holds_cons.2 ⟨hx, holds_nil⟩)
  | case2 items mid above heq below ih₁ ih₂ =>
    have hbelow : Holds p below := fun a ha => hi a (List.mem_of_mem_take ha)
    have hdrop : Holds p (mid :: above) := fun a ha =>
      hi a (List.mem_of_mem_drop (heq ▸ ha))
    obtain ⟨hmid, habove⟩ := holds_cons.1 hdrop
    refine (h item mid hx hmid).bind fun r _ => ?_
    split
    · refine (ih₁ hbelow).bind fun zs hz => ?_
      exact gives_ok (holds_append.2 ⟨hz, hdrop⟩)
    · refine (ih₂ habove).bind fun zs hz => ?_
      exact gives_ok (holds_append.2 ⟨hbelow, holds_cons.2 ⟨hmid, hz⟩⟩)

theorem gives_fill (h : Compares lt p) (count : Nat) {run rest : List α} (hrun : Holds p run)
    (hrest : Holds p rest) : Gives (HoldsBoth p) (fill lt count run rest) := by
  induction count generalizing run rest with
  | zero => exact gives_ok ⟨hrun, hrest⟩
  | succ count ih =>
    cases rest with
    | nil => exact gives_ok ⟨hrun, holds_nil⟩
    | cons x rest =>
      obtain ⟨hx, hr⟩ := holds_cons.1 hrest
      exact (gives_insert h hx hrun).bind fun zs hz => ih hz hr

theorem gives_nextRun (h : Compares lt p) (least : Nat) {items : List α} (hi : Holds p items) :
    Gives (HoldsBoth p) (nextRun lt least items) :=
  (gives_takeRun h hi).bind fun parts hp => gives_fill h (least - parts.1.length) hp.1 hp.2

/-! ### Merging -/

theorem gives_merge (h : Compares lt p) {xs ys : List α} (hx : Holds p xs) (hy : Holds p ys) :
    Gives (Holds p) (merge lt xs ys) := by
  fun_induction merge lt xs ys with
  | case1 ys => exact gives_ok hy
  | case2 x xs => exact gives_ok hx
  | case3 x xs y ys ih₁ ih₂ =>
    obtain ⟨hx', hxs⟩ := holds_cons.1 hx
    obtain ⟨hy', hys⟩ := holds_cons.1 hy
    refine (h y x hy' hx').bind fun r _ => ?_
    split
    · refine (ih₁ hx hys).bind fun zs hz => ?_
      exact gives_ok (holds_cons.2 ⟨hy', hz⟩)
    · refine (ih₂ hxs hy).bind fun zs hz => ?_
      exact gives_ok (holds_cons.2 ⟨hx', hz⟩)

def HoldsPending (p : α → Prop) (pending : Pending α) : Prop := ∀ run ∈ pending, Holds p run.2

theorem gives_collapse (h : Compares lt p) (power : Nat) {pending : Pending α} {last : List α}
    (hp : HoldsPending p pending) (hl : Holds p last) :
    Gives (fun r => HoldsPending p r.1 ∧ Holds p r.2) (collapse lt power pending last) := by
  induction pending generalizing last with
  | nil => exact gives_ok ⟨hp, hl⟩
  | cons run pending ih =>
    obtain ⟨hrun, hrest⟩ := List.forall_mem_cons.1 hp
    rw [collapse]
    split
    · exact (gives_merge h hrun hl).bind fun zs hz => ih hrest hz
    · exact gives_ok ⟨hp, hl⟩

theorem gives_finish (h : Compares lt p) {runs : List (List α)} {last : List α}
    (hr : ∀ run ∈ runs, Holds p run) (hl : Holds p last) :
    Gives (Holds p) (finish lt runs last) := by
  fun_induction finish lt runs last with
  | case1 last => exact gives_ok hl
  | case2 run last => exact gives_merge h (hr run List.mem_cons_self) hl
  | case3 last run before runs hlt ih =>
    obtain ⟨hrun, hbefore, hruns⟩ := List.forall_mem_cons.1 hr |>.imp_right List.forall_mem_cons.1
    exact (gives_merge h hbefore hrun).bind fun zs hz =>
      ih zs (List.forall_mem_cons.2 ⟨hz, hruns⟩) hl
  | case4 last run before runs hlt ih =>
    obtain ⟨hrun, hrest⟩ := List.forall_mem_cons.1 hr
    exact (gives_merge h hrun hl).bind fun zs hz => ih zs hrest hz

/-! ### Sorting -/

theorem gives_sortFrom (h : Compares lt p) (length fuel : Nat) {pending : Pending α} (start : Nat)
    {last items : List α} (hp : HoldsPending p pending) (hl : Holds p last) (hi : Holds p items) :
    Gives (Holds p) (sortFrom lt length fuel pending start last items) := by
  have hfinish {pending : Pending α} {last : List α} (hp : HoldsPending p pending)
      (hl : Holds p last) : Gives (Holds p) (finish lt (pending.map Prod.snd) last) :=
    gives_finish h (List.forall_mem_map.2 hp) hl
  induction fuel generalizing pending start last items with
  | zero => exact hfinish hp hl
  | succ fuel ih =>
    cases items with
    | nil => exact hfinish hp hl
    | cons x rest =>
      refine (gives_nextRun h (leastRun length) hi).bind fun parts hparts => ?_
      refine (gives_collapse h (power length start last.length parts.1.length) hp hl).bind
        fun waiting hw => ?_
      exact ih _ (List.forall_mem_cons.2 ⟨hw.2, hw.1⟩) hparts.1 hparts.2

/-- **Sorting compares no items but its own.** -/
theorem gives_sort (h : Compares lt p) {items : List α} (hi : Holds p items) :
    Gives (Holds p) (sort lt items) :=
  (gives_nextRun h (leastRun items.length) hi).bind fun _ hparts =>
    gives_sortFrom h items.length items.length 0 (fun _ hr => absurd hr List.not_mem_nil)
      hparts.1 hparts.2

end RunSort

/-! ### Tables of numbered states -/

/-- The state of the rule's situation is a number. -/
def Rule.IsNumbered (r : Rule) : Prop := ∃ n : Int, r.situation.state = .number n

theorem compares_before : RunSort.Compares Rule.before Rule.IsNumbered := by
  rintro r q ⟨m, hm⟩ ⟨n, hn⟩
  have hc : r.situation.state.comparable q.situation.state = true := by
    rw [hm, hn]
    rfl
  rw [Rule.before]
  split
  · exact gives_ok trivial
  · rw [Atom.before, if_pos hc]
    exact gives_ok trivial

/-- **A table whose states are numbers can be listed.** -/
theorem Table.orderFault?_eq_none {t : Table} (h : ∀ r ∈ t.rules, r.IsNumbered) :
    t.orderFault? = none := by
  obtain ⟨sorted, hs, _⟩ := RunSort.gives_sort compares_before h
  rw [orderFault?, hs]
  rfl

end TapeMachine

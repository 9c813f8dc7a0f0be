import Mathlib.Data.List.Perm.Basic
import Mathlib.Data.Set.List
import Mathlib.Data.String.Basic
import TapeMachine.Proofs.PrintedRules
import TapeMachine.Proofs.Sorting
import TapeMachine.Proofs.TableInsertion

/-!
# Tables in listing order

The rules of a table are listed by state and by the text form of the symbol, its states and symbols
each class once.  In the table of a machine that was read no two states are alike without being the
same, and no two symbols have the same text form.  So the listings are strictly ascending, and they
depend only on which rules there are, not on the order in which these came.

* `Atom.le_trans`, `Rule.le_trans`: the orders of the listings.
* `SymbolKind.eq_of_like`, `SymbolKind.eq_of_render`: symbols that were read are told apart.
* `mem_firstOfEach`, `pairwise_firstOfEach`: one of each class.
* `Table.OfKind.exists_states_eq`, `Table.OfKind.pairwise_symbols`: the states and symbols.
* `Table.OfKind.sorted_eq_of_perm`, `states_eq_of_perm`, `symbols_eq_of_perm`: listings of the same
  rules.
-/

namespace TapeMachine

/-! ### Orders -/

namespace Atom

variable {a b c : Atom}

theorem le_total (a b : Atom) : a.le b = true ∨ b.le a = true := by
  cases a <;> cases b <;> simp [le, canon]
  case text.text s t => exact String.le_total s t
  all_goals omega

theorem le_trans (h : a.le b = true) (g : b.le c = true) : a.le c = true := by
  cases a <;> cases b <;> cases c <;> simp_all [le, canon]
  case text.text.text => exact String.le_trans h g
  all_goals omega

theorem like_of_le (h : a.le b = true) (g : b.le a = true) : a.like b = true := by
  rw [like_iff]
  cases a <;> cases b <;> simp_all [le, canon]
  case text.text => exact String.le_antisymm h g
  all_goals omega

theorem le_of_like (h : a.like b = true) : a.le b = true := by
  rw [like_iff] at h
  rw [le, h]
  cases b <;> simp [canon]

def renderLe (a b : Atom) : Bool := a.render ≤ b.render

theorem renderLe_iff : a.renderLe b = true ↔ a.render ≤ b.render := decide_eq_true_iff

theorem renderLe_total (a b : Atom) : a.renderLe b = true ∨ b.renderLe a = true := by
  rw [renderLe_iff, renderLe_iff]
  exact String.le_total a.render b.render

theorem renderLe_trans (h : a.renderLe b = true) (g : b.renderLe c = true) :
    a.renderLe c = true := by
  rw [renderLe_iff] at h g ⊢
  exact String.le_trans h g

end Atom

namespace Rule

variable {r q p : Rule}

theorem le_iff :
    r.le q = true ↔
      if r.situation.state.like q.situation.state = true then
        r.situation.symbol.render ≤ q.situation.symbol.render
      else r.situation.state.le q.situation.state = true := by
  rw [le]
  split
  · exact decide_eq_true_iff
  · rfl

theorem state_le_of_le (h : r.le q = true) : r.situation.state.le q.situation.state = true := by
  rw [le_iff] at h
  split at h
  · next hl => exact Atom.le_of_like hl
  · exact h

theorem le_total (r q : Rule) : r.le q = true ∨ q.le r = true := by
  rw [le_iff, le_iff, Atom.like_comm q.situation.state]
  split
  · exact String.le_total _ _
  · exact Atom.le_total _ _

theorem le_trans (h : r.le q = true) (g : q.le p = true) : r.le p = true := by
  have hs := Atom.le_trans (state_le_of_le h) (state_le_of_le g)
  rw [le_iff]
  split
  · next hrp =>
    -- the state between two states that are alike is like both of them
    have hpr := Atom.le_of_like (Atom.like_comm _ _ ▸ hrp)
    have hrq := Atom.like_of_le (state_le_of_le h) (Atom.le_trans (state_le_of_le g) hpr)
    have hqp := Atom.like_of_le (state_le_of_le g) (Atom.le_trans hpr (state_le_of_le h))
    rw [le_iff, if_pos hrq] at h
    rw [le_iff, if_pos hqp] at g
    exact String.le_trans h g
  · exact hs

theorem like_and_render_eq_of_le (h : r.le q = true) (g : q.le r = true) :
    r.situation.state.like q.situation.state = true ∧
      r.situation.symbol.render = q.situation.symbol.render := by
  have hl := Atom.like_of_le (state_le_of_le h) (state_le_of_le g)
  rw [le_iff, if_pos hl] at h
  rw [le_iff, if_pos (Atom.like_comm _ _ ▸ hl)] at g
  exact ⟨hl, String.le_antisymm h g⟩

end Rule

section Sorting

variable {α : Type} {le : α → α → Bool} {l l' : List α}

/-- Sorting does not see the order that a list had before, if it tells its items apart. -/
theorem mergeSort_eq_of_perm (htrans : ∀ a b c, le a b = true → le b c = true → le a c = true)
    (htotal : ∀ a b, le a b = true ∨ le b a = true)
    (hanti : ∀ a ∈ l, ∀ b ∈ l, le a b = true → le b a = true → a = b) (hp : l.Perm l') :
    l.mergeSort le = l'.mergeSort le := by
  have hsorted (k : List α) : (k.mergeSort le).Pairwise fun a b => le a b = true :=
    List.pairwise_mergeSort htrans (fun a b => by simpa using htotal a b) k
  refine List.Perm.eq_of_pairwise (fun a b ha hb => ?_) (hsorted l) (hsorted l')
    ((List.mergeSort_perm l le).trans (hp.trans (List.mergeSort_perm l' le).symm))
  exact hanti a (List.mem_mergeSort.1 ha) b (hp.mem_iff.2 (List.mem_mergeSort.1 hb))

end Sorting

/-! ### Symbols and states that were read -/

namespace SymbolKind

variable {kind : SymbolKind} {a b : Atom}

theorem eq_of_like (ha : kind.Prints a) (hb : kind.Prints b) (h : a.like b = true) : a = b := by
  have hka := blank_or_holds ha.read
  have hkb := blank_or_holds hb.read
  rw [Atom.like_iff] at h
  cases kind <;> cases a <;> cases b <;> simp_all [Holds, Atom.canon]
  case truth.truth.truth x y => cases x <;> cases y <;> simp_all

/-- **Symbols that are printed alike are the same.**  Each is the one that is read from its text. -/
theorem eq_of_render (ha : kind.Prints a) (hb : kind.Prints b) (h : a.render = b.render) :
    a = b := by
  have hf : a.field = b.field := by
    rw [← Field.ofPiece_word ha.plain.whole, ← Field.ofPiece_word hb.plain.whole,
      ← render_eq_word, ← render_eq_word, h]
  have hread := ha.read
  rw [hf] at hread
  exact Except.ok.inj ((symbolField_eq_ok_iff.2 hread).symm.trans (symbolField_eq_ok_iff.2 hb.read))

end SymbolKind

theorem Atom.IsState.eq_of_like {a b : Atom} (ha : a.IsState) (hb : b.IsState)
    (h : a.like b = true) : a = b := by
  obtain ⟨m, rfl, _⟩ := ha
  obtain ⟨n, rfl, _⟩ := hb
  exact Atom.like_iff.1 h

theorem compares_states : RunSort.Compares Atom.before Atom.IsState := by
  rintro _ _ ⟨m, rfl, _⟩ ⟨n, rfl, _⟩
  exact gives_ok trivial

/-! ### One of each class -/

section Classes

variable {a : Atom} {l l' : List Atom}

theorem firstOfEach_sublist (l : List Atom) : (firstOfEach l).Sublist l := by
  induction l with
  | nil => exact List.Sublist.refl _
  | cons a l ih => exact (List.filter_sublist.trans ih).cons_cons a

theorem pairwise_firstOfEach (l : List Atom) :
    (firstOfEach l).Pairwise fun a b => a.like b = false := by
  induction l with
  | nil => exact List.Pairwise.nil
  | cons a l ih =>
    refine List.pairwise_cons.2 ⟨fun b hb => ?_, ih.filter _⟩
    simpa using (List.mem_filter.1 hb).2

theorem exists_like_firstOfEach (h : a ∈ l) : ∃ b ∈ firstOfEach l, b.like a = true := by
  induction l with
  | nil => exact absurd h List.not_mem_nil
  | cons c l ih =>
    rcases List.mem_cons.1 h with rfl | h
    · exact ⟨a, List.mem_cons_self, a.like_refl⟩
    · by_cases hc : c.like a = true
      · exact ⟨c, List.mem_cons_self, hc⟩
      · obtain ⟨b, hb, hba⟩ := ih h
        have hcb : c.like b = false := by
          rw [Atom.like_comm, Atom.like_congr hba, Atom.like_comm]
          exact Bool.eq_false_iff.2 hc
        exact ⟨b, List.mem_cons_of_mem c (List.mem_filter.2 ⟨hb, by simp [hcb]⟩), hba⟩

/-- The atoms of the list that are alike are the same. -/
def ToldApart (l : List Atom) : Prop := ∀ a ∈ l, ∀ b ∈ l, a.like b = true → a = b

theorem mem_firstOfEach (hl : ToldApart l) : a ∈ firstOfEach l ↔ a ∈ l := by
  refine ⟨fun h => (firstOfEach_sublist l).subset h, fun h => ?_⟩
  obtain ⟨b, hb, hba⟩ := exists_like_firstOfEach h
  rwa [← hl b ((firstOfEach_sublist l).subset hb) a h hba]

theorem nodup_firstOfEach (l : List Atom) : (firstOfEach l).Nodup := by
  refine (pairwise_firstOfEach l).imp fun {a b} h he => ?_
  rw [he, Atom.like_refl] at h
  exact nomatch h

theorem perm_firstOfEach (hl : ToldApart l) (hp : l.Perm l') :
    (firstOfEach l).Perm (firstOfEach l') := by
  have hl' : ToldApart l' := fun a ha b hb => hl a (hp.mem_iff.2 ha) b (hp.mem_iff.2 hb)
  refine (List.perm_ext_iff_of_nodup (nodup_firstOfEach l) (nodup_firstOfEach l')).2 fun a => ?_
  rw [mem_firstOfEach hl, mem_firstOfEach hl', hp.mem_iff]

end Classes

/-! ### Tables that were read -/

/-- The rules of the table are such as are read with symbols of the kind. -/
def Table.OfKind (kind : SymbolKind) (t : Table) : Prop := ∀ r ∈ t.rules, kind.RulePrints r

theorem Table.ofKind_of_machineOfSource {spec : KindSpec} {kind : SymbolKind}
    (hk : spec.resolve = .ok kind.read) {source : String} {m : Machine}
    (h : spec.machineOfSource source = .ok m) : m.table.OfKind kind :=
  (prints_of_machineOfSource hk h).2

theorem Table.eq_of_situation {t : Table} {r q : Rule} (hr : r ∈ t.rules) (hq : q ∈ t.rules)
    (h : r.situation = q.situation) : r = q := by
  have hfr : t.find? r.situation = some r.action :=
    Table.find?_eq_some_iff.2 ⟨r, hr, r.situation.like_refl, rfl⟩
  have hfq : t.find? q.situation = some q.action :=
    Table.find?_eq_some_iff.2 ⟨q, hq, q.situation.like_refl, rfl⟩
  rw [h, hfq, Option.some.injEq] at hfr
  obtain ⟨s, a⟩ := r
  exact (congrArg₂ Rule.mk h hfr.symm)

theorem Table.nodup_situations (t : Table) : (t.rules.map fun r => r.situation).Nodup := by
  refine List.pairwise_map.2 (t.distinct.imp fun {r q} h he => ?_)
  rw [he, Situation.like_refl] at h
  exact nomatch h

namespace Table.OfKind

variable {kind : SymbolKind} {t t' : Table} {r q : Rule} {s : Situation} {a : Action} {x : Atom}

section

variable (h : t.OfKind kind)
include h

theorem isState (hr : r ∈ t.rules) : r.situation.state.IsState := (h r hr).cause.state

theorem prints (hr : r ∈ t.rules) : kind.Prints r.situation.symbol := (h r hr).cause.symbol.prints

theorem toldApart_states : ToldApart (t.rules.map fun r => r.situation.state) := by
  intro a ha b hb
  obtain ⟨r, hr, rfl⟩ := List.mem_map.1 ha
  obtain ⟨q, hq, rfl⟩ := List.mem_map.1 hb
  exact (h.isState hr).eq_of_like (h.isState hq)

theorem toldApart_symbols : ToldApart (t.rules.map fun r => r.situation.symbol) := by
  intro a ha b hb
  obtain ⟨r, hr, rfl⟩ := List.mem_map.1 ha
  obtain ⟨q, hq, rfl⟩ := List.mem_map.1 hb
  exact SymbolKind.eq_of_like (h.prints hr) (h.prints hq)

theorem find?_eq_some_iff (hq : s.state.IsState) (hx : kind.Prints s.symbol) :
    t.find? s = some a ↔ ⟨s, a⟩ ∈ t.rules := by
  rw [Table.find?_eq_some_iff]
  constructor
  · rintro ⟨r, hr, hrs, rfl⟩
    obtain ⟨hstate, hsymbol⟩ := Bool.and_eq_true_iff.1 hrs
    have hs : r.situation = s := by
      obtain ⟨⟨p, y⟩, b⟩ := r
      rw [Situation.mk.injEq]
      exact ⟨(h.isState hr).eq_of_like hq hstate, SymbolKind.eq_of_like (h.prints hr) hx hsymbol⟩
    exact hs ▸ hr
  · intro hr
    exact ⟨_, hr, s.like_refl, rfl⟩

/-! ### States and symbols -/

theorem orderFault?_eq_none : t.orderFault? = none := by
  refine Table.orderFault?_eq_none fun r hr => ?_
  obtain ⟨n, hn, _⟩ := h.isState hr
  exact ⟨n, hn⟩

theorem statesFault?_eq_none : t.statesFault? = none := by
  have hstates : RunSort.Holds Atom.IsState
      (firstOfEach (t.rules.map fun r => r.situation.state)) := by
    intro q hq
    obtain ⟨r, hr, rfl⟩ := List.mem_map.1 ((firstOfEach_sublist _).subset hq)
    exact h.isState hr
  obtain ⟨_, hs, _⟩ := RunSort.gives_sort compares_states hstates
  rw [statesFault?, hs]
  rfl

/-! ### Listings of the same rules -/

/-- **The rules are listed the same way**, in whatever order they came. -/
theorem sorted_eq_of_perm (hp : t.rules.Perm t'.rules) : t.sorted = t'.sorted := by
  refine mergeSort_eq_of_perm (fun _ _ _ => Rule.le_trans) Rule.le_total
    (fun r hr q hq hrq hqr => ?_) hp
  obtain ⟨hlike, hrender⟩ := Rule.like_and_render_eq_of_le hrq hqr
  have hstate := (h.isState hr).eq_of_like (h.isState hq) hlike
  have hsymbol := SymbolKind.eq_of_render (h.prints hr) (h.prints hq) hrender
  refine Table.eq_of_situation hr hq ?_
  obtain ⟨⟨p, y⟩, a⟩ := r
  exact congrArg₂ Situation.mk hstate hsymbol

theorem states_eq_of_perm (hp : t.rules.Perm t'.rules) : t.states = t'.states := by
  refine mergeSort_eq_of_perm (fun _ _ _ => Atom.le_trans) Atom.le_total
    (fun a ha b hb hab hba => ?_) (perm_firstOfEach h.toldApart_states (hp.map _))
  exact h.toldApart_states a ((firstOfEach_sublist _).subset ha) b
    ((firstOfEach_sublist _).subset hb) (Atom.like_of_le hab hba)

theorem symbols_eq_of_perm (hp : t.rules.Perm t'.rules) : t.symbols = t'.symbols := by
  refine mergeSort_eq_of_perm (fun _ _ _ => Atom.renderLe_trans) Atom.renderLe_total
    (fun a ha b hb hab hba => ?_) (perm_firstOfEach h.toldApart_symbols (hp.map _))
  obtain ⟨r, hr, rfl⟩ := List.mem_map.1 ((firstOfEach_sublist _).subset ha)
  obtain ⟨q, hq, rfl⟩ := List.mem_map.1 ((firstOfEach_sublist _).subset hb)
  exact SymbolKind.eq_of_render (h.prints hr) (h.prints hq)
    (String.le_antisymm (Atom.renderLe_iff.1 hab) (Atom.renderLe_iff.1 hba))

end

end Table.OfKind

end TapeMachine

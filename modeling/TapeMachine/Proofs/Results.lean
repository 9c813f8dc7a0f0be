import Mathlib.Data.List.Forall2

/-!
# Results that may be faults

A result is a value or a fault; results are chained, and the first fault ends the chain.

* `bind_eq_ok_iff`, `map_eq_ok_iff`, `mapM_eq_ok_iff`: a chain gives a value if and only if each of
  its links does.
* `bind_eq_error_iff`, `map_eq_error_iff`, `foldlM_eq_error_iff`, `mapM_eq_error_iff`: a chain fails
  where its first link does that fails.
* `Gives`: a result is a value with some property; `Gives.bind`: chains of such results.
-/

namespace TapeMachine

variable {ε α β : Type}

theorem bind_eq_ok_iff {x : Except ε α} {f : α → Except ε β} {b : β} :
    x >>= f = .ok b ↔ ∃ a, x = .ok a ∧ f a = .ok b := by
  cases x with
  | error fault =>
    constructor
    · intro h
      exact nomatch h
    · rintro ⟨_, h, _⟩
      exact nomatch h
  | ok a =>
    constructor
    · intro h
      exact ⟨a, rfl, h⟩
    · rintro ⟨_, ha, h⟩
      cases ha
      exact h

theorem bind_eq_error_iff {x : Except ε α} {f : α → Except ε β} {fault : ε} :
    x >>= f = .error fault ↔ x = .error fault ∨ ∃ a, x = .ok a ∧ f a = .error fault := by
  cases x with
  | error fault' =>
    constructor
    · intro h
      exact Or.inl (congrArg Except.error (Except.error.inj h))
    · rintro (h | ⟨_, h, _⟩)
      · exact congrArg Except.error (Except.error.inj h)
      · exact nomatch h
  | ok a =>
    constructor
    · intro h
      exact Or.inr ⟨a, rfl, h⟩
    · rintro (h | ⟨_, ha, h⟩)
      · exact nomatch h
      · cases ha
        exact h

theorem foldlM_eq_error_iff {f : β → α → Except ε β} {b : β} {as : List α} {fault : ε} :
    as.foldlM f b = .error fault ↔ ∃ before a behind b', as = before ++ a :: behind ∧
      before.foldlM f b = .ok b' ∧ f b' a = .error fault := by
  constructor
  · intro h
    induction as generalizing b with
    | nil => exact nomatch h
    | cons a as ih =>
      rw [List.foldlM_cons, bind_eq_error_iff] at h
      rcases h with h | ⟨b', hb, h⟩
      · exact ⟨[], a, as, b, rfl, rfl, h⟩
      · obtain ⟨before, c, behind, b'', rfl, hf, hc⟩ := ih h
        refine ⟨a :: before, c, behind, b'', rfl, ?_, hc⟩
        rw [List.foldlM_cons, hb]
        exact hf
  · rintro ⟨before, a, behind, b', rfl, hf, ha⟩
    rw [List.foldlM_append, hf]
    show List.foldlM f b' (a :: behind) = _
    rw [List.foldlM_cons, ha]
    rfl

theorem map_eq_ok_iff {x : Except ε α} {f : α → β} {b : β} :
    x.map f = .ok b ↔ ∃ a, x = .ok a ∧ f a = b := by
  cases x with
  | error fault => simp [Except.map]
  | ok a => simp [Except.map]

theorem map_eq_error_iff {x : Except ε α} {f : α → β} {fault : ε} :
    x.map f = .error fault ↔ x = .error fault := by
  cases x with
  | error fault' => simp [Except.map]
  | ok a => simp [Except.map]

theorem mapError_eq_ok_iff {ε' : Type} {x : Except ε α} {f : ε → ε'} {a : α} :
    x.mapError f = .ok a ↔ x = .ok a := by
  cases x with
  | error fault => simp [Except.mapError]
  | ok a' => simp [Except.mapError]

theorem eq_ok_of_toOption {x : Except ε α} {a : α} (h : x.toOption = some a) : x = .ok a := by
  cases x with
  | error fault => exact nomatch h
  | ok b => exact congrArg Except.ok (Option.some.inj h)

theorem mapM_eq_ok_iff {f : α → Except ε β} {as : List α} {bs : List β} :
    as.mapM f = .ok bs ↔ List.Forall₂ (fun a b => f a = .ok b) as bs := by
  induction as generalizing bs with
  | nil =>
    constructor
    · intro h
      cases h
      exact .nil
    · rintro ⟨⟩
      rfl
  | cons a as ih =>
    rw [List.mapM_cons, bind_eq_ok_iff]
    constructor
    · rintro ⟨b, hb, h⟩
      obtain ⟨bs', hbs, h⟩ := bind_eq_ok_iff.1 h
      cases h
      exact .cons hb (ih.1 hbs)
    · rintro (_ | ⟨hb, hbs⟩)
      exact ⟨_, hb, bind_eq_ok_iff.2 ⟨_, ih.2 hbs, rfl⟩⟩

theorem mapM_eq_error_iff {f : α → Except ε β} {as : List α} {fault : ε} :
    as.mapM f = .error fault ↔ ∃ before a behind, as = before ++ a :: behind ∧
      (∀ b ∈ before, ∃ c, f b = .ok c) ∧ f a = .error fault := by
  induction as with
  | nil =>
    constructor
    · intro h
      exact nomatch h
    · rintro ⟨before, a, behind, h, _⟩
      exact absurd h.symm (List.append_ne_nil_of_right_ne_nil before (List.cons_ne_nil a behind))
  | cons a as ih =>
    rw [List.mapM_cons, bind_eq_error_iff]
    constructor
    · rintro (h | ⟨b, hb, h⟩)
      · exact ⟨[], a, as, rfl, List.forall_mem_nil _, h⟩
      · have hrest : as.mapM f = .error fault := by
          rcases bind_eq_error_iff.1 h with h | ⟨_, _, h⟩
          · exact h
          · exact nomatch h
        obtain ⟨before, a', behind, rfl, hbefore, ha'⟩ := ih.1 hrest
        exact ⟨a :: before, a', behind, rfl, List.forall_mem_cons.2 ⟨⟨b, hb⟩, hbefore⟩, ha'⟩
    · rintro ⟨before, a', behind, h, hbefore, ha'⟩
      cases before with
      | nil =>
        obtain ⟨rfl, rfl⟩ := List.cons.inj h
        exact Or.inl ha'
      | cons c before =>
        obtain ⟨rfl, rfl⟩ := List.cons.inj h
        obtain ⟨⟨b, hb⟩, hbefore⟩ := List.forall_mem_cons.1 hbefore
        refine Or.inr ⟨b, hb, bind_eq_error_iff.2 (Or.inl ?_)⟩
        exact ih.2 ⟨before, a', behind, rfl, hbefore, ha'⟩

theorem exists_of_mem_mapM {f : α → Except ε β} {as : List α} {bs : List β} {b : β}
    (h : as.mapM f = .ok bs) (hb : b ∈ bs) : ∃ a ∈ as, f a = .ok b := by
  induction mapM_eq_ok_iff.1 h with
  | nil => exact absurd hb List.not_mem_nil
  | @cons a b' as bs' ha hrest ih =>
    rcases List.mem_cons.1 hb with rfl | hb
    · exact ⟨a, List.mem_cons_self, ha⟩
    · obtain ⟨c, hc, hcb⟩ := ih (mapM_eq_ok_iff.2 hrest) hb
      exact ⟨c, List.mem_cons_of_mem a hc, hcb⟩

/-- The result is a value with the property `p`. -/
def Gives (p : α → Prop) (x : Except ε α) : Prop := ∃ a, x = .ok a ∧ p a

variable {p : α → Prop} {q : β → Prop} {x : Except ε α} {f : α → Except ε β}

theorem gives_ok {a : α} (h : p a) : Gives p (.ok a : Except ε α) := ⟨a, rfl, h⟩

theorem Gives.bind (h : Gives p x) (g : ∀ a, p a → Gives q (f a)) : Gives q (x >>= f) := by
  obtain ⟨a, rfl, ha⟩ := h
  exact g a ha

end TapeMachine

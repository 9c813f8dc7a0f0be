/-!
# Lists of pairs

Objects, settings and disks keep their entries as pairs in the order in which the keys first came.

* `putBy`, `put`: gives a key a value, in its place or at the end.
* `map_fst_putBy`, `mem_putBy`: the keys and the pairs afterwards.
* `lookup_put`: what is looked up afterwards.
-/

namespace TapeMachine.Pairs

variable {α β : Type}

/-- Gives a key a value; `same` tells whether a key that is there already is the one meant. -/
def putBy (same : α → α → Bool) (key : α) (value : β) : List (α × β) → List (α × β)
  | [] => [(key, value)]
  | (k, v) :: pairs =>
    if same k key then (k, value) :: pairs else (k, v) :: putBy same key value pairs

def put [BEq α] (key : α) (value : β) (pairs : List (α × β)) : List (α × β) :=
  putBy (· == ·) key value pairs

theorem map_fst_putBy (same : α → α → Bool) (key : α) (value : β) (pairs : List (α × β)) :
    (putBy same key value pairs).map Prod.fst = pairs.map Prod.fst ∨
      (∀ p ∈ pairs, same p.1 key = false) ∧
        (putBy same key value pairs).map Prod.fst = pairs.map Prod.fst ++ [key] := by
  induction pairs with
  | nil => exact .inr ⟨nofun, rfl⟩
  | cons p pairs ih =>
    simp only [putBy]
    split
    · exact .inl rfl
    · next h =>
      have hp : same p.1 key = false := by simpa using h
      rcases ih with ih | ⟨hn, ih⟩
      · exact .inl (by simp [ih])
      · exact .inr ⟨List.forall_mem_cons.2 ⟨hp, hn⟩, by simp [ih]⟩

theorem mem_putBy {same : α → α → Bool} {key : α} {value : β} {pairs : List (α × β)} {p : α × β}
    (h : p ∈ putBy same key value pairs) : p.2 = value ∨ p ∈ pairs := by
  induction pairs with
  | nil => exact .inl (congrArg Prod.snd (List.mem_singleton.1 h))
  | cons p' pairs ih =>
    rw [putBy] at h
    split at h
    · rcases List.mem_cons.1 h with rfl | h
      · exact .inl rfl
      · exact .inr (List.mem_cons_of_mem _ h)
    · rcases List.mem_cons.1 h with rfl | h
      · exact .inr List.mem_cons_self
      · exact (ih h).imp_right (List.mem_cons_of_mem _)

theorem forall_mem_foldl_put [BEq α] {holds : β → Prop} {pairs base : List (α × β)}
    (hb : ∀ p ∈ base, holds p.2) (hp : ∀ p ∈ pairs, holds p.2) :
    ∀ p ∈ pairs.foldl (fun acc p => put p.1 p.2 acc) base, holds p.2 := by
  induction pairs generalizing base with
  | nil => exact hb
  | cons p pairs ih =>
    rw [List.forall_mem_cons] at hp
    refine ih (fun p' hp' => ?_) hp.2
    rcases mem_putBy hp' with he | hp'
    · exact he ▸ hp.1
    · exact hb p' hp'

theorem lookup_put [BEq α] [LawfulBEq α] (key k : α) (value : β) (pairs : List (α × β)) :
    (put key value pairs).lookup k = if k == key then some value else pairs.lookup k := by
  unfold put
  induction pairs with
  | nil => simp only [putBy, List.lookup_cons, List.lookup_nil]; split <;> simp_all
  | cons p pairs ih =>
    obtain ⟨k', v⟩ := p
    simp only [putBy]
    split
    · next h =>
      obtain rfl := eq_of_beq h
      simp only [List.lookup_cons]
      split <;> simp_all
    · next h =>
      simp only [List.lookup_cons, ih]
      split <;> simp_all

end TapeMachine.Pairs

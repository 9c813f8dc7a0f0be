import TapeMachine.Proofs.JsonValues

/-!
# Limits of what is read and written

A value that was read is within the limits of the reader: no longer integer was taken, no bracket
was opened below the nesting limit, and a name that came twice is there once.

* `Within`: the value of a scan, if there is one, fits.
* `ReadsWithin`: one more step of each reader, and by induction `readsWithin` for any number.
* `fits_of_readLimited`: for whole texts.
* `ReadsAlso`, `readsAlso`: the same for wider limits; `Fits.mono`, `readLimited_mono`.
* `readLimited_renderIndented_iff`: the limits within which a written value is read.
* `refusalWithin?_eq_none_iff`: the limits within which a value is written.
* `refusalWithin?_nest`, `refusalWithin?_pow`: values beyond them.
-/

namespace TapeMachine.Json

open Text

variable {limit limit' room room' : Nat}

/-! ### Wider limits -/

theorem Fits.mono {j : Json} (h : j.Fits limit room) (hl : limit ≤ limit') (hr : room ≤ room') :
    j.Fits limit' room' := by
  induction h generalizing room' with
  | null => exact .null
  | bool b => exact .bool b
  | int digits => exact .int (digits.trans hl)
  | real x => exact .real x
  | str s => exact .str s
  | arr items_fit ih =>
    obtain ⟨room', rfl⟩ : ∃ k, room' = k + 1 := ⟨room' - 1, by omega⟩
    exact .arr fun item hi => ih item hi (by omega)
  | obj names members_fit ih =>
    obtain ⟨room', rfl⟩ : ∃ k, room' = k + 1 := ⟨room' - 1, by omega⟩
    exact .obj names fun m hm => ih m hm (by omega)

theorem Fits.nodup {members : List (String × Json)} (h : (Json.obj members).Fits limit room) :
    (members.map Prod.fst).Nodup := by
  cases h with
  | obj names members_fit => exact names

theorem Fits.of_mem_members {members : List (String × Json)} (h : (Json.obj members).Fits limit room)
    {m : String × Json} (hm : m ∈ members) : m.2.Fits limit (room - 1) := by
  cases h with
  | obj names members_fit => exact members_fit m hm

/-! ### Members -/

theorem nodup_put {key : String} {value : Json} {members : List (String × Json)}
    (h : (members.map Prod.fst).Nodup) : ((Pairs.put key value members).map Prod.fst).Nodup := by
  rw [Pairs.put]
  rcases Pairs.map_fst_putBy (· == ·) key value members with hm | ⟨hn, hm⟩
  · rwa [hm]
  · rw [hm, List.nodup_append]
    refine ⟨h, List.pairwise_singleton _ key, fun name hname key' hkey => ?_⟩
    obtain rfl := List.mem_singleton.1 hkey
    obtain ⟨m, hmem, rfl⟩ := List.mem_map.1 hname
    simpa using hn m hmem

theorem nodup_foldl_put {base : List (String × Json)} (h : (base.map Prod.fst).Nodup)
    (members : List (String × Json)) :
    ((members.foldl (fun acc m => Pairs.put m.1 m.2 acc) base).map Prod.fst).Nodup := by
  induction members generalizing base with
  | nil => exact h
  | cons m members ih => exact ih (nodup_put h)

theorem fits_ofMembers {members : List (String × Json)}
    (h : ∀ m ∈ members, m.2.Fits limit room) : (ofMembers members).Fits limit (room + 1) := by
  have hnil : (([] : List (String × Json)).map Prod.fst).Nodup := List.nodup_nil
  exact .obj (nodup_foldl_put hnil members)
    (Pairs.forall_mem_foldl_put (List.forall_mem_nil _) h)

/-! ### Scans -/

def Within (limit room : Nat) (scan : Scan Json) : Prop :=
  ∀ j rest, scan = .ok (j, rest) → j.Fits limit room

theorem within_error (fault : ReadFault) : Within limit room (.error fault) :=
  fun _ _ h => nomatch h

theorem within_ok {j : Json} (h : j.Fits limit room) (rest : List Char) :
    Within limit room (.ok (j, rest)) := by
  intro j' rest' he
  obtain ⟨rfl, rfl⟩ := Prod.mk.inj (Except.ok.inj he)
  exact h

theorem ne_nil_of_readWhole {cs whole rest : List Char}
    (h : readWhole cs = some (whole, rest)) : whole ≠ [] := by
  unfold readWhole at h
  split at h
  · cases h
    exact List.cons_ne_nil _ _
  · split at h
    · cases h
    · next hne =>
      rintro rfl
      exact hne _ (Option.some.inj h)

theorem length_toDigits_decimalNumber_le {whole : List Char} (h : whole ≠ []) :
    (Nat.toDigits 10 (decimalNumber whole)).length ≤ whole.length :=
  (Nat.length_toDigits_le_iff (by decide) (List.length_pos_iff.2 h)).2 (decimalNumber_lt whole)

theorem within_number {whole : List Char} (h : whole ≠ []) (negative isReal : Bool)
    (x : Binary64) (fault : ReadFault) (rest rest' : List Char) :
    Within limit room (if isReal = true then .ok (.real x, rest)
      else if limit < whole.length then .error fault
      else .ok (.int (if negative then -(decimalNumber whole : Int) else decimalNumber whole),
        rest')) := by
  split
  · exact within_ok (.real x) rest
  · split
    · exact within_error fault
    · next hlen =>
      refine within_ok (.int ?_) rest'
      have habs : (if negative then -(decimalNumber whole : Int) else decimalNumber whole).natAbs =
          decimalNumber whole := by
        cases negative <;> simp
      rw [habs]
      exact (length_toDigits_decimalNumber_le h).trans (Nat.not_lt.1 hlen)

theorem within_readNumber (negative : Bool) (cs : List Char) :
    Within limit room (readNumber limit negative cs) := by
  rw [readNumber]
  split
  · exact within_error _
  · next whole rest h => exact within_number (ne_nil_of_readWhole h) negative _ _ _ _ _

/-- What each of the three readers gives in so many steps is within their limits. -/
structure ReadsWithin (limit fuel : Nat) : Prop where
  value : ∀ room cs, Within limit room (readValue limit fuel room cs)
  items : ∀ room done cs, (∀ item ∈ done, Fits limit room item) →
    Within limit (room + 1) (readItems limit fuel room done cs)
  members : ∀ room done cs, (∀ m ∈ done, Fits limit room m.2) →
    Within limit (room + 1) (readMembers limit fuel room done cs)

namespace ReadsWithin

variable {fuel : Nat}

theorem zero (limit : Nat) : ReadsWithin limit 0 where
  value room cs := by
    rw [readValue]
    exact within_error _
  items room done cs _ := by
    rw [readItems]
    exact within_error _
  members room done cs _ := by
    rw [readMembers]
    exact within_error _

/-- A bracket takes one of the levels that are left, and what stands in it has the others. -/
theorem value_succ (h : ReadsWithin limit fuel) (room : Nat) (cs : List Char) :
    Within limit room (readValue limit (fuel + 1) room cs) := by
  unfold readValue
  split
  · next rest =>
    cases readString fuel [] rest with
    | error fault => exact within_error fault
    | ok r => exact within_ok (.str r.1) r.2
  · split
    · exact within_error _
    · next hroom =>
      obtain ⟨room, rfl⟩ := Nat.exists_eq_succ_of_ne_zero hroom
      split
      · exact within_ok (.arr (List.forall_mem_nil _)) _
      · exact h.items room [] _ (List.forall_mem_nil _)
  · split
    · exact within_error _
    · next hroom =>
      obtain ⟨room, rfl⟩ := Nat.exists_eq_succ_of_ne_zero hroom
      have hempty : (Json.obj []).Fits limit (room + 1) :=
        .obj List.nodup_nil (List.forall_mem_nil _)
      split
      · exact within_ok hempty _
      · exact h.members room [] _ (List.forall_mem_nil _)
  · exact within_ok .null _
  · exact within_ok (.bool true) _
  · exact within_ok (.bool false) _
  · exact within_ok (.real _) _
  · exact within_ok (.real _) _
  · exact within_ok (.real _) _
  · exact within_readNumber true _
  · exact within_readNumber false _

theorem items_succ (h : ReadsWithin limit fuel) (room : Nat) (done : List Json) (cs : List Char)
    (hd : ∀ item ∈ done, Fits limit room item) :
    Within limit (room + 1) (readItems limit (fuel + 1) room done cs) := by
  rw [readItems]
  split
  · exact within_error _
  · next item rest hread =>
    have hitems : ∀ i ∈ item :: done, i.Fits limit room :=
      List.forall_mem_cons.2 ⟨h.value room cs item rest hread, hd⟩
    split
    · exact within_ok (.arr fun i hi => hitems i (List.mem_reverse.1 hi)) _
    · exact h.items room _ _ hitems
    · exact within_error _

theorem members_succ (h : ReadsWithin limit fuel) (room : Nat) (done : List (String × Json))
    (cs : List Char) (hd : ∀ m ∈ done, Fits limit room m.2) :
    Within limit (room + 1) (readMembers limit (fuel + 1) room done cs) := by
  unfold readMembers
  split
  · split
    · exact within_error _
    · next key _ _ =>
      split
      · split
        · exact within_error _
        · next value rest hread =>
          have hmembers : ∀ m ∈ (key, value) :: done, m.2.Fits limit room :=
            List.forall_mem_cons.2 ⟨h.value room _ value rest hread, hd⟩
          split
          · exact within_ok (fits_ofMembers fun m hm => hmembers m (List.mem_reverse.1 hm)) _
          · exact h.members room _ _ hmembers
          · exact within_error _
      · exact within_error _
  · exact within_error _

end ReadsWithin

/-- **What the readers give is within their limits.** -/
theorem readsWithin (limit fuel : Nat) : ReadsWithin limit fuel := by
  induction fuel with
  | zero => exact .zero limit
  | succ fuel ih => exact ⟨ih.value_succ, ih.items_succ, ih.members_succ⟩

theorem fits_of_readLimited {nesting : Nat} {s : String} {j : Json}
    (h : readLimited limit nesting s = .ok j) : j.Fits limit nesting := by
  rw [readLimited] at h
  split at h
  · cases h
  · next value rest hread =>
    split at h
    · obtain rfl := Except.ok.inj h
      exact (readsWithin limit _).value nesting _ value rest hread
    · cases h

/-! ### Readers with wider limits -/

theorem readNumber_mono (hl : limit ≤ limit') {negative : Bool} {cs : List Char}
    {r : Json × List Char} (h : readNumber limit negative cs = .ok r) :
    readNumber limit' negative cs = .ok r := by
  have hif {isReal : Bool} {n : Nat} {x y : Scan Json} {fault : ReadFault}
      (h : (if isReal = true then x else if limit < n then .error fault else y) = .ok r) :
      (if isReal = true then x else if limit' < n then .error fault else y) = .ok r := by
    split at h
    · next hreal => rwa [if_pos hreal]
    · next hreal =>
      split at h
      · cases h
      · next hn => rwa [if_neg hreal, if_neg (by omega)]
  rw [readNumber] at h ⊢
  split at h
  · cases h
  · exact hif h

/-- What each of the three readers gives in so many steps it gives within wider limits too. -/
structure ReadsAlso (limit limit' fuel : Nat) : Prop where
  value : ∀ {room room' cs r}, room ≤ room' → readValue limit fuel room cs = .ok r →
    readValue limit' fuel room' cs = .ok r
  items : ∀ {room room' done cs r}, room ≤ room' → readItems limit fuel room done cs = .ok r →
    readItems limit' fuel room' done cs = .ok r
  members : ∀ {room room' done cs r}, room ≤ room' →
    readMembers limit fuel room done cs = .ok r → readMembers limit' fuel room' done cs = .ok r

namespace ReadsAlso

variable {fuel : Nat} {cs : List Char}

theorem zero (limit limit' : Nat) : ReadsAlso limit limit' 0 where
  value _ h := by
    rw [readValue] at h
    cases h
  items _ h := by
    rw [readItems] at h
    cases h
  members _ h := by
    rw [readMembers] at h
    cases h

theorem value_succ (h : ReadsAlso limit limit' fuel) (hl : limit ≤ limit') {r : Json × List Char}
    (hr : room ≤ room') (hread : readValue limit (fuel + 1) room cs = .ok r) :
    readValue limit' (fuel + 1) room' cs = .ok r := by
  unfold readValue at hread ⊢
  split at hread
  · exact hread
  · split at hread
    · cases hread
    · next hroom =>
      rw [if_neg (by omega)]
      split at hread
      · exact hread
      · exact h.items (by omega) hread
  · split at hread
    · cases hread
    · next hroom =>
      rw [if_neg (by omega)]
      split at hread
      · exact hread
      · exact h.members (by omega) hread
  · exact hread
  · exact hread
  · exact hread
  · exact hread
  · exact hread
  · exact hread
  · exact readNumber_mono hl hread
  · exact readNumber_mono hl hread

theorem items_succ (h : ReadsAlso limit limit' fuel) {done : List Json} {r : Json × List Char}
    (hr : room ≤ room') (hread : readItems limit (fuel + 1) room done cs = .ok r) :
    readItems limit' (fuel + 1) room' done cs = .ok r := by
  rw [readItems] at hread ⊢
  split at hread
  · cases hread
  · next hitem =>
    rw [h.value hr hitem]
    dsimp only
    split at hread
    · exact hread
    · exact h.items hr hread
    · cases hread

theorem members_succ (h : ReadsAlso limit limit' fuel) {done : List (String × Json)}
    {r : Json × List Char} (hr : room ≤ room')
    (hread : readMembers limit (fuel + 1) room done cs = .ok r) :
    readMembers limit' (fuel + 1) room' done cs = .ok r := by
  unfold readMembers at hread ⊢
  split at hread
  · split at hread
    · cases hread
    · split at hread
      · split at hread
        · cases hread
        · next hvalue =>
          rw [h.value hr hvalue]
          dsimp only
          split at hread
          · exact hread
          · exact h.members hr hread
          · cases hread
      · cases hread
  · cases hread

end ReadsAlso

/-- **What is read within limits** is read within wider ones. -/
theorem readsAlso (hl : limit ≤ limit') (fuel : Nat) : ReadsAlso limit limit' fuel := by
  induction fuel with
  | zero => exact .zero limit limit'
  | succ fuel ih => exact ⟨ih.value_succ hl, ih.items_succ, ih.members_succ⟩

theorem readLimited_mono {nesting nesting' : Nat} {s : String} {j : Json} (hl : limit ≤ limit')
    (hr : nesting ≤ nesting') (h : readLimited limit nesting s = .ok j) :
    readLimited limit' nesting' s = .ok j := by
  rw [readLimited] at h ⊢
  split at h
  · cases h
  · next hread => rwa [(readsAlso hl _).value hr hread]

/-! ### Written values -/

/-- The value can be told from its text: it is whole, and no object has a name twice. -/
def Exact (j : Json) : Prop := j.Whole ∧ ∃ limit room, j.Fits limit room

/-- **The text of a value gives the value** to the readers whose limits it fits, and nothing to the
others. -/
theorem readLimited_renderIndented_iff {nesting : Nat} {j k : Json} (h : j.Exact) :
    readLimited limit nesting j.renderIndented = .ok k ↔ k = j ∧ j.Fits limit nesting := by
  obtain ⟨hw, limit', room', hf⟩ := h
  constructor
  · intro hread
    have hread' := readLimited_mono (Nat.le_max_left limit limit') (Nat.le_max_left nesting room')
      hread
    rw [readLimited_renderIndented (hf.mono (Nat.le_max_right _ _) (Nat.le_max_right _ _)) hw]
      at hread'
    obtain rfl := Except.ok.inj hread'
    exact ⟨rfl, fits_of_readLimited hread⟩
  · rintro ⟨rfl, hfit⟩
    exact readLimited_renderIndented hfit hw

/-! ### Values that are refused -/

theorem itemsRefusal?_eq_none_iff {items : List Json} :
    itemsRefusal? limit room items = none ↔
      ∀ item ∈ items, refusalWithin? limit room item = none := by
  induction items with
  | nil => simp [itemsRefusal?]
  | cons item items ih => rw [itemsRefusal?, Option.or_eq_none_iff, ih, List.forall_mem_cons]

theorem membersRefusal?_eq_none_iff {members : List (String × Json)} :
    membersRefusal? limit room members = none ↔
      ∀ m ∈ members, refusalWithin? limit room m.2 = none := by
  induction members with
  | nil => simp [membersRefusal?]
  | cons m members ih => rw [membersRefusal?, Option.or_eq_none_iff, ih, List.forall_mem_cons]

/-- **A value without a name that comes twice** is written exactly if it is within the limits. -/
theorem refusalWithin?_eq_none_iff {j : Json} (h : j.Fits limit' room') :
    refusalWithin? limit room j = none ↔ j.Fits limit room := by
  induction h generalizing room with
  | null => exact iff_of_true rfl .null
  | bool b => exact iff_of_true rfl (.bool b)
  | real x => exact iff_of_true rfl (.real x)
  | str s => exact iff_of_true rfl (.str s)
  | @int _ n _ =>
    rw [refusalWithin?]
    split
    · next hlen =>
      refine iff_of_false (Option.some_ne_none _) fun h => ?_
      cases h with
      | int digits => exact Nat.not_lt.2 digits hlen
    · next hlen => exact iff_of_true rfl (.int (Nat.not_lt.1 hlen))
  | @arr _ items _ ih =>
    cases room with
    | zero => exact iff_of_false (Option.some_ne_none _) nofun
    | succ room =>
      rw [refusalWithin?, itemsRefusal?_eq_none_iff]
      constructor
      · exact fun h => .arr fun item hi => (ih item hi).1 (h item hi)
      · intro h item hi
        cases h with
        | arr items_fit => exact (ih item hi).2 (items_fit item hi)
  | @obj _ members names _ ih =>
    cases room with
    | zero => exact iff_of_false (Option.some_ne_none _) nofun
    | succ room =>
      rw [refusalWithin?, membersRefusal?_eq_none_iff]
      constructor
      · exact fun h => .obj names fun m hm => (ih m hm).1 (h m hm)
      · exact fun h m hm => (ih m hm).2 (h.of_mem_members hm)

/-! ### Values beyond limits -/

def nest : Nat → Json
  | 0 => .arr []
  | n + 1 => .arr [nest n]

theorem whole_nest (n : Nat) : (nest n).Whole := by
  induction n with
  | zero => exact .arr (List.forall_mem_nil _)
  | succ n ih => exact .arr (List.forall_mem_singleton.2 ih)

theorem fits_nest_iff {n : Nat} : (nest n).Fits limit room ↔ n < room := by
  induction n generalizing room with
  | zero =>
    constructor
    · intro h
      cases h
      exact Nat.succ_pos _
    · intro h
      obtain ⟨room, rfl⟩ := Nat.exists_eq_succ_of_ne_zero (Nat.ne_of_gt h)
      exact .arr (List.forall_mem_nil _)
  | succ n ih =>
    constructor
    · intro h
      cases h with
      | arr items_fit => exact Nat.succ_lt_succ (ih.1 (items_fit _ List.mem_cons_self))
    · intro h
      obtain ⟨room, rfl⟩ : ∃ k, room = k + 1 := ⟨room - 1, by omega⟩
      exact .arr (List.forall_mem_singleton.2 (ih.2 (Nat.lt_of_succ_lt_succ h)))

theorem refusalWithin?_nest {n : Nat} (h : room ≤ n) :
    refusalWithin? limit room (nest n) = some .tooDeep := by
  induction n generalizing room with
  | zero =>
    obtain rfl := Nat.le_zero.1 h
    rfl
  | succ n ih =>
    cases room with
    | zero => rfl
    | succ room =>
      rw [nest, refusalWithin?, itemsRefusal?, ih (Nat.le_of_succ_le_succ h)]
      rfl

theorem refusalWithin?_pow (h : 0 < limit) (room : Nat) :
    refusalWithin? limit room (.int (10 ^ limit)) = some (.tooLong limit) := by
  have hlong : limit < (Nat.toDigits 10 (10 ^ limit : Int).natAbs).length := by
    rw [Int.natAbs_pow, ← Nat.not_le]
    exact fun hle => absurd ((Nat.length_toDigits_le_iff (by decide) h).1 hle) (Nat.lt_irrefl _)
  rw [refusalWithin?, if_pos hlong]

end TapeMachine.Json

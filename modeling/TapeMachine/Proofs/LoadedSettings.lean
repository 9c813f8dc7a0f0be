import TapeMachine.Proofs.SavedSetups

/-!
# Settings that were loaded

Whatever is laid over the default settings, these keep their places, the names that are new follow,
no name comes twice, and no value is nested deeper than in the text it came from.  So settings that
were loaded and whose names are texts are members of an object that can be saved, and the text of
that object gives them back with every name in its place.

* `Settings.Laid`: what holds of settings laid over the default ones; `Laid.put`, `Laid.update`.
* `Laid.of_members`: settings whose names are texts.
* `Setup.laid_of_ofText`: settings of a text; `ofText_renderIndented_of_names`: they are given back.
-/

namespace TapeMachine

variable {limit room : Nat} {s t : Settings} {name value : Json}

namespace Settings

/-! ### Settings laid over the default ones -/

/-- The default names come first, no name comes twice, and the values are within limits. -/
structure Laid (limit room : Nat) (s : Settings) : Prop where
  names : ∃ rest, s.entries.map Prod.fst =
    Config.standard.toSettings.entries.map Prod.fst ++ rest
  distinct : (s.entries.map Prod.fst).Pairwise fun a b => a.sameName b = false
  fits : ∀ e ∈ s.entries, e.2.Fits limit room

theorem laid_standard (h : 7 ≤ limit) : Laid limit room Config.standard.toSettings := by
  refine ⟨⟨[], (List.append_nil _).symm⟩, by decide, ?_⟩
  have hsmall {n : Int} (hn : (Nat.toDigits 10 n.natAbs).length ≤ 7) :
      (Json.int n).Fits limit room := .int (hn.trans h)
  simp only [Config.toSettings, ofMembers, List.forall_mem_map, List.forall_mem_cons]
  exact ⟨hsmall (by decide), .str _, hsmall (by decide), hsmall (by decide), .bool _, .str _,
    .str _, .str _, List.forall_mem_nil _⟩

/-- **To put a value** keeps all this. -/
theorem Laid.put (h : Laid limit room s) (name : Json) (hv : value.Fits limit room) :
    Laid limit room (s.put name value) := by
  have hfits : ∀ e ∈ (s.put name value).entries, e.2.Fits limit room := by
    intro e he
    rcases Pairs.mem_putBy he with rfl | he
    · exact hv
    · exact h.fits e he
  obtain ⟨rest, hrest⟩ := h.names
  rcases Pairs.map_fst_putBy Json.sameName name value s.entries with hm | ⟨hn, hm⟩
  · refine ⟨⟨rest, hm.trans hrest⟩, ?_, hfits⟩
    rw [Settings.put, hm]
    exact h.distinct
  · refine ⟨⟨rest ++ [name], ?_⟩, ?_, hfits⟩
    · rw [Settings.put, hm, hrest, List.append_assoc]
    · rw [Settings.put, hm, List.pairwise_append]
      refine ⟨h.distinct, List.pairwise_singleton _ name, fun a ha b hb => ?_⟩
      obtain rfl := List.mem_singleton.1 hb
      obtain ⟨e, he, rfl⟩ := List.mem_map.1 ha
      exact hn e he

theorem Laid.putAll (h : Laid limit room s) {members : List (String × Json)}
    (hm : ∀ m ∈ members, m.2.Fits limit room) : Laid limit room (s.putAll members) := by
  induction members generalizing s with
  | nil => exact h
  | cons m members ih =>
    rw [List.forall_mem_cons] at hm
    exact ih (h.put (.str m.1) hm.1) hm.2

/-! ### Updates -/

theorem fits_of_mem_parts {j item : Json} {items : List Json} (h : j.Fits limit room)
    (hp : j.parts? = some items) (hi : item ∈ items) : item.Fits limit (room - 1) := by
  cases h with
  | str text =>
    obtain rfl := Option.some.inj hp
    obtain ⟨c, _, rfl⟩ := List.mem_map.1 hi
    exact .str _
  | arr items_fit =>
    obtain rfl := Option.some.inj hp
    exact items_fit item hi
  | obj names members_fit =>
    obtain rfl := Option.some.inj hp
    obtain ⟨m, _, rfl⟩ := List.mem_map.1 hi
    exact .str m.1
  | null => cases hp
  | bool b => cases hp
  | int digits => cases hp
  | real x => cases hp

theorem fits_of_pair {index : Nat} {item : Json} (h : item.Fits limit room)
    (hp : pair index item = .ok (name, value)) : value.Fits limit room := by
  unfold pair at hp
  split at hp
  · cases hp
  · next name' value' hparts =>
    split at hp
    · cases hp
    · obtain ⟨rfl, rfl⟩ := Prod.mk.inj (Except.ok.inj hp)
      exact (fits_of_mem_parts h hparts (by simp)).mono le_rfl (Nat.sub_le _ _)
  · cases hp

theorem Laid.updatePairs (h : Laid limit room s) {items : List Json}
    (hi : ∀ item ∈ items, item.Fits limit room) {index : Nat}
    (hu : s.updatePairs index items = .ok t) : Laid limit room t := by
  induction items generalizing s index with
  | nil =>
    cases hu
    exact h
  | cons item items ih =>
    rw [List.forall_mem_cons] at hi
    rw [Settings.updatePairs] at hu
    split at hu
    · cases hu
    · next name value hp => exact ih (h.put name (fits_of_pair hi.1 hp)) hi.2 hu

/-- **What a value gives** laid over settings. -/
theorem Laid.update (h : Laid limit room s) {j : Json} (hj : j.Fits limit (room + 1))
    (hu : s.update j = .ok t) : Laid limit room t := by
  unfold Settings.update at hu
  split at hu
  · next members =>
    cases hu
    exact h.putAll fun m hm => hj.of_mem_members hm
  · split at hu
    · cases hu
    · next items hp => exact h.updatePairs (fun item hi => fits_of_mem_parts hj hp hi) hu

/-! ### Names that are texts -/

/-- **Settings whose names are texts** are members of an object within limits. -/
theorem Laid.of_members {members : List (String × Json)} (h : Laid limit room (ofMembers members)) :
    (∃ rest, members.map Prod.fst = Config.standard.members.map Prod.fst ++ rest) ∧
      (Json.obj members).Fits limit (room + 1) := by
  have htext (names : List String) : (names.map Json.str).map Json.nameText = names := by
    rw [List.map_map]
    exact List.map_id' names
  refine ⟨?_, .obj ?_ fun m hm => ?_⟩
  · obtain ⟨rest, hrest⟩ := h.names
    rw [Config.toSettings_eq, map_fst_ofMembers, map_fst_ofMembers] at hrest
    refine ⟨rest.map Json.nameText, ?_⟩
    rw [← htext (members.map Prod.fst), hrest, List.map_append, htext]
  · have hdistinct := h.distinct
    rw [map_fst_ofMembers, List.pairwise_map] at hdistinct
    refine hdistinct.imp fun {a b} hn => ?_
    rw [sameName_str] at hn
    exact ne_of_beq_false hn
  · exact h.fits (.str m.1, m.2) (List.mem_map.2 ⟨m, hm, rfl⟩)

end Settings

/-! ### Settings of a text -/

namespace Setup

variable {nesting : Nat} {text : String} {setup : Setup} {members : List (String × Json)}
  {c : Config}

theorem laid_of_ofText (h : ofText (nesting + 1) text = .ok setup) :
    setup.settings.Laid Text.numeralLimit nesting := by
  obtain ⟨value, hread, hupdate, _⟩ := ofText_eq_ok_iff.1 h
  exact (Settings.laid_standard (by decide)).update (Json.fits_of_readLimited hread) hupdate

/-- **Members with the default names first** are given back by their text, every one in its
place. -/
theorem ofText_renderIndented_of_names {rest : List String}
    (hn : members.map Prod.fst = Config.standard.members.map Prod.fst ++ rest)
    (hf : (Json.obj members).Fits Text.numeralLimit nesting)
    (hw : (Json.obj members).Whole) (hc : (Settings.ofMembers members).validate = .ok c) :
    ofText nesting (Json.obj members).renderIndented = .ok ⟨.ofMembers members, c⟩ := by
  rw [ofText_renderIndented hf hw hc, standard, Settings.putAll_standard,
    Pairs.foldl_put_of_names hn hf.nodup]

end Setup

end TapeMachine

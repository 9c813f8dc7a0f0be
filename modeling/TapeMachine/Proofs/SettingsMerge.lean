import Mathlib.Data.List.Nodup
import TapeMachine.Config
import TapeMachine.Proofs.JsonLimits
import TapeMachine.Proofs.Results

/-!
# Settings laid over others

Settings whose names are texts are members of an object.  To lay the members of an object over them
is to put each member, so that what is looked up is the new value if there is one, and the old one
if not.

* `Pairs.lookup_foldl_put`, `Pairs.perm_of_lookup`: members by what is looked up.
* `Settings.get?_ofMembers`, `putAll_ofMembers`, `toJson_ofMembers`: settings as members.
* `Settings.validate_congr`, `get?_of_validate`, `checkRanges_eq_ok_iff`: what makes a
  configuration.
* `lookup_putAll_standard`, `perm_putAll_standard`: settings that make a configuration, laid over
  the default ones.
-/

namespace TapeMachine

/-! ### Lists of pairs -/

namespace Pairs

section Lookup

variable {β : Type} {ms : List (String × β)} {name : String} {value : β}

theorem lookup_eq_none_iff_notMem : ms.lookup name = none ↔ name ∉ ms.map Prod.fst := by
  rw [List.lookup_eq_none_iff, List.mem_map, not_exists]
  refine forall_congr' fun m => ?_
  rw [not_and, bne_iff_ne, ne_comm]

theorem lookup_eq_some_iff_mem (h : (ms.map Prod.fst).Nodup) :
    ms.lookup name = some value ↔ (name, value) ∈ ms := by
  induction ms with
  | nil => simp
  | cons m ms ih =>
    rw [List.map_cons, List.nodup_cons] at h
    obtain ⟨key, v⟩ := m
    rw [List.lookup_cons, List.mem_cons, ← ih h.2]
    by_cases hk : name = key
    · subst hk
      have hn : ms.lookup name = none := lookup_eq_none_iff_notMem.2 h.1
      simp [hn, eq_comm]
    · rw [beq_eq_false_iff_ne.2 hk]
      simp [hk]

theorem lookup_eq_of_perm {ms' : List (String × β)} (hp : ms.Perm ms')
    (h : (ms.map Prod.fst).Nodup) (name : String) : ms.lookup name = ms'.lookup name := by
  have h' : (ms'.map Prod.fst).Nodup := (hp.map Prod.fst).nodup h
  refine Option.ext fun value => ?_
  rw [lookup_eq_some_iff_mem h, lookup_eq_some_iff_mem h', hp.mem_iff]

end Lookup

variable {base members ms ms' : List (String × Json)} {name : String} {value : Json}

/-- **What is looked up after members were put** is their value if there is one. -/
theorem lookup_foldl_put (h : (members.map Prod.fst).Nodup) (base : List (String × Json))
    (name : String) :
    (members.foldl (fun acc m => put m.1 m.2 acc) base).lookup name =
      (members.lookup name).or (base.lookup name) := by
  induction members generalizing base with
  | nil => rfl
  | cons m members ih =>
    rw [List.map_cons, List.nodup_cons] at h
    obtain ⟨key, v⟩ := m
    rw [List.foldl_cons, ih h.2, lookup_put, List.lookup_cons]
    by_cases hk : name = key
    · subst hk
      have hn : members.lookup name = none := lookup_eq_none_iff_notMem.2 h.1
      simp [hn]
    · rw [beq_eq_false_iff_ne.2 hk]
      simp

theorem map_fst_foldl_put (h : ∀ m ∈ members, m.1 ∈ base.map Prod.fst) :
    (members.foldl (fun acc m => put m.1 m.2 acc) base).map Prod.fst = base.map Prod.fst := by
  induction members generalizing base with
  | nil => rfl
  | cons m members ih =>
    rw [List.forall_mem_cons] at h
    have hput : (put m.1 m.2 base).map Prod.fst = base.map Prod.fst := by
      refine (map_fst_putBy (· == ·) m.1 m.2 base).resolve_right fun hnew => ?_
      obtain ⟨b, hb, hname⟩ := List.mem_map.1 h.1
      simpa [hname] using hnew.1 b hb
    rw [List.foldl_cons, ih (hput ▸ h.2), hput]

theorem perm_of_lookup (h : (ms.map Prod.fst).Nodup) (h' : (ms'.map Prod.fst).Nodup)
    (hl : ∀ name, ms.lookup name = ms'.lookup name) : ms.Perm ms' := by
  refine (List.perm_ext_iff_of_nodup (List.Nodup.of_map _ h) (List.Nodup.of_map _ h')).2 fun m => ?_
  rw [← Prod.mk.eta (p := m), ← lookup_eq_some_iff_mem h, ← lookup_eq_some_iff_mem h', hl]

theorem put_append_of_notMem {done : List (String × Json)} (h : name ∉ done.map Prod.fst)
    (old : Json) : put name value (done ++ (name, old) :: ms) = done ++ (name, value) :: ms := by
  induction done with
  | nil => rw [List.nil_append, put, putBy, if_pos BEq.rfl, List.nil_append]
  | cons m done ih =>
    rw [List.map_cons, List.mem_cons, not_or] at h
    rw [put] at ih ⊢
    rw [List.cons_append, putBy, if_neg (by simpa using Ne.symm h.1), ih h.2, List.cons_append]

theorem foldl_put_append {done : List (String × Json)} {rest : List String}
    (hn : (members.map Prod.fst) = base.map Prod.fst ++ rest)
    (h : ((done ++ members).map Prod.fst).Nodup) :
    members.foldl (fun acc m => put m.1 m.2 acc) (done ++ base) = done ++ members := by
  induction base generalizing done members with
  | nil =>
    rw [List.append_nil]
    exact Json.foldl_put_of_nodup h
  | cons b base ih =>
    cases members with
    | nil => exact absurd hn (List.cons_ne_nil _ _).symm
    | cons m members =>
      obtain ⟨hname, hrest⟩ := List.cons.inj hn
      obtain ⟨key, old⟩ := b
      obtain ⟨name, value⟩ := m
      obtain rfl : name = key := hname
      have hdone : name ∉ done.map Prod.fst := by
        intro hm
        rw [List.map_append, List.map_cons] at h
        exact (List.nodup_append.1 h).2.2 name hm name List.mem_cons_self rfl
      rw [List.append_cons] at h
      rw [List.foldl_cons, put_append_of_notMem hdone, List.append_cons, ih hrest h,
        ← List.append_cons]

/-- **Members over members of the same names**, some more after them: only those that were laid
over the others are left. -/
theorem foldl_put_of_names {rest : List String}
    (hn : members.map Prod.fst = base.map Prod.fst ++ rest) (h : (members.map Prod.fst).Nodup) :
    members.foldl (fun acc m => put m.1 m.2 acc) base = members := by
  have hnil : (([] ++ members).map Prod.fst).Nodup := h
  exact foldl_put_append hn hnil

end Pairs

/-! ### Configurations as members -/

namespace Config

def members (c : Config) : List (String × Json) :=
  [("max_steps", .int c.maxSteps), ("symbol_type", .str c.symbolType),
    ("window_radius", .int c.windowRadius), ("log_frequency", .int c.logFrequency),
    ("trim_blanks", .bool c.trimBlanks), ("output_directory", .str c.outputDirectory),
    ("log_file_prefix", .str c.logFileStart), ("programs_directory", .str c.programsDirectory)]

theorem toSettings_eq (c : Config) : c.toSettings = .ofMembers c.members := rfl

theorem map_fst_members (c : Config) :
    c.members.map Prod.fst = standard.members.map Prod.fst := rfl

theorem nodup_members (c : Config) : (c.members.map Prod.fst).Nodup := by
  rw [map_fst_members]
  decide

end Config

/-! ### Settings as members -/

namespace Settings

variable {members base : List (String × Json)} {s t : Settings} {c : Config}

theorem sameName_str (a b : String) : (Json.str a).sameName (.str b) = (a == b) := rfl

theorem get?_ofMembers (members : List (String × Json)) (name : String) :
    (ofMembers members).get? name = members.lookup name := by
  rw [get?, ofMembers]
  induction members with
  | nil => rfl
  | cons m members ih =>
    rw [List.map_cons, List.find?_cons, List.lookup_cons, sameName_str, BEq.comm]
    cases name == m.1 with
    | false => exact ih
    | true => rfl

theorem map_fst_ofMembers (members : List (String × Json)) :
    (ofMembers members).entries.map Prod.fst = (members.map Prod.fst).map Json.str := by
  rw [ofMembers, List.map_map, List.map_map]
  rfl

theorem put_ofMembers (members : List (String × Json)) (name : String) (value : Json) :
    (ofMembers members).put (.str name) value = ofMembers (Pairs.put name value members) := by
  rw [put, ofMembers, ofMembers, mk.injEq]
  dsimp only
  induction members with
  | nil => rfl
  | cons m members ih =>
    rw [Pairs.put] at ih ⊢
    rw [List.map_cons, Pairs.putBy, Pairs.putBy, sameName_str]
    split
    · rw [List.map_cons]
    · rw [List.map_cons, ih]

theorem putAll_ofMembers (base members : List (String × Json)) :
    (ofMembers base).putAll members =
      ofMembers (members.foldl (fun acc m => Pairs.put m.1 m.2 acc) base) := by
  rw [putAll]
  induction members generalizing base with
  | nil => rfl
  | cons m members ih => rw [List.foldl_cons, List.foldl_cons, put_ofMembers, ih]

theorem toJson_ofMembers (members : List (String × Json)) :
    (ofMembers members).toJson = .obj members := by
  rw [toJson, ofMembers, List.map_map]
  exact congrArg Json.obj (List.map_id' members)

/-! ### What makes a configuration -/

theorem validate_congr (h : ∀ name, s.get? name = t.get? name) : s.validate = t.validate := by
  have hnumber (name : String) : s.number name = t.number name := by rw [number, number, h]
  have htext (name : String) : s.text name = t.text name := by rw [text, text, h]
  have htruth (name : String) : s.truth name = t.truth name := by rw [truth, truth, h]
  rw [validate, validate, readConfig, readConfig]
  simp only [hnumber, htext, htruth]

theorem get?_of_number {n : Int} {name : String} (h : s.number name = .ok n) :
    s.get? name = some (.int n) := by
  rw [number] at h
  split at h <;> cases h
  assumption

theorem get?_of_text {text : String} {name : String} (h : s.text name = .ok text) :
    s.get? name = some (.str text) := by
  rw [Settings.text] at h
  split at h <;> cases h
  assumption

theorem get?_of_truth {b : Bool} {name : String} (h : s.truth name = .ok b) :
    s.get? name = some (.bool b) := by
  rw [truth] at h
  split at h <;> cases h
  assumption

theorem get?_of_readConfig (h : s.readConfig = .ok c) :
    ∀ m ∈ c.members, s.get? m.1 = some m.2 := by
  rw [readConfig] at h
  obtain ⟨_, h₁, h⟩ := bind_eq_ok_iff.1 h
  obtain ⟨_, h₂, h⟩ := bind_eq_ok_iff.1 h
  obtain ⟨_, h₃, h⟩ := bind_eq_ok_iff.1 h
  obtain ⟨_, h₄, h⟩ := bind_eq_ok_iff.1 h
  obtain ⟨_, h₅, h⟩ := bind_eq_ok_iff.1 h
  obtain ⟨_, h₆, h⟩ := bind_eq_ok_iff.1 h
  obtain ⟨_, h₇, h⟩ := bind_eq_ok_iff.1 h
  obtain ⟨_, h₈, h⟩ := bind_eq_ok_iff.1 h
  cases h
  simp only [Config.members, List.forall_mem_cons]
  exact ⟨get?_of_number h₁, get?_of_text h₂, get?_of_number h₃, get?_of_number h₄,
    get?_of_truth h₅, get?_of_text h₆, get?_of_text h₇, get?_of_text h₈, List.forall_mem_nil _⟩

/-- **Settings that make a configuration** hold its eight values. -/
theorem get?_of_validate (h : s.validate = .ok c) :
    ∀ m ∈ c.members, s.get? m.1 = some m.2 := by
  rw [validate] at h
  obtain ⟨c', hread, h⟩ := bind_eq_ok_iff.1 h
  obtain ⟨_, _, h⟩ := bind_eq_ok_iff.1 h
  cases h
  exact get?_of_readConfig hread

theorem checkRanges_eq_ok_iff :
    checkRanges c = .ok () ↔ c.symbolType ∈ SymbolKind.names ∧ 0 ≤ c.windowRadius ∧
      0 < c.maxSteps ∧ 0 < c.logFrequency := by
  have hname : (SymbolKind.ofName? c.symbolType).isNone = true ↔
      c.symbolType ∉ SymbolKind.names := by
    rw [Option.isNone_iff_eq_none]
    exact Pairs.lookup_eq_none_iff_notMem
  rw [checkRanges]
  split
  · next hunknown => exact iff_of_false nofun fun hr => hname.1 hunknown hr.1
  · next hknown =>
    split
    · exact iff_of_false nofun fun hr => by omega
    · split
      · exact iff_of_false nofun fun hr => by omega
      · exact iff_of_true rfl ⟨not_not.1 (mt hname.2 hknown), by omega, by omega, by omega⟩

theorem checkRanges_of_validate (h : s.validate = .ok c) : checkRanges c = .ok () := by
  rw [validate] at h
  obtain ⟨c', _, h⟩ := bind_eq_ok_iff.1 h
  obtain ⟨_, hranges, h⟩ := bind_eq_ok_iff.1 h
  cases h
  exact hranges

theorem isSome_lookup_of_validate (h : (ofMembers members).validate = .ok c) {name : String}
    (hn : name ∈ Config.standard.members.map Prod.fst) : (members.lookup name).isSome := by
  obtain ⟨m, hm, rfl⟩ := List.mem_map.1 ((Config.map_fst_members c).symm ▸ hn)
  rw [← get?_ofMembers, get?_of_validate h m hm]
  rfl

/-- **Laid over the default settings**, settings that make a configuration are all there is. -/
theorem lookup_putAll_standard (hn : (members.map Prod.fst).Nodup)
    (h : (ofMembers members).validate = .ok c) (name : String) :
    (members.foldl (fun acc m => Pairs.put m.1 m.2 acc) Config.standard.members).lookup name =
      members.lookup name := by
  rw [Pairs.lookup_foldl_put hn]
  cases hl : members.lookup name with
  | some value => rfl
  | none =>
    have hs : Config.standard.members.lookup name = none := by
      refine Pairs.lookup_eq_none_iff_notMem.2 fun hm => ?_
      have := isSome_lookup_of_validate h hm
      rw [hl] at this
      cases this
    rw [hs]
    rfl

theorem putAll_standard (members : List (String × Json)) :
    Config.standard.toSettings.putAll members = ofMembers
      (members.foldl (fun acc m => Pairs.put m.1 m.2 acc) Config.standard.members) :=
  putAll_ofMembers Config.standard.members members

theorem validate_putAll_standard (hn : (members.map Prod.fst).Nodup)
    (h : (ofMembers members).validate = .ok c) :
    (Config.standard.toSettings.putAll members).validate = .ok c := by
  rw [← h, putAll_standard]
  refine validate_congr fun name => ?_
  rw [get?_ofMembers, get?_ofMembers, lookup_putAll_standard hn h]

theorem perm_putAll_standard (hn : (members.map Prod.fst).Nodup)
    (h : (ofMembers members).validate = .ok c) :
    (Config.standard.toSettings.putAll members).entries.Perm (ofMembers members).entries := by
  rw [putAll_standard]
  exact (Pairs.perm_of_lookup (Json.nodup_foldl_put Config.standard.nodup_members members) hn
    (lookup_putAll_standard hn h)).map _

end Settings

end TapeMachine

import TapeMachine.Config.File
import TapeMachine.Proofs.Results
import TapeMachine.Proofs.SettingsMerge
import TapeMachine.Proofs.WrittenFiles

/-!
# Saved setups

Settings that make no configuration are not saved, and the desk stays as it was.  Settings that make
one are put in a file, and the setup of the file has them: the same names with the same values, and
the same configuration, as long as the reader of the file takes brackets that deep.

* `Setup.perform_save_of_error`, `perform_save_of_target`: what is done to save settings.
* `Setup.perform_load_of_source`: what is done to load a text.
* `Setup.ofText_renderIndented`: the setup of the text of settings.
-/

namespace TapeMachine.Setup

variable {d : Desk} {path : String} {p : Place} {old : List UInt8} {settings : Settings}
  {members : List (String × Json)} {c : Config}

/-! ### Saving -/

theorem perform_save_of_error {fault : SettingFault} (h : settings.validate = .error fault)
    (d : Desk) (path : String) : d.perform (save settings path) = (.error (.setting fault), d) := by
  rw [save, h]
  rfl

theorem perform_save_of_target (h : settings.validate = .ok c)
    (ht : d.disk.target path = .ok (p, old)) :
    d.perform (save settings path) = (.ok (), { d with
      disk := d.disk.put p (.file (Text.encodeUtf8 settings.toJson.renderIndented)) }) := by
  rw [save, h, Desk.perform_bind_of_ok (Desk.perform_take_ok d .setting c)]
  exact Desk.perform_writeText_of_target ht _

/-! ### Loading -/

theorem perform_load_of_source {text : String} {setup : Setup} {disk : Disk} (verbose : Bool)
    (he : d.disk.exists? path = true) (hs : d.disk.source path = .ok text)
    (hsetup : ofText d.nesting text = .ok setup)
    (hmake : d.disk.makeFolders setup.config.outputDirectory = (disk, .ok ())) :
    d.perform (load path verbose) = (.ok setup, { d with
      disk
      events := if verbose then d.events.push (.out (setup.listing d.clock)) else d.events }) := by
  have hget : d.perform get = (.ok d, d) := rfl
  have hread : d.perform (Job.readText path) = (.ok text, d) := by
    rw [Desk.perform_readText_eq, hs]
  have hfolders : d.perform (Job.makeFolders setup.config.outputDirectory) =
      (.ok (), { d with disk }) := by
    rw [Desk.perform_makeFolders, hmake]
    rfl
  rw [load, Desk.perform_bind_of_ok hget]
  simp only [he, if_true]
  rw [Desk.perform_bind_of_ok hget, Desk.perform_bind_of_ok hread, hsetup,
    Desk.perform_bind_of_ok (Desk.perform_take_ok d id setup), Desk.perform_bind_of_ok hfolders]
  cases verbose with
  | false => rfl
  | true => rfl

theorem ofText_eq_ok_iff {nesting : Nat} {text : String} {setup : Setup} :
    ofText nesting text = .ok setup ↔ ∃ value, Json.readWithin nesting text = .ok value ∧
      standard.settings.update value = .ok setup.settings ∧
      setup.settings.validate = .ok setup.config := by
  rw [ofText]
  simp only [bind_eq_ok_iff, mapError_eq_ok_iff]
  constructor
  · rintro ⟨value, hv, settings, hs, config, hc, h⟩
    obtain rfl := Except.ok.inj h
    exact ⟨value, hv, hs, hc⟩
  · rintro ⟨value, hv, hs, hc⟩
    exact ⟨value, hv, setup.settings, hs, setup.config, hc, rfl⟩

theorem of_perform_load {d' : Desk} {setup : Setup} {verbose : Bool}
    (h : d.perform (load path verbose) = (.ok setup, d')) :
    ∃ text disk events, d.disk.source path = .ok text ∧
      ofText d.nesting text = .ok setup ∧
      d.disk.makeFolders setup.config.outputDirectory = (disk, .ok ()) ∧
      d' = { d with disk, events } := by
  rw [load] at h
  obtain ⟨d₁, _, hget, h⟩ := Desk.of_perform_bind h
  cases hget
  dsimp only at h
  split at h
  · obtain ⟨_, d₁, hget, h⟩ := Desk.of_perform_bind h
    cases hget
    obtain ⟨text, d₂, hread, h⟩ := Desk.of_perform_bind h
    obtain ⟨setup', d₃, hsetup, h⟩ := Desk.of_perform_bind h
    obtain ⟨_, d₄, hmake, h⟩ := Desk.of_perform_bind h
    rw [Desk.perform_readText_eq] at hread
    obtain ⟨hsource, rfl⟩ := Prod.mk.inj hread
    have htext := Desk.of_perform_take hsetup
    rw [htext, Desk.perform_take_ok] at hsetup
    obtain ⟨-, rfl⟩ := Prod.mk.inj hsetup
    obtain ⟨disk, hmade, rfl⟩ := Desk.of_perform_makeFolders hmake
    have hresult : setup' = setup ∧ ∃ events, d' = { d with disk, events } := by
      split at h
      · obtain ⟨_, d₅, hnow, h⟩ := Desk.of_perform_bind h
        cases hnow
        cases h
        exact ⟨rfl, _, rfl⟩
      · cases h
        exact ⟨rfl, _, rfl⟩
    obtain ⟨rfl, events, rfl⟩ := hresult
    exact ⟨text, disk, events, hsource, htext, hmade, rfl⟩
  · obtain ⟨_, d₂, hfail, _⟩ := Desk.of_perform_bind h
    cases hfail

theorem perform_loadStandard_eq_ok_iff {d' : Desk} {setup : Setup} :
    d.perform loadStandard = (.ok setup, d') ↔
      d.perform (load standardPath false) = (.ok setup, d') := by
  rw [loadStandard, Desk.perform_rescue]
  rcases d.perform (load standardPath false) with ⟨fault | loaded, d₁⟩
  · constructor
    · intro h
      dsimp only at h
      split at h
      · obtain ⟨_, d₂, _, h⟩ := Desk.of_perform_bind h
        cases h
      · cases h
    · intro h
      cases h
  · exact Iff.rfl

/-- **The text of settings** that make a configuration gives them back. -/
theorem ofText_renderIndented {nesting : Nat}
    (hf : (Json.obj members).Fits Text.numeralLimit nesting)
    (hw : (Json.obj members).Whole) (hc : (Settings.ofMembers members).validate = .ok c) :
    ofText nesting (Json.obj members).renderIndented = .ok ⟨standard.settings.putAll members, c⟩ :=
  ofText_eq_ok_iff.2 ⟨.obj members, Json.readWithin_renderIndented hf hw, rfl,
    Settings.validate_putAll_standard hf.nodup hc⟩

theorem fits_of_ofText {nesting : Nat} {setup : Setup} (he : (Json.obj members).Exact)
    (h : ofText nesting (Json.obj members).renderIndented = .ok setup) :
    (Json.obj members).Fits Text.numeralLimit nesting := by
  obtain ⟨value, hread, _⟩ := ofText_eq_ok_iff.1 h
  exact ((Json.readLimited_renderIndented_iff he).1 hread).2

/-! ### Saved and loaded -/

/-- **Settings that were saved are loaded as they were**, if the reader takes brackets that deep;
settings that make no configuration are not saved, and nothing is changed. -/
theorem save_load (d : Desk) (path : String) (hw : (Json.obj members).Whole)
    (hf : (Json.obj members).Fits Text.numeralLimit d.nesting) :
    (∀ fault, (Settings.ofMembers members).validate = .error fault →
      d.perform (save (.ofMembers members) path) = (.error (.setting fault), d)) ∧
    ∀ c, (Settings.ofMembers members).validate = .ok c →
      ∀ p old, d.disk.target path = .ok (p, old) →
        ∃ d', d.perform (save (.ofMembers members) path) = (.ok (), d') ∧
          ∀ disk, d'.disk.makeFolders c.outputDirectory = (disk, .ok ()) →
            ∀ verbose, ∃ setup events,
              d'.perform (load path verbose) = (.ok setup, { d' with disk, events }) ∧
              setup.settings.entries.Perm (Settings.ofMembers members).entries ∧
              (∀ name, setup.settings.get? name = (Settings.ofMembers members).get? name) ∧
              setup.config = c := by
  refine ⟨fun fault h => perform_save_of_error h d path, fun c hc p old ht => ?_⟩
  refine ⟨_, perform_save_of_target hc ht, fun disk hmake verbose => ?_⟩
  rw [Settings.toJson_ofMembers] at hmake ⊢
  have hread := Disk.read_put_of_target ht
    (Text.encodeUtf8 (Json.obj members).renderIndented)
  have hsource := Disk.source_of_inLines (Json.inLines_renderAt hw 0) hread
  have hload := perform_load_of_source (d := { d with
    disk := d.disk.put p (.file (Text.encodeUtf8 (Json.obj members).renderIndented)) }) verbose
    (Disk.exists_of_read hread) hsource (ofText_renderIndented hf hw hc) hmake
  refine ⟨_, _, hload, Settings.perm_putAll_standard hf.nodup hc, fun name => ?_, rfl⟩
  dsimp only [standard]
  rw [Settings.putAll_standard, Settings.get?_ofMembers, Settings.get?_ofMembers,
    Settings.lookup_putAll_standard hf.nodup hc]

def bareDesk : Desk where
  disk := ⟨[(["work"], .folder), (["work", "logs"], .folder), (["work", "config"], .folder)],
    ["work"]⟩
  clock := ⟨2024, 2, 29, 12, 34, 56, 0⟩
  answers := []
  events := #[]
  nesting := Desk.usualNesting
  nesting_pos := Desk.usualNesting_pos

theorem target_bareDesk :
    bareDesk.disk.target standardPath = .ok (["work", "config", "runtime_config.json"], []) := by
  decide +kernel

theorem makeFolders_bareDesk (bytes : List UInt8) :
    (bareDesk.disk.put ["work", "config", "runtime_config.json"] (.file bytes)).makeFolders
      Config.standard.outputDirectory =
      (bareDesk.disk.put ["work", "config", "runtime_config.json"] (.file bytes), .ok ()) := by
  with_unfolding_all rfl

theorem validate_members_append (extra : List (String × Json)) :
    (Settings.ofMembers (Config.standard.members ++ extra)).validate = .ok Config.standard := rfl

theorem whole_members_append {extra : List (String × Json)} (h : ∀ m ∈ extra, m.2.Whole) :
    (Json.obj (Config.standard.members ++ extra)).Whole := by
  refine .obj (List.forall_mem_append.2 ⟨?_, h⟩)
  simp only [Config.members, List.forall_mem_cons]
  exact ⟨.int _, .str _, .int _, .int _, .bool _, .str _, .str _, .str _, List.forall_mem_nil _⟩

theorem fits_members_append {room : Nat} {extra : List (String × Json)}
    (hn : ((Config.standard.members ++ extra).map Prod.fst).Nodup)
    (h : ∀ m ∈ extra, m.2.Fits Text.numeralLimit room) :
    (Json.obj (Config.standard.members ++ extra)).Fits Text.numeralLimit (room + 1) := by
  refine .obj hn (List.forall_mem_append.2 ⟨?_, h⟩)
  simp only [Config.members, List.forall_mem_cons]
  exact ⟨.int (by decide), .str _, .int (by decide), .int (by decide), .bool _, .str _, .str _,
    .str _, List.forall_mem_nil _⟩

/-- A value with quotes, a line end, a letter that is not ASCII and a long integer in it. -/
def notes : Json := .arr [.str "a \"b\"\n\u00e9", .int (-12345678901234567890), .null]

theorem whole_notes : notes.Whole := by
  refine .arr ?_
  simp only [List.forall_mem_cons]
  exact ⟨.str _, .int _, .null, List.forall_mem_nil _⟩

theorem fits_notes : notes.Fits Text.numeralLimit 985 := by
  refine .arr ?_
  simp only [List.forall_mem_cons]
  exact ⟨.str _, .int (by decide +kernel), .null, List.forall_mem_nil _⟩

/-- The standard settings with one more value, and settings without a symbol type. -/
theorem save_load_notes :
    (∃ d' setup events,
      bareDesk.perform (save (.ofMembers (Config.standard.members ++ [("notes", notes)]))
        standardPath) = (.ok (), d') ∧
      d'.perform (load standardPath true) = (.ok setup, { d' with events }) ∧
      setup.settings.get? "notes" = some notes) ∧
    bareDesk.perform (save (.ofMembers [("max_steps", .int 5)]) standardPath) =
      (.error (.setting (.missing "symbol_type")), bareDesk) := by
  have hw : (Json.obj (Config.standard.members ++ [("notes", notes)])).Whole :=
    whole_members_append (List.forall_mem_singleton.2 whole_notes)
  have hf : (Json.obj (Config.standard.members ++ [("notes", notes)])).Fits
      Text.numeralLimit bareDesk.nesting :=
    fits_members_append (by decide) (List.forall_mem_singleton.2 fits_notes)
  have hw' : (Json.obj [("max_steps", .int 5)]).Whole :=
    .obj (List.forall_mem_singleton.2 (.int 5))
  have hf' : (Json.obj [("max_steps", .int 5)]).Fits Text.numeralLimit bareDesk.nesting :=
    .obj (by decide) (List.forall_mem_singleton.2 (.int (by decide)))
  constructor
  · obtain ⟨d', hsave, hload⟩ := (save_load bareDesk standardPath hw hf).2 _
      (validate_members_append _) _ _ target_bareDesk
    have hd' := hsave.symm.trans
      (perform_save_of_target (validate_members_append _) target_bareDesk)
    obtain rfl := (Prod.mk.inj hd').2
    obtain ⟨setup, events, hperform, _, hget, _⟩ := hload _ (makeFolders_bareDesk _) true
    refine ⟨_, setup, events, hsave, hperform, ?_⟩
    rw [hget]
    rfl
  · exact (save_load bareDesk standardPath hw' hf').1 _ rfl

/-! ### Values that are nested too deep -/

/-- **Settings nested one level too deep** are saved, and are not loaded any more. -/
theorem exists_saved_not_loaded :
    ∃ members c d',
      (Json.obj members).Whole ∧
      (Json.obj members).Fits Text.numeralLimit (bareDesk.nesting + 1) ∧
      (Settings.ofMembers members).validate = .ok c ∧
      bareDesk.disk.target standardPath = .ok (["work", "config", "runtime_config.json"], []) ∧
      bareDesk.perform (save (.ofMembers members) standardPath) = (.ok (), d') ∧
      d'.disk.makeFolders c.outputDirectory = (d'.disk, .ok ()) ∧
      ∀ verbose setup d'', d'.perform (load standardPath verbose) ≠ (.ok setup, d'') := by
  have hw : (Json.obj (Config.standard.members ++ [("notes", .nest 985)])).Whole :=
    whole_members_append (List.forall_mem_singleton.2 (Json.whole_nest 985))
  have hf : (Json.obj (Config.standard.members ++ [("notes", .nest 985)])).Fits
      Text.numeralLimit (bareDesk.nesting + 1) :=
    fits_members_append (by decide) (List.forall_mem_singleton.2 (Json.fits_nest_iff.2 (by decide)))
  refine ⟨_, Config.standard, _, hw, hf, validate_members_append _, target_bareDesk,
    perform_save_of_target (validate_members_append _) target_bareDesk,
    makeFolders_bareDesk _, fun verbose setup d'' hload => ?_⟩
  obtain ⟨text, _, _, hsource, htext, _⟩ := of_perform_load hload
  -- the text that is loaded is the one that was saved
  rw [Settings.toJson_ofMembers] at hsource
  have hsaved := Disk.source_of_inLines (Json.inLines_renderAt hw 0)
    (Disk.read_put_of_target target_bareDesk _)
  obtain rfl := Except.ok.inj (hsource.symm.trans hsaved)
  have hfit := fits_of_ofText ⟨hw, _, _, hf⟩ htext
  have hnest := hfit.of_mem_members (m := ("notes", .nest 985)) (by simp)
  exact absurd (Json.fits_nest_iff.1 hnest) (by decide)

end TapeMachine.Setup

import TapeMachine.Proofs.EditedSessions
import TapeMachine.Proofs.ProgressLines
import TapeMachine.Proofs.SessionCourses
import TapeMachine.Proofs.TapeWindows

/-!
# Settings that are accepted

A file of settings is accepted if and only if, with the default ones for those that it leaves out,
each of the eight settings is of its kind and those that have a range are within it.  If not, the
fault tells which of the two it is, and the kinds come first.  Nothing that uses an accepted
configuration can go wrong by it: its kind of symbols has a name, every step count can be divided by
its period, and its windows have a cell for every column.

* `Config.schema`, `Config.WellKinded`, `Config.WithinRanges`: what is asked of values.
* `Settings.tellsKind_of_readConfig`, `validate_cases`: the three ends of a check.
* `Settings.get?_putAll_standard`: values laid over the default ones.
* `Setup.perform_load_of_fault`: a file that is not accepted.
* `load_iff_accepted`: what is accepted, and what may be done with it.
-/

namespace TapeMachine

/-! ### What is asked of values -/

/-- Whether a value is of a kind.  Truth values are no numbers here, and neither are decimals. -/
def SettingKind.admits : SettingKind → Json → Bool
  | .number, .int _ => true
  | .text, .str _ => true
  | .truth, .bool _ => true
  | _, _ => false

namespace Config

/-- The eight settings with their kinds. -/
def schema : List (String × SettingKind) :=
  [("max_steps", .number), ("symbol_type", .text), ("window_radius", .number),
    ("log_frequency", .number), ("trim_blanks", .truth), ("output_directory", .text),
    ("log_file_prefix", .text), ("programs_directory", .text)]

/-- Each of the eight settings has a value of its kind. -/
def WellKinded (value : String → Option Json) : Prop :=
  ∀ e ∈ schema, ∃ j, value e.1 = some j ∧ e.2.admits j = true

structure WithinRanges (value : String → Option Json) : Prop where
  symbolType : ∀ name, value "symbol_type" = some (.str name) → name ∈ SymbolKind.names
  windowRadius : ∀ n, value "window_radius" = some (.int n) → 0 ≤ n
  maxSteps : ∀ n, value "max_steps" = some (.int n) → 0 < n
  logFrequency : ∀ n, value "log_frequency" = some (.int n) → 0 < n

/-- The value that members of an object have for a setting, or else the default one. -/
def valueOver (members : List (String × Json)) (name : String) : Option Json :=
  (members.lookup name).or (standard.members.lookup name)

theorem isSome_valueOver (members : List (String × Json)) :
    ∀ e ∈ schema, (valueOver members e.1).isSome = true := by
  intro e he
  have hstandard : (standard.members.lookup e.1).isSome = true := by
    revert e
    decide
  rw [valueOver, Option.isSome_or, hstandard, Bool.or_true]

/-! ### The values of a configuration -/

variable {c : Config} {value : String → Option Json}

theorem wellKinded_of_members (h : ∀ m ∈ c.members, value m.1 = some m.2) : WellKinded value := by
  simp only [members, List.forall_mem_cons] at h
  obtain ⟨h₁, h₂, h₃, h₄, h₅, h₆, h₇, h₈, _⟩ := h
  simp only [WellKinded, schema, List.forall_mem_cons]
  exact ⟨⟨_, h₁, rfl⟩, ⟨_, h₂, rfl⟩, ⟨_, h₃, rfl⟩, ⟨_, h₄, rfl⟩, ⟨_, h₅, rfl⟩, ⟨_, h₆, rfl⟩,
    ⟨_, h₇, rfl⟩, ⟨_, h₈, rfl⟩, List.forall_mem_nil _⟩

theorem withinRanges_iff (h : ∀ m ∈ c.members, value m.1 = some m.2) :
    WithinRanges value ↔ Settings.checkRanges c = .ok () := by
  simp only [members, List.forall_mem_cons] at h
  obtain ⟨h₁, h₂, h₃, h₄, _⟩ := h
  rw [Settings.checkRanges_eq_ok_iff]
  constructor
  · intro hr
    exact ⟨hr.symbolType _ h₂, hr.windowRadius _ h₃, hr.maxSteps _ h₁, hr.logFrequency _ h₄⟩
  · rintro ⟨hname, hradius, hsteps, hperiod⟩
    refine ⟨fun name hn => ?_, fun n hn => ?_, fun n hn => ?_, fun n hn => ?_⟩
    · cases h₂.symm.trans hn
      exact hname
    · cases h₃.symm.trans hn
      exact hradius
    · cases h₁.symm.trans hn
      exact hsteps
    · cases h₄.symm.trans hn
      exact hperiod

end Config

/-! ### The three ends of a check -/

namespace SettingFault

def TellsKind (value : String → Option Json) (fault : SettingFault) : Prop :=
  ∃ name kind j, (name, kind) ∈ Config.schema ∧ value name = some j ∧ kind.admits j = false ∧
    fault = .kind name kind j

def isRange : SettingFault → Bool
  | .symbolType _ | .radius | .limits => true
  | _ => false

theorem TellsKind.isRange_eq_false {value : String → Option Json} {fault : SettingFault}
    (h : fault.TellsKind value) : fault.isRange = false := by
  obtain ⟨_, _, _, _, _, _, rfl⟩ := h
  rfl

end SettingFault

namespace Settings

open Config

variable {s : Settings} {fault : SettingFault} {name : String} {members : List (String × Json)}

theorem not_wellKinded_of_tellsKind {value : String → Option Json} (h : fault.TellsKind value) :
    ¬ WellKinded value := by
  obtain ⟨name, kind, j, hmem, hj, hkind, _⟩ := h
  intro hw
  obtain ⟨j', hj', hkind'⟩ := hw _ hmem
  cases hj.symm.trans hj'
  exact Bool.false_ne_true (hkind.symm.trans hkind')

def setting (s : Settings) (kind : SettingKind) (name : String) : Except SettingFault Json :=
  match s.get? name with
  | none => .error (.missing name)
  | some j => if kind.admits j then .ok j else .error (.kind name kind j)

theorem map_number (s : Settings) (name : String) :
    (s.number name).map .int = s.setting .number name := by
  rw [number, setting]
  cases s.get? name with
  | none => rfl
  | some j => cases j <;> rfl

theorem map_text (s : Settings) (name : String) :
    (s.text name).map .str = s.setting .text name := by
  rw [text, setting]
  cases s.get? name with
  | none => rfl
  | some j => cases j <;> rfl

theorem map_truth (s : Settings) (name : String) :
    (s.truth name).map .bool = s.setting .truth name := by
  rw [truth, setting]
  cases s.get? name with
  | none => rfl
  | some j => cases j <;> rfl

theorem tellsKind_of_setting {kind : SettingKind} (hm : (name, kind) ∈ schema)
    (hs : (s.get? name).isSome = true) (h : s.setting kind name = .error fault) :
    fault.TellsKind s.get? := by
  obtain ⟨j, hj⟩ := Option.isSome_iff_exists.1 hs
  rw [setting, hj] at h
  dsimp only at h
  split at h
  · cases h
  · next hk => exact ⟨name, kind, j, hm, hj, Bool.eq_false_iff.2 hk, (Except.error.inj h).symm⟩

/-- **Settings that are not read**, though each is there, have a value that is not of its kind. -/
theorem tellsKind_of_readConfig (hs : ∀ e ∈ schema, (s.get? e.1).isSome = true)
    (h : s.readConfig = .error fault) : fault.TellsKind s.get? := by
  have hnumber (name : String) (hm : (name, .number) ∈ schema)
      (h : s.number name = .error fault) : fault.TellsKind s.get? :=
    tellsKind_of_setting hm (hs _ hm) (by rw [← map_number, h]; rfl)
  have htext (name : String) (hm : (name, .text) ∈ schema)
      (h : s.text name = .error fault) : fault.TellsKind s.get? :=
    tellsKind_of_setting hm (hs _ hm) (by rw [← map_text, h]; rfl)
  have htruth (name : String) (hm : (name, .truth) ∈ schema)
      (h : s.truth name = .error fault) : fault.TellsKind s.get? :=
    tellsKind_of_setting hm (hs _ hm) (by rw [← map_truth, h]; rfl)
  rw [readConfig] at h
  -- the settings are asked for one after the other, in the order of the schema
  rcases bind_eq_error_iff.1 h with h | ⟨_, _, h⟩
  · exact hnumber _ (by decide) h
  rcases bind_eq_error_iff.1 h with h | ⟨_, _, h⟩
  · exact htext _ (by decide) h
  rcases bind_eq_error_iff.1 h with h | ⟨_, _, h⟩
  · exact hnumber _ (by decide) h
  rcases bind_eq_error_iff.1 h with h | ⟨_, _, h⟩
  · exact hnumber _ (by decide) h
  rcases bind_eq_error_iff.1 h with h | ⟨_, _, h⟩
  · exact htruth _ (by decide) h
  rcases bind_eq_error_iff.1 h with h | ⟨_, _, h⟩
  · exact htext _ (by decide) h
  rcases bind_eq_error_iff.1 h with h | ⟨_, _, h⟩
  · exact htext _ (by decide) h
  rcases bind_eq_error_iff.1 h with h | ⟨_, _, h⟩
  · exact htext _ (by decide) h
  · cases h

theorem isRange_of_checkRanges {c : Config} (h : checkRanges c = .error fault) :
    fault.isRange = true := by
  rw [checkRanges] at h
  repeat' split at h
  all_goals cases h <;> rfl

/-- **The three ends of a check.**  Settings make a configuration, or one of them is not of its
kind, or all of them are and one is out of its range. -/
theorem validate_cases (hs : ∀ e ∈ schema, (s.get? e.1).isSome = true) :
    (∃ c, s.validate = .ok c ∧ WellKinded s.get? ∧ WithinRanges s.get?) ∨
      (∃ fault, s.validate = .error fault ∧ fault.TellsKind s.get?) ∨
      ∃ fault, s.validate = .error fault ∧ fault.isRange = true ∧ WellKinded s.get? ∧
        ¬ WithinRanges s.get? := by
  cases h : s.validate with
  | ok c =>
    have hc := get?_of_validate h
    exact Or.inl ⟨c, rfl, wellKinded_of_members hc,
      (withinRanges_iff hc).2 (checkRanges_of_validate h)⟩
  | error fault =>
    refine Or.inr ?_
    rw [validate] at h
    rcases bind_eq_error_iff.1 h with hread | ⟨c, hread, h⟩
    · exact Or.inl ⟨fault, rfl, tellsKind_of_readConfig hs hread⟩
    rcases bind_eq_error_iff.1 h with hcheck | ⟨_, _, h⟩
    · have hc := get?_of_readConfig hread
      refine Or.inr ⟨fault, rfl, isRange_of_checkRanges hcheck, wellKinded_of_members hc, ?_⟩
      intro hr
      cases hcheck.symm.trans ((withinRanges_iff hc).1 hr)
    · cases h

theorem get?_putAll_standard (hn : (members.map Prod.fst).Nodup) :
    (Config.standard.toSettings.putAll members).get? = valueOver members := by
  funext name
  rw [putAll_standard, get?_ofMembers, Pairs.lookup_foldl_put hn, valueOver]

end Settings

/-! ### Files of settings -/

namespace Setup

variable {d : Desk} {path text : String} {members : List (String × Json)}

theorem perform_load_of_fault {fault : Fault} (he : d.disk.exists? path = true)
    (hs : d.disk.source path = .ok text) (hf : ofText d.nesting text = .error fault) (verbose : Bool) :
    d.perform (load path verbose) = (.error fault, d) := by
  have hget : d.perform get = (.ok d, d) := rfl
  have hread : d.perform (Job.readText path) = (.ok text, d) := by
    rw [Desk.perform_readText_eq, hs]
  rw [load, Desk.perform_bind_of_ok hget]
  simp only [he, if_true]
  rw [Desk.perform_bind_of_ok hget, Desk.perform_bind_of_ok hread, hf]
  rfl

theorem ofText_of_read {nesting : Nat} (h : Json.readWithin nesting text = .ok (.obj members)) :
    ofText nesting text = match (standard.settings.putAll members).validate with
      | .ok c => .ok ⟨standard.settings.putAll members, c⟩
      | .error fault => .error (.setting fault) := by
  rw [ofText, h]
  show ((standard.settings.putAll members).validate.mapError Fault.setting >>= fun config =>
    pure (⟨standard.settings.putAll members, config⟩ : Setup)) = _
  cases (standard.settings.putAll members).validate with
  | error fault => rfl
  | ok c => rfl

end Setup

/-! ### What may be done with a configuration -/

section Use

variable {spec : KindSpec} {read : SymbolReader}

theorem inSource_ne_kind {α : Type} (x : Except SourceFault α) (fault : KindFault) :
    inSource x ≠ .error (.kind fault) := by
  cases x <;> nofun

theorem machineOfSource_ne_kind (h : spec.resolve = .ok read) (source : String)
    (fault : KindFault) : spec.machineOfSource source ≠ .error (.kind fault) := by
  intro he
  rcases bind_eq_error_iff.1 he with he | ⟨tokens, _, he⟩
  · exact inSource_ne_kind _ fault he
  · rw [KindSpec.machineOfTokens_of_resolve h] at he
    exact inSource_ne_kind _ fault he

theorem tapeOfText_ne_kind (h : spec.resolve = .ok read) (text : String) (fault : KindFault) :
    spec.tapeOfText text ≠ .error (.kind fault) := by
  rw [KindSpec.tapeOfText_of_resolve h]
  exact inSource_ne_kind _ fault

end Use

/-- **A configuration can be used.**  Its kind of symbols is never the reason why a program or a
tape cannot be read, its period breaks no run, and its windows have a cell in each column. -/
theorem usable_of_validate {s : Settings} {c : Config} (h : s.validate = .ok c) :
    (∀ source fault, c.kindSpec.machineOfSource source ≠ .error (.kind fault)) ∧
      (∀ source fault, c.kindSpec.tapeOfText source ≠ .error (.kind fault)) ∧
      (∀ (d : Desk) (m : Machine) (limit : Int) (name : String), ∃ events,
        d.perform (Job.runMachine m limit c.logFrequency name true) =
          (.ok (m.run limit), { d with events })) ∧
      ∀ t : Tape, ∃ row, (t.windowGrid c.windowRadius).rows = [row] ∧
        row.length = (t.windowGrid c.windowRadius).columns.length := by
  obtain ⟨kind, hkind⟩ := Session.exists_kind_of_validate h
  obtain ⟨_, hradius, _, hperiod⟩ :=
    Settings.checkRanges_eq_ok_iff.1 (Settings.checkRanges_of_validate h)
  refine ⟨machineOfSource_ne_kind hkind, tapeOfText_ne_kind hkind, ?_,
    fun t => ⟨_, t.rows_windowGrid hradius, ?_⟩⟩
  · intro d m limit name
    exact ⟨_, Job.perform_runMachine_of_ne d m limit (Int.ne_of_gt hperiod) name true⟩
  · rw [List.length_map, Tape.windowGrid, List.length_map]

/-! ### What is accepted -/

section Load

variable {d : Desk} {path text : String} {members : List (String × Json)}

/-- **The three ends of loading** an object whose folder for logs can be made. -/
theorem Setup.perform_load_cases (hsource : d.disk.source path = .ok text)
    (hread : Json.readWithin d.nesting text = .ok (.obj members))
    (hmake : ∀ directory, Config.valueOver members "output_directory" = some (.str directory) →
      ∃ disk, d.disk.makeFolders directory = (disk, .ok ())) (verbose : Bool) :
    let value := Config.valueOver members
    let settings := standard.settings.putAll members
    (∃ c d', d.perform (load path verbose) = (.ok ⟨settings, c⟩, d') ∧ settings.validate = .ok c ∧
      Config.WellKinded value ∧ Config.WithinRanges value) ∨
    (∃ fault, d.perform (load path verbose) = (.error (.setting fault), d) ∧
      fault.TellsKind value) ∨
    ∃ fault, d.perform (load path verbose) = (.error (.setting fault), d) ∧
      fault.isRange = true ∧ Config.WellKinded value ∧ ¬ Config.WithinRanges value := by
  intro value settings
  obtain ⟨bytes, hbytes⟩ := Disk.exists_read_of_source hsource
  have hexists := Disk.exists_of_read hbytes
  have hvalue : settings.get? = value :=
    Settings.get?_putAll_standard (Json.fits_of_readLimited hread).nodup
  have htext := Setup.ofText_of_read hread
  have hfault {fault : SettingFault} (hv : settings.validate = .error fault) :
      d.perform (load path verbose) = (.error (.setting fault), d) :=
    perform_load_of_fault hexists hsource (htext.trans (by rw [hv])) verbose
  have hsome : ∀ e ∈ Config.schema, (settings.get? e.1).isSome = true := by
    rw [hvalue]
    exact Config.isSome_valueOver members
  have hcases := Settings.validate_cases hsome
  rw [hvalue] at hcases
  rcases hcases with ⟨c, hv, hkinds, hranges⟩ | ⟨fault, hv, htells⟩ | ⟨fault, hv, hr, hkinds, hn⟩
  · have hdirectory : value "output_directory" = some (.str c.outputDirectory) := by
      rw [← hvalue]
      exact Settings.get?_of_validate hv ("output_directory", _) (by simp [Config.members])
    obtain ⟨disk, hmade⟩ := hmake _ hdirectory
    exact Or.inl ⟨c, _, perform_load_of_source verbose hexists hsource
      (htext.trans (by rw [hv])) hmade, hv, hkinds, hranges⟩
  · exact Or.inr (Or.inl ⟨fault, hfault hv, htells⟩)
  · exact Or.inr (Or.inr ⟨fault, hfault hv, hr, hkinds, hn⟩)

/-- **An accepted configuration can be used.**  A file that holds an object, and whose folder for
logs can be made, is loaded if and only if the values laid over the default ones are of their kinds
and within their ranges.  If not, the fault names a setting that is not of its kind, or if there is
none it is about a range, and nothing is changed.  What is loaded has these values, its kind of
symbols is never the reason why a program or a tape cannot be read, its period breaks no run of any
machine to any limit, and its windows show a cell in each column. -/
theorem load_iff_accepted (hsource : d.disk.source path = .ok text)
    (hread : Json.readWithin d.nesting text = .ok (.obj members))
    (hmake : ∀ directory, Config.valueOver members "output_directory" = some (.str directory) →
      ∃ disk, d.disk.makeFolders directory = (disk, .ok ())) (verbose : Bool) :
    let value := Config.valueOver members
    ((∃ setup d', d.perform (Setup.load path verbose) = (.ok setup, d')) ↔
      Config.WellKinded value ∧ Config.WithinRanges value) ∧
    ((∃ fault, d.perform (Setup.load path verbose) = (.error (.setting fault), d) ∧
      fault.TellsKind value) ↔ ¬ Config.WellKinded value) ∧
    ((∃ fault, d.perform (Setup.load path verbose) = (.error (.setting fault), d) ∧
      fault.isRange = true) ↔ Config.WellKinded value ∧ ¬ Config.WithinRanges value) ∧
    ∀ setup d', d.perform (Setup.load path verbose) = (.ok setup, d') →
      let c := setup.config
      (∀ name, setup.settings.get? name = value name) ∧
      (∀ m ∈ c.members, value m.1 = some m.2) ∧
      (∀ source fault, c.kindSpec.machineOfSource source ≠ .error (.kind fault)) ∧
      (∀ source fault, c.kindSpec.tapeOfText source ≠ .error (.kind fault)) ∧
      (∀ (desk : Desk) (m : Machine) (limit : Int) (name : String), ∃ events,
        desk.perform (Job.runMachine m limit c.logFrequency name true) =
          (.ok (m.run limit), { desk with events })) ∧
      ∀ t : Tape, ∃ row, (t.windowGrid c.windowRadius).rows = [row] ∧
        row.length = (t.windowGrid c.windowRadius).columns.length := by
  intro value
  have hvalue : (Setup.standard.settings.putAll members).get? = value :=
    Settings.get?_putAll_standard (Json.fits_of_readLimited hread).nodup
  rcases Setup.perform_load_cases hsource hread hmake verbose with
    ⟨c, d', hload, hv, hkinds, hranges⟩ | ⟨fault, hload, htells⟩ | ⟨fault, hload, hr, hkinds, hn⟩
  · rw [hload]
    refine ⟨iff_of_true ⟨_, _, rfl⟩ ⟨hkinds, hranges⟩, ?_, ?_, ?_⟩
    · exact iff_of_false nofun fun hn => hn hkinds
    · exact iff_of_false nofun fun hn => hn.2 hranges
    · rintro setup d'' h
      cases h
      refine ⟨fun name => congrFun hvalue name, ?_, usable_of_validate hv⟩
      rw [← hvalue]
      exact Settings.get?_of_validate hv
  · have hnot := Settings.not_wellKinded_of_tellsKind htells
    rw [hload]
    refine ⟨iff_of_false nofun fun h => hnot h.1, iff_of_true ⟨fault, rfl, htells⟩ hnot, ?_, nofun⟩
    refine iff_of_false ?_ fun h => hnot h.1
    rintro ⟨fault', h, hr⟩
    cases h
    exact Bool.false_ne_true (htells.isRange_eq_false.symm.trans hr)
  · rw [hload]
    refine ⟨iff_of_false nofun fun h => hn h.2, iff_of_false ?_ fun h => h hkinds,
      iff_of_true ⟨fault, rfl, hr⟩ ⟨hkinds, hn⟩, nofun⟩
    rintro ⟨fault', h, htells⟩
    cases h
    exact Settings.not_wellKinded_of_tellsKind htells hkinds

/-- A step limit over the default one, and a truth value in its place. -/
theorem load_iff_accepted_limit :
    let desk := fun members : List (String × Json) =>
      Session.deskWith (Json.obj members).renderIndented []
    (∃ setup d', (desk [("max_steps", .int 5)]).perform (Setup.load Setup.standardPath true) =
        (.ok setup, d') ∧
      setup.settings.get? "max_steps" = some (.int 5) ∧
      setup.settings.get? "symbol_type" = some (.str "bool")) ∧
    ∃ fault : SettingFault,
      (desk [("max_steps", .bool true)]).perform (Setup.load Setup.standardPath true) =
        (.error (.setting fault), desk [("max_steps", .bool true)]) ∧
      fault.TellsKind (Config.valueOver [("max_steps", .bool true)]) := by
  intro desk
  have hwhole {j : Json} (hw : j.Whole) : (Json.obj [("max_steps", j)]).Whole :=
    .obj (List.forall_mem_singleton.2 hw)
  have hread {j : Json} (hw : j.Whole) (hf : j.Fits Text.numeralLimit 985) :
      Json.readWithin (desk [("max_steps", j)]).nesting
        (Json.obj [("max_steps", j)]).renderIndented = .ok (.obj [("max_steps", j)]) :=
    Json.readWithin_renderIndented (.obj (by simp) (List.forall_mem_singleton.2 hf)) (hwhole hw)
  have hsource {j : Json} (hw : j.Whole) := Session.source_deskWith (hwhole hw) []
  have hmake {j : Json} (directory : String)
      (hd : Config.valueOver [("max_steps", j)] "output_directory" = some (.str directory)) :
      ∃ disk, (desk [("max_steps", j)]).disk.makeFolders directory = (disk, .ok ()) := by
    cases hd
    exact ⟨_, Disk.makeFolders_of_isFolder (Session.isFolder_deskWith _ [])⟩
  constructor
  · obtain ⟨hok, _, _, huse⟩ := load_iff_accepted (hsource (.int 5))
      (hread (.int 5) (.int (by decide))) hmake true
    have hkinds : Config.WellKinded (Config.valueOver [("max_steps", .int 5)]) := by
      simp only [Config.WellKinded, Config.schema, List.forall_mem_cons]
      exact ⟨⟨_, rfl, rfl⟩, ⟨_, rfl, rfl⟩, ⟨_, rfl, rfl⟩, ⟨_, rfl, rfl⟩, ⟨_, rfl, rfl⟩,
        ⟨_, rfl, rfl⟩, ⟨_, rfl, rfl⟩, ⟨_, rfl, rfl⟩, List.forall_mem_nil _⟩
    have hranges : Config.WithinRanges (Config.valueOver [("max_steps", .int 5)]) := by
      constructor <;> rintro _ ⟨⟩ <;> decide
    obtain ⟨setup, d', hload⟩ := hok.2 ⟨hkinds, hranges⟩
    obtain ⟨hget, _⟩ := huse setup d' hload
    exact ⟨setup, d', hload, hget _, hget _⟩
  · obtain ⟨_, hkind, _⟩ := load_iff_accepted (hsource (.bool true))
      (hread (.bool true) (.bool true)) hmake true
    have hnot : ¬ Config.WellKinded (Config.valueOver [("max_steps", .bool true)]) := by
      intro h
      obtain ⟨j, hj, hk⟩ := h ("max_steps", .number) (by simp [Config.schema])
      cases hj
      cases hk
    exact hkind.2 hnot

end Load

end TapeMachine

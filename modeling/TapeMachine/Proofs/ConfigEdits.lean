import TapeMachine.Proofs.KeptSetups
import TapeMachine.Proofs.LoadedSettings
import TapeMachine.Proofs.MadeFolders

/-!
# Edits of the configuration

To edit the configuration is to ask for the settings that can be edited, one after the other, and to
save the settings with the replies in their places.  Settings that make no configuration are not
saved, and the file is loaded as it was.  Settings that make one are saved, and what their text
gives is in force: they themselves, as long as their names are texts.

* `Json.IsReply`: what the reader may reply.
* `Job.gives_askAll`, `of_perform_askAll`: questions one after the other.
* `Session.edited`, `get?_edited`, `exists_edited_members`: the settings with the replies in them.
* `Session.perform_editConfig_of_fault`, `perform_editConfig_of_valid`: the two ends of an edit.
-/

namespace TapeMachine

open Setup (standardPath)

/-! ### Replies -/

/-- A value that the reader may reply: null, a truth value, an integer that is not too long, or a
text. -/
inductive Json.IsReply : Json → Prop
  | null : IsReply .null
  | bool (b : Bool) : IsReply (.bool b)
  | int {n : Int} (digits : (Nat.toDigits 10 n.natAbs).length ≤ Text.numeralLimit) :
      IsReply (.int n)
  | str (s : String) : IsReply (.str s)

theorem Json.IsReply.whole {j : Json} (h : j.IsReply) : j.Whole := by
  cases h with
  | null => exact .null
  | bool b => exact .bool b
  | int digits => exact .int _
  | str s => exact .str s

theorem Json.IsReply.fits {j : Json} (h : j.IsReply) (room : Nat) :
    j.Fits Text.numeralLimit room := by
  cases h with
  | null => exact .null
  | bool b => exact .bool b
  | int digits => exact .int digits
  | str s => exact .str s

/-! ### Questions one after the other -/

namespace Job

variable {d d' : Desk} {replies rest : List Json} {asked : List (String × Question)}

def askAll (asked : List (String × Question)) : Job (List (String × Json)) :=
  asked.mapM fun e => return (e.1, ← ask e.2)

def answeredAll (asked : List (String × Question)) (replies : List Json) :
    List (String × Json) :=
  asked.zipWith (fun e reply => (e.1, answered e.2.preset reply)) replies

theorem gives_askAll (ha : d.answers = replies ++ rest) (hl : replies.length = asked.length) :
    d.Gives (askAll asked) (answeredAll asked replies) { d with answers := rest } := by
  induction asked generalizing d replies with
  | nil =>
    obtain rfl := List.length_eq_zero_iff.1 hl
    cases ha
    exact .pure d []
  | cons e asked ih =>
    cases replies with
    | nil => cases hl
    | cons reply replies =>
      rw [askAll, List.mapM_cons]
      refine .bind (.bind (gives_ask ha e.2) (.pure _ _)) (.bind (ih rfl ?_) (.pure _ _))
      exact Nat.succ.inj hl

theorem map_fst_answeredAll (hl : replies.length = asked.length) :
    (answeredAll asked replies).map Prod.fst = asked.map Prod.fst := by
  induction asked generalizing replies with
  | nil => rfl
  | cons e asked ih =>
    cases replies with
    | nil => cases hl
    | cons reply replies =>
      rw [answeredAll, List.zipWith_cons_cons, List.map_cons, ← answeredAll,
        ih (Nat.succ.inj hl), List.map_cons]

theorem isReply_answered {preset reply : Json} (hp : preset.IsReply) (hr : reply.IsReply) :
    (answered preset reply).IsReply := by
  cases hr with
  | null => exact hp
  | bool b => exact .bool b
  | int digits => exact .int digits
  | str s => exact .str s

theorem isReply_of_mem_answeredAll (hp : ∀ e ∈ asked, e.2.preset.IsReply)
    (hr : ∀ reply ∈ replies, reply.IsReply) :
    ∀ m ∈ answeredAll asked replies, m.2.IsReply := by
  induction asked generalizing replies with
  | nil => exact List.forall_mem_nil _
  | cons e asked ih =>
    rw [List.forall_mem_cons] at hp
    cases replies with
    | nil => exact List.forall_mem_nil _
    | cons reply replies =>
      rw [List.forall_mem_cons] at hr
      exact List.forall_mem_cons.2 ⟨isReply_answered hp.1 hr.1, ih hp.2 hr.2⟩

theorem of_perform_askAll {answers : List (String × Json)}
    (h : d.perform (askAll asked) = (.ok answers, d')) :
    ∃ replies rest, d.answers = replies ++ rest ∧ replies.length = asked.length := by
  induction asked generalizing d d' answers with
  | nil => exact ⟨[], d.answers, rfl, rfl⟩
  | cons e asked ih =>
    rw [askAll, List.mapM_cons] at h
    obtain ⟨_, d₁, hask, h⟩ := Desk.of_perform_bind h
    obtain ⟨_, d₂, hrest, _⟩ := Desk.of_perform_bind h
    obtain ⟨replies, rest, ha, hl⟩ := ih hrest
    obtain ⟨_, d₃, hask, hpure⟩ := Desk.of_perform_bind hask
    cases hpure
    cases hd : d.answers with
    | nil =>
      rw [perform_ask_of_nil hd] at hask
      cases hask
    | cons reply left =>
      rw [perform_ask_of_cons hd] at hask
      cases hask
      refine ⟨reply :: replies, rest, ?_, by rw [List.length_cons, hl, List.length_cons]⟩
      rw [List.cons_append, ← ha]

end Job

theorem Disk.exists_read_of_source {d : Disk} {path text : String} (h : d.source path = .ok text) :
    ∃ bytes, d.read path = .ok bytes := by
  rw [source] at h
  cases hr : d.read path with
  | error fault =>
    rw [hr] at h
    cases h
  | ok bytes => exact ⟨bytes, rfl⟩

namespace Session

variable {s s' : Session} {d d' : Desk} {replies rest : List Json} {p : Place}
  {old : List UInt8} {text : String} {c : Config} {settings : Settings} {setup : Setup}

/-- What replies put in place of the settings that can be edited. -/
def replacements (s : Session) (replies : List Json) : List (String × Json) :=
  Job.answeredAll (editable s.config) replies

/-- The settings with the edited ones replaced. -/
def edited (s : Session) (replies : List Json) : Settings :=
  s.setup.settings.putAll (s.replacements replies)

/-! ### Edited settings -/

section Edited

variable {members : List (String × Json)}

theorem map_fst_replacements (hl : replies.length = (editable s.config).length) :
    (s.replacements replies).map Prod.fst =
      ["max_steps", "symbol_type", "window_radius", "log_frequency", "trim_blanks"] :=
  Job.map_fst_answeredAll hl

theorem edited_of_members (h : s.setup.settings = .ofMembers members) (replies : List Json) :
    s.edited replies = .ofMembers
      ((s.replacements replies).foldl (fun acc m => Pairs.put m.1 m.2 acc) members) := by
  rw [edited, h, Settings.putAll_ofMembers]

/-- **The value of a name** is what was replied, or what it was. -/
theorem get?_edited (h : s.setup.settings = .ofMembers members)
    (hl : replies.length = (editable s.config).length) (name : String) :
    (s.edited replies).get? name =
      ((s.replacements replies).lookup name).or (s.setup.settings.get? name) := by
  have hn : ((s.replacements replies).map Prod.fst).Nodup := by
    rw [map_fst_replacements hl]
    decide
  rw [edited_of_members h, h, Settings.get?_ofMembers, Settings.get?_ofMembers,
    Pairs.lookup_foldl_put hn]

theorem isReply_preset {nesting : Nat} (h : s.setup.settings = .ofMembers members)
    (hf : (Json.obj members).Fits Text.numeralLimit nesting)
    (hc : s.setup.settings.validate = .ok s.config) :
    ∀ e ∈ editable s.config, e.2.preset.IsReply := by
  have hint (name : String) {n : Int} (hm : (name, Json.int n) ∈ s.config.members) :
      (Json.int n).IsReply := by
    have hget := Settings.get?_of_validate hc _ hm
    rw [h, Settings.get?_ofMembers, Pairs.lookup_eq_some_iff_mem hf.nodup] at hget
    have hfits := hf.of_mem_members hget
    generalize nesting - 1 = room at hfits
    cases hfits with
    | int digits => exact .int digits
  simp only [editable, List.forall_mem_cons]
  exact ⟨hint "max_steps" (by simp [Config.members]), .str _,
    hint "window_radius" (by simp [Config.members]),
    hint "log_frequency" (by simp [Config.members]), .bool _, List.forall_mem_nil _⟩

/-- **Edited settings** keep their names, and their text can be read if that of the settings
before could. -/
theorem exists_edited_members {nesting : Nat} (hn : 0 < nesting)
    (h : s.setup.settings = .ofMembers members)
    (htext : Setup.ofText nesting text = .ok s.setup) (hw : (Json.obj members).Whole)
    (hl : replies.length = (editable s.config).length)
    (hr : ∀ reply ∈ replies, reply.IsReply) :
    ∃ members', s.edited replies = .ofMembers members' ∧
      members'.map Prod.fst = members.map Prod.fst ∧ (Json.obj members').Whole ∧
      ∀ c, (s.edited replies).validate = .ok c →
        Setup.ofText nesting (Json.obj members').renderIndented = .ok ⟨s.edited replies, c⟩ := by
  obtain ⟨room, rfl⟩ := Nat.exists_eq_add_of_lt hn
  rw [Nat.zero_add] at htext ⊢
  obtain ⟨_, _, _, hc⟩ := Setup.ofText_eq_ok_iff.1 htext
  have hlaid := Setup.laid_of_ofText htext
  rw [h] at hlaid
  obtain ⟨⟨rest, hnames⟩, hf⟩ := hlaid.of_members
  have hreplies := Job.isReply_of_mem_answeredAll (isReply_preset h hf hc) hr
  have hknown : ∀ m ∈ s.replacements replies, m.1 ∈ members.map Prod.fst := by
    intro m hm
    have hname := List.mem_map_of_mem (f := Prod.fst) hm
    rw [map_fst_replacements hl] at hname
    have hstandard : ∀ name ∈ ["max_steps", "symbol_type", "window_radius", "log_frequency",
      "trim_blanks"], name ∈ Config.standard.members.map Prod.fst := by decide
    rw [hnames]
    exact List.mem_append_left rest (hstandard _ hname)
  have hnames' := Pairs.map_fst_foldl_put hknown
  have hw' : (Json.obj ((s.replacements replies).foldl
      (fun acc m => Pairs.put m.1 m.2 acc) members)).Whole :=
    .obj (Pairs.forall_mem_foldl_put (fun m hm => hw.of_mem_members hm)
      fun m hm => (hreplies m hm).whole)
  have hf' : (Json.obj ((s.replacements replies).foldl
      (fun acc m => Pairs.put m.1 m.2 acc) members)).Fits Text.numeralLimit (room + 1) :=
    .obj (hnames' ▸ hf.nodup) (Pairs.forall_mem_foldl_put (fun m hm => hf.of_mem_members hm)
      fun m hm => (hreplies m hm).fits _)
  refine ⟨_, edited_of_members h replies, hnames', hw', fun c hc' => ?_⟩
  rw [edited_of_members h] at hc' ⊢
  exact Setup.ofText_renderIndented_of_names (hnames'.trans hnames) hf' hw' hc'

end Edited

/-! ### One edit -/

def savedReport : Event :=
  .print (markup "green" "Configuration updated successfully.") true

def faultReport (fault : SettingFault) : Event :=
  .print (markup "red" s!"Configuration not saved: {fault.message}") true

theorem perform_saveEdited_of_fault {fault : SettingFault} (h : settings.validate = .error fault)
    (d : Desk) : d.perform (saveEdited settings) =
      (.ok (), { d with events := d.events.push (faultReport fault) }) := by
  have hsave : d.perform (Job.attempt (Setup.save settings standardPath)) =
      (.ok (.error (.setting fault)), d) := by
    rw [Desk.perform_attempt, Setup.perform_save_of_error h]
  rw [saveEdited, Desk.perform_bind_of_ok hsave]
  rfl

theorem perform_saveEdited_of_target (h : settings.validate = .ok c)
    (ht : d.disk.target standardPath = .ok (p, old)) :
    d.perform (saveEdited settings) = (.ok (), { d with
      disk := d.disk.put p (.file (Text.encodeUtf8 settings.toJson.renderIndented))
      events := d.events.push savedReport }) := by
  have hsave : d.perform (Job.attempt (Setup.save settings standardPath)) =
      (.ok (.ok ()), { d with
        disk := d.disk.put p (.file (Text.encodeUtf8 settings.toJson.renderIndented)) }) := by
    rw [Desk.perform_attempt, Setup.perform_save_of_target h ht]
  rw [saveEdited, Desk.perform_bind_of_ok hsave]
  rfl

theorem perform_loadStandard (hs : d.disk.source standardPath = .ok text)
    (htext : Setup.ofText d.nesting text = .ok setup)
    (hf : d.disk.isFolder setup.config.outputDirectory = true) :
    d.perform Setup.loadStandard = (.ok setup, d) := by
  obtain ⟨bytes, hread⟩ := Disk.exists_read_of_source hs
  refine Setup.perform_loadStandard_eq_ok_iff.2 ?_
  rw [Setup.perform_load_of_source false (Disk.exists_of_read hread) hs htext
    (Disk.makeFolders_of_isFolder hf)]
  rfl

theorem exists_perform_editConfig (ha : d.answers = replies ++ rest)
    (hl : replies.length = (editable s.config).length) :
    ∃ events, d.perform s.editConfig = Desk.perform { d with answers := rest, events } (do
      saveEdited (s.edited replies)
      return { s with setup := ← Setup.loadStandard }) := by
  obtain ⟨events, hprint⟩ := Job.onlyShows_print ("\n" ++ markup "bold" "Edit Configuration") d
  obtain ⟨events', hask⟩ := Job.gives_askAll ha hl events
  refine ⟨events', ?_⟩
  rw [editConfig, Desk.perform_bind_of_ok hprint]
  exact Desk.perform_bind_of_ok hask

theorem exists_of_perform_editConfig (h : d.perform s.editConfig = (.ok s', d')) :
    ∃ replies rest, d.answers = replies ++ rest ∧
      replies.length = (editable s.config).length := by
  obtain ⟨events, hprint⟩ := Job.onlyShows_print ("\n" ++ markup "bold" "Edit Configuration") d
  rw [editConfig, Desk.perform_bind_of_ok hprint] at h
  obtain ⟨_, _, hask, _⟩ := Desk.of_perform_bind h
  exact Job.of_perform_askAll (d := { d with events }) hask

/-- **Settings that make no configuration** are not saved, and the file is loaded again. -/
theorem perform_editConfig_of_fault {fault : SettingFault} (ha : d.answers = replies ++ rest)
    (hl : replies.length = (editable s.config).length)
    (hfault : (s.edited replies).validate = .error fault)
    (hs : d.disk.source standardPath = .ok text)
    (htext : Setup.ofText d.nesting text = .ok s.setup)
    (hf : d.disk.isFolder s.config.outputDirectory = true) :
    ∃ events : Array Event, d.perform s.editConfig = (.ok s, { d with
      answers := rest
      events := events.push (faultReport fault) }) := by
  obtain ⟨events, hedit⟩ := exists_perform_editConfig ha hl
  refine ⟨events, ?_⟩
  have hload := perform_loadStandard (d := { d with
    answers := rest, events := events.push (faultReport fault) }) hs htext hf
  rw [hedit, Desk.perform_bind_of_ok (perform_saveEdited_of_fault hfault _),
    Desk.perform_bind_of_ok hload]
  rfl

/-- **Settings that make a configuration** are saved, and what counts is what their text gives. -/
theorem perform_editConfig_of_valid (ha : d.answers = replies ++ rest)
    (hl : replies.length = (editable s.config).length)
    (hc : (s.edited replies).validate = .ok c) (hw : (s.edited replies).toJson.Whole)
    (ht : d.disk.target standardPath = .ok (p, old))
    (htext : Setup.ofText d.nesting (s.edited replies).toJson.renderIndented = .ok setup)
    (hf : d.disk.isFolder setup.config.outputDirectory = true) :
    ∃ (disk : Disk) (events : Array Event), d.perform s.editConfig = (.ok { s with setup }, { d with
        disk
        answers := rest
        events := events.push savedReport }) ∧
      Disk.Grows (· = p) d.disk disk ∧
      disk.source standardPath = .ok (s.edited replies).toJson.renderIndented := by
  obtain ⟨events, hedit⟩ := exists_perform_editConfig ha hl
  have hgrows := Disk.grows_put_of_target ht
    (Text.encodeUtf8 (s.edited replies).toJson.renderIndented)
  have hsource := Disk.source_of_inLines (Json.inLines_renderAt hw 0)
    (Disk.read_put_of_target ht _)
  refine ⟨_, events, ?_, hgrows, hsource⟩
  have hload := perform_loadStandard (d := { d with
    disk := d.disk.put p (.file (Text.encodeUtf8 (s.edited replies).toJson.renderIndented))
    answers := rest
    events := events.push savedReport }) hsource htext (hgrows.isFolder hf)
  have hsave := perform_saveEdited_of_target (d := { d with answers := rest, events }) hc ht
  rw [hedit, Desk.perform_bind_of_ok hsave, Desk.perform_bind_of_ok hload]
  rfl

end Session

end TapeMachine

import TapeMachine.Proofs.ConfigEdits

/-!
# Sessions in which the configuration is edited

In a session the configuration is in memory and in a file.  Whatever the reader answers, they are
one and the same before and after each turn: an edit either puts the new settings in both, or it
leaves both as they were; and no other command changes one of them.

* `Session.Turns`, `Session.Edits`: turns one after the other; a turn that is an edit.
* `Session.InForce`: the text of the file gives the settings in force.
* `InForce.perform_turn_of_fault`, `InForce.perform_turn_of_valid`: the two ends of an edit.
* `InForce.turn`: one turn keeps it; `Turns.inForce`: any turns do.
* `Session.edits_of_start`: a session from its start.
* `Session.exists_edit_renames`: names that are no texts are not kept.
-/

namespace TapeMachine.Session

open Setup (standardPath)

variable {s s' : Session} {d d' : Desk} {replies rest : List Json} {p : Place}
  {old : List UInt8} {text : String} {c : Config} {setup : Setup}

/-! ### Turns -/

theorem exists_perform_turn {choice : Json} (ha : d.answers = choice :: rest) :
    ∃ events, d.perform s.turn = Desk.perform { d with answers := rest, events } (
      match Command.ofAnswer? (Job.answered Command.question.preset choice) with
      | some command => s.obey command
      | none => return some s) := by
  obtain ⟨events, hmenu⟩ := onlyShows_showMenu d
  have ha' : ({ d with events } : Desk).answers = choice :: rest := ha
  refine ⟨events.push (.ask Command.question), ?_⟩
  rewrite [turn, Desk.perform_bind_of_ok hmenu,
    Desk.perform_bind_of_ok (Job.perform_ask_of_cons ha' Command.question)]
  rfl

theorem exists_of_perform_turn {next : Option Session} (h : d.perform s.turn = (.ok next, d')) :
    ∃ choice rest, d.answers = choice :: rest := by
  cases ha : d.answers with
  | cons choice rest => exact ⟨choice, rest, rfl⟩
  | nil =>
    obtain ⟨events, hmenu⟩ := onlyShows_showMenu d
    have ha' : ({ d with events } : Desk).answers = [] := ha
    rw [turn, Desk.perform_bind_of_ok hmenu,
      Desk.perform_bind_of_error (Job.perform_ask_of_nil ha' Command.question)] at h
    cases h

/-- Turns one after the other, whatever is answered in them. -/
inductive Turns (s₀ : Session) (d₀ : Desk) : Session → Desk → Prop
  | start : Turns s₀ d₀ s₀ d₀
  | turn {s s' : Session} {d d' : Desk} (before : Turns s₀ d₀ s d)
      (turned : d.perform s.turn = (.ok (some s'), d')) : Turns s₀ d₀ s' d'

/-- The next answers are an edit: the choice of it, and a reply for each setting. -/
def Edits (s : Session) (d : Desk) (replies rest : List Json) : Prop :=
  ∃ choice, d.answers = choice :: (replies ++ rest) ∧
    Command.ofAnswer? (Job.answered Command.question.preset choice) = some .editConfig ∧
    replies.length = (editable s.config).length

/-! ### What the file says is in force -/

/-- The text of the file gives the settings in force, whose names are texts; there is the folder for
the logs; and only what may be replied is answered. -/
structure InForce (s : Session) (d : Desk) : Prop where
  source : ∃ text, d.disk.source standardPath = .ok text ∧
    Setup.ofText d.nesting text = .ok s.setup
  folder : d.disk.isFolder s.config.outputDirectory = true
  members : ∃ members, s.setup.settings = .ofMembers members ∧ (Json.obj members).Whole
  replies : ∀ a ∈ d.answers, a.IsReply

theorem exists_target_of_source (hs : d.disk.source standardPath = .ok text) :
    ∃ p old, d.disk.target standardPath = .ok (p, old) ∧
      d.disk.find standardPath = .ok p ∧ ¬ OtherFile p := by
  obtain ⟨bytes, hread⟩ := Disk.exists_read_of_source hs
  have hnames : Path.names standardPath = ["config"] ++ ["runtime_config.json"] := by
    decide +kernel
  obtain ⟨p, hfind, ht⟩ :=
    Disk.target_of_read hread (by decide +kernel) hnames (by decide) (by decide)
  refine ⟨p, bytes, ht, hfind, not_not_intro ?_⟩
  rw [Disk.getLast?_of_target ht, hnames]
  rfl

theorem source_of_grows (h : Disk.Grows OtherFile d.disk d'.disk)
    (hs : d.disk.source standardPath = .ok text) : d'.disk.source standardPath = .ok text := by
  obtain ⟨bytes, hread⟩ := Disk.exists_read_of_source hs
  obtain ⟨p, old, _, hfind, hp⟩ := exists_target_of_source hs
  rw [← hs]
  refine Disk.source_congr (h.read_of_ok hread fun q hq => ?_)
  obtain rfl := Except.ok.inj (hfind.symm.trans hq)
  exact hp

theorem exists_perform_turn_of_edits (h : s.Edits d replies rest) :
    ∃ events, d.perform s.turn =
      Desk.perform { d with answers := replies ++ rest, events } (some <$> s.editConfig) := by
  obtain ⟨choice, ha, hchoice, _⟩ := h
  obtain ⟨events, hturn⟩ := exists_perform_turn (s := s) ha
  rw [hchoice] at hturn
  exact ⟨events, hturn⟩

theorem outputDirectory_of_validate_edited {members : List (String × Json)}
    (h : s.setup.settings = .ofMembers members) (hl : replies.length = (editable s.config).length)
    (hs : s.setup.settings.validate = .ok s.config) (hc : (s.edited replies).validate = .ok c) :
    c.outputDirectory = s.config.outputDirectory := by
  have hmem (c : Config) : ("output_directory", Json.str c.outputDirectory) ∈ c.members := by
    simp [Config.members]
  have hnone : (s.replacements replies).lookup "output_directory" = none := by
    rw [Pairs.lookup_eq_none_iff_notMem, map_fst_replacements hl]
    decide
  have hnew := Settings.get?_of_validate hc _ (hmem c)
  have hold := Settings.get?_of_validate hs _ (hmem s.config)
  rw [get?_edited h hl, hnone, Option.none_or, hold] at hnew
  exact (Json.str.inj (Option.some.inj hnew)).symm

namespace InForce

/-- **An edit** that makes no configuration leaves all as it was. -/
theorem perform_turn_of_fault (h : InForce s d) (he : s.Edits d replies rest)
    {fault : SettingFault} (hfault : (s.edited replies).validate = .error fault) :
    ∃ events : Array Event, d.perform s.turn = (.ok (some s), { d with
      answers := rest
      events := events.push (faultReport fault) }) := by
  obtain ⟨text, hs, htext⟩ := h.source
  obtain ⟨events, hturn⟩ := exists_perform_turn_of_edits he
  obtain ⟨_, _, _, hl⟩ := he
  obtain ⟨events', hedit⟩ := perform_editConfig_of_fault
    (d := { d with answers := replies ++ rest, events }) rfl hl hfault hs htext h.folder
  exact ⟨events', hturn.trans (Desk.perform_map_of_ok hedit some)⟩

theorem isReply_of_edits (h : InForce s d) (he : s.Edits d replies rest) :
    (∀ reply ∈ replies, reply.IsReply) ∧ ∀ a ∈ rest, a.IsReply := by
  obtain ⟨choice, ha, _⟩ := he
  have hall := h.replies
  rw [ha, List.forall_mem_cons, List.forall_mem_append] at hall
  exact hall.2

/-- **An edit** that makes a configuration puts it in the file and in force. -/
theorem perform_turn_of_valid (h : InForce s d) (he : s.Edits d replies rest)
    (hc : (s.edited replies).validate = .ok c) :
    ∃ (disk : Disk) (events : Array Event) (text : String),
      d.perform s.turn = (.ok (some { s with setup := ⟨s.edited replies, c⟩ }), { d with
        disk
        answers := rest
        events := events.push savedReport }) ∧
      disk.source standardPath = .ok text ∧
      Setup.ofText d.nesting text = .ok ⟨s.edited replies, c⟩ ∧
      disk.isFolder c.outputDirectory = true := by
  obtain ⟨text, hs, htext⟩ := h.source
  obtain ⟨members, hmembers, hw⟩ := h.members
  obtain ⟨events, hturn⟩ := exists_perform_turn_of_edits he
  have hr := (h.isReply_of_edits he).1
  obtain ⟨_, _, _, hl⟩ := he
  obtain ⟨members', hedited, _, hw', hsaved⟩ := exists_edited_members d.nesting_pos hmembers htext hw hl hr
  have hjson : (s.edited replies).toJson = .obj members' := by
    rw [hedited, Settings.toJson_ofMembers]
  have hwhole : (s.edited replies).toJson.Whole := by
    rw [hjson]
    exact hw'
  have hgives : Setup.ofText d.nesting (s.edited replies).toJson.renderIndented =
      .ok ⟨s.edited replies, c⟩ := by
    rw [hjson]
    exact hsaved c hc
  obtain ⟨p, old, ht, _⟩ := exists_target_of_source hs
  obtain ⟨_, _, _, hconfig⟩ := Setup.ofText_eq_ok_iff.1 htext
  have hfolder : d.disk.isFolder c.outputDirectory = true := by
    rw [outputDirectory_of_validate_edited hmembers hl hconfig hc]
    exact h.folder
  obtain ⟨disk, events', hedit, hgrows, hsource⟩ := perform_editConfig_of_valid
    (d := { d with answers := replies ++ rest, events }) rfl hl hc hwhole ht hgives hfolder
  exact ⟨disk, events', _, hturn.trans (Desk.perform_map_of_ok hedit some), hsource, hgives,
    hgrows.isFolder hfolder⟩

theorem edit (h : InForce s d) (he : s.Edits d replies rest)
    (hturned : d.perform s.turn = (.ok (some s'), d')) :
    InForce s' d' ∧ d'.answers.length < d.answers.length := by
  obtain ⟨hreplies, hrest⟩ := h.isReply_of_edits he
  obtain ⟨choice, ha, _, hl⟩ := id he
  have hless : rest.length < d.answers.length := by
    rw [ha, List.length_cons, List.length_append]
    omega
  cases hv : (s.edited replies).validate with
  | error fault =>
    obtain ⟨events, hturn⟩ := h.perform_turn_of_fault he hv
    cases hturned.symm.trans hturn
    exact ⟨⟨h.source, h.folder, h.members, hrest⟩, hless⟩
  | ok c =>
    obtain ⟨disk, events, text, hturn, hsource, htext, hfolder⟩ := h.perform_turn_of_valid he hv
    obtain ⟨members, hmembers, hw⟩ := h.members
    obtain ⟨_, _, htext'⟩ := h.source
    obtain ⟨members', hmembers', _, hw', _⟩ :=
      exists_edited_members d.nesting_pos hmembers htext' hw hl hreplies
    cases hturned.symm.trans hturn
    exact ⟨⟨⟨text, hsource, htext⟩, hfolder, ⟨members', hmembers', hw'⟩, hrest⟩, hless⟩

/-- **One turn** that is completed: what the file says is in force again, and an answer was
taken. -/
theorem turn (h : InForce s d) (hturned : d.perform s.turn = (.ok (some s'), d')) :
    InForce s' d' ∧ d'.answers.length < d.answers.length := by
  obtain ⟨choice, left, ha⟩ := exists_of_perform_turn hturned
  obtain ⟨events, hturn⟩ := exists_perform_turn (s := s) ha
  have ht := hturn.symm.trans hturned
  have hleft : ∀ a ∈ left, a.IsReply := fun a hmem =>
    h.replies a (by rw [ha]; exact List.mem_cons_of_mem _ hmem)
  cases hcommand : Command.ofAnswer? (Job.answered Command.question.preset choice) with
  | none =>
    rw [hcommand] at ht
    cases ht
    exact ⟨⟨h.source, h.folder, h.members, hleft⟩, by rw [ha]; exact Nat.lt_succ_self _⟩
  | some command =>
    rw [hcommand] at ht
    dsimp only at ht
    by_cases hedit : command = .editConfig
    · subst hedit
      obtain ⟨_, hperform, _⟩ := Desk.of_perform_map ht
      obtain ⟨replies, rest, hrest, hl⟩ := exists_of_perform_editConfig hperform
      have hleft : left = replies ++ rest := hrest
      exact h.edit ⟨choice, hleft ▸ ha, hcommand, hl⟩ hturned
    · obtain ⟨hgrows, hsuffix, hnesting, htold⟩ := keeps_obey s hedit _ _ _ ht
      obtain ⟨hsetup, hlog⟩ := htold _ rfl s' rfl
      obtain ⟨text, hs, htext⟩ := h.source
      refine ⟨⟨⟨text, source_of_grows hgrows hs, ?_⟩, ?_, ?_, fun a hmem => ?_⟩, ?_⟩
      · rw [hsetup, hnesting, htext]
      · rw [config, hsetup]
        exact hgrows.isFolder h.folder
      · rw [hsetup]
        exact h.members
      · exact hleft a (hsuffix.subset hmem)
      · rw [ha]
        exact Nat.lt_succ_of_le hsuffix.length_le

end InForce

/-! ### A session from its start -/

section Start

variable {d₀ d₁ : Desk} {s₀ : Session} {members : List (String × Json)}

theorem inForce_of_start (hstart : d₀.perform start = (.ok s₀, d₁)) (hrooted : d₀.disk.Rooted)
    (hmembers : s₀.setup.settings = .ofMembers members) (hwhole : (Json.obj members).Whole)
    (hanswers : ∀ a ∈ d₀.answers, a.IsReply) : InForce s₀ d₁ := by
  rw [start] at hstart
  obtain ⟨setup, d₂, hload, hstart⟩ := Desk.of_perform_bind hstart
  obtain ⟨log, d₃, hcreate, hstart⟩ := Desk.of_perform_bind hstart
  cases hstart
  obtain ⟨text, disk, events, hsource, htext, hfirst, rfl⟩ :=
    Setup.of_perform_load (Setup.perform_loadStandard_eq_ok_iff.1 hload)
  rw [RunLog.create] at hcreate
  obtain ⟨_, d₄, hmake, hcreate⟩ := Desk.of_perform_bind hcreate
  cases hcreate
  -- the folder for the logs is made twice, for the setup and for the log
  obtain ⟨disk', hsecond, rfl⟩ := Desk.of_perform_makeFolders hmake
  have hwide := (Disk.widens_of_makeFolders hfirst).trans (Disk.widens_of_makeFolders hsecond)
  obtain ⟨bytes, hread⟩ := Disk.exists_read_of_source hsource
  refine ⟨⟨text, ?_, htext⟩, Disk.isFolder_of_makeFolders hrooted hfirst hsecond,
    ⟨members, hmembers, hwhole⟩, hanswers⟩
  rw [← hsource]
  exact Disk.source_congr ((hwide.read_of_ok hread).trans hread.symm)

/-- **What the file says is in force** after any turns. -/
theorem Turns.inForce (h : InForce s₀ d₀) (hturns : Turns s₀ d₀ s d) : InForce s d := by
  induction hturns with
  | start => exact h
  | turn before turned ih => exact (ih.turn turned).1

theorem Turns.perform_turnsWithin (h : InForce s₀ d₀) (hturns : Turns s₀ d₀ s d) {turns : Nat}
    (hn : d₀.answers.length < turns) :
    ∃ left, d.answers.length < left ∧
      d₀.perform (turnsWithin turns s₀) = d.perform (turnsWithin left s) := by
  induction hturns with
  | start => exact ⟨turns, hn, rfl⟩
  | turn before turned ih =>
    obtain ⟨left, hlt, hleft⟩ := ih
    have hless := ((before.inForce h).turn turned).2
    obtain ⟨left, rfl⟩ : ∃ n, left = n + 1 := ⟨left - 1, by omega⟩
    refine ⟨left, by omega, ?_⟩
    rw [hleft, turnsWithin, Desk.perform_bind_of_ok turned]

/-- **Edits are all or nothing.**  Before and after every turn the file gives the settings in force.
An edit changes the five settings that are asked for and no others.  If these settings make a
configuration, then they are in the file and in force; if not, then the fault is told, and the
session goes on with the disk and the settings that there were. -/
theorem edits_of_start (hstart : d₀.perform start = (.ok s₀, d₁)) (hrooted : d₀.disk.Rooted)
    (hmembers : s₀.setup.settings = .ofMembers members) (hwhole : (Json.obj members).Whole)
    (hanswers : ∀ a ∈ d₀.answers, a.IsReply) (hturns : Turns s₀ d₁ s d) :
    (∃ turns, d.answers.length < turns ∧ d₀.perform run = d.perform (turnsWithin turns s)) ∧
    (∃ text, d.disk.source standardPath = .ok text ∧ Setup.ofText d.nesting text = .ok s.setup) ∧
    ∀ {replies rest : List Json}, s.Edits d replies rest →
      (s.edited replies).entries.map Prod.fst = s.setup.settings.entries.map Prod.fst ∧
      (∀ name, (s.edited replies).get? name =
        ((s.replacements replies).lookup name).or (s.setup.settings.get? name)) ∧
      ∃ s' d', d.perform s.turn = (.ok (some s'), d') ∧ d'.answers = rest ∧
        (∀ c, (s.edited replies).validate = .ok c →
          s' = { s with setup := ⟨s.edited replies, c⟩ } ∧
          d'.events.back? = some savedReport ∧
          ∃ text, d'.disk.source standardPath = .ok text ∧
            Setup.ofText d'.nesting text = .ok ⟨s.edited replies, c⟩) ∧
        ∀ fault, (s.edited replies).validate = .error fault →
          s' = s ∧ d'.events.back? = some (faultReport fault) ∧ d'.disk = d.disk := by
  have hforce₁ := inForce_of_start hstart hrooted hmembers hwhole hanswers
  have hforce := hturns.inForce hforce₁
  refine ⟨?_, hforce.source, fun {replies rest} he => ?_⟩
  · obtain ⟨turns, hlt, hturns⟩ := hturns.perform_turnsWithin hforce₁ (Nat.lt_succ_self _)
    refine ⟨turns, hlt, ?_⟩
    rw [run, Desk.perform_bind_of_ok hstart, ← hturns]
    rfl
  · obtain ⟨members, hmembers, hw⟩ := hforce.members
    obtain ⟨_, _, htext⟩ := hforce.source
    obtain ⟨_, _, _, hl⟩ := id he
    obtain ⟨members', hedited, hnames, _⟩ :=
      exists_edited_members d.nesting_pos hmembers htext hw hl (hforce.isReply_of_edits he).1
    refine ⟨?_, get?_edited hmembers hl, ?_⟩
    · rw [hedited, hmembers, Settings.map_fst_ofMembers, Settings.map_fst_ofMembers, hnames]
    · cases hv : (s.edited replies).validate with
      | error fault =>
        obtain ⟨events, hturn⟩ := hforce.perform_turn_of_fault he hv
        refine ⟨s, _, hturn, rfl, fun c hc => ?_, fun fault' hfault => ?_⟩
        · cases hc
        · obtain rfl := Except.error.inj hfault
          exact ⟨rfl, Array.back?_push, rfl⟩
      | ok c =>
        obtain ⟨disk, events, text, hturn, hsource, htext, _⟩ :=
          hforce.perform_turn_of_valid he hv
        refine ⟨_, _, hturn, rfl, fun c' hc' => ?_, fun fault hfault => ?_⟩
        · obtain rfl := Except.ok.inj hc'
          exact ⟨rfl, Array.back?_push, text, hsource, htext⟩
        · cases hfault

end Start

/-! ### Edits at a desk -/

theorem perform_start (hs : d.disk.source standardPath = .ok text)
    (htext : Setup.ofText d.nesting text = .ok setup)
    (hf : d.disk.isFolder setup.config.outputDirectory = true) :
    d.perform start =
      (.ok ⟨setup, ⟨setup.config.outputDirectory, setup.config.logFileStart, d.clock.date⟩, none⟩,
        d) := by
  have hmake : d.perform (Job.makeFolders setup.config.outputDirectory) = (.ok (), d) := by
    rw [Desk.perform_makeFolders, Disk.makeFolders_of_isFolder hf]
    rfl
  rw [start, Desk.perform_bind_of_ok (perform_loadStandard hs htext hf), RunLog.create,
    bind_assoc, Desk.perform_bind_of_ok hmake]
  rfl

def deskWith (text : String) (answers : List Json) : Desk :=
  { Setup.bareDesk with
    disk := Setup.bareDesk.disk.put ["work", "config", "runtime_config.json"]
      (.file (Text.encodeUtf8 text))
    answers }

theorem rooted_deskWith (text : String) (answers : List Json) :
    (deskWith text answers).disk.Rooted := by
  refine Disk.rooted_of_nodes ?_
  show ∀ m ∈ [(["work"], Node.folder), (["work", "logs"], .folder), (["work", "config"], .folder),
    (["work", "config", "runtime_config.json"], .file (Text.encodeUtf8 text))], _
  simp only [List.forall_mem_cons]
  exact ⟨.inr rfl, .inr rfl, .inr rfl, .inr rfl, List.forall_mem_nil _⟩

theorem isFolder_deskWith (text : String) (answers : List Json) :
    (deskWith text answers).disk.isFolder Config.standard.outputDirectory = true :=
  (Disk.grows_put_of_target Setup.target_bareDesk _).isFolder (by decide +kernel)

theorem source_deskWith {j : Json} (hw : j.Whole) (answers : List Json) :
    (deskWith j.renderIndented answers).disk.source standardPath = .ok j.renderIndented :=
  Disk.source_of_inLines (Json.inLines_renderAt hw 0)
    (Disk.read_put_of_target Setup.target_bareDesk _)

theorem exists_target_deskWith (text : String) (answers : List Json) :
    ∃ p old, (deskWith text answers).disk.target standardPath = .ok (p, old) :=
  ⟨_, _, (Disk.grows_put_of_target Setup.target_bareDesk _).target Setup.target_bareDesk⟩

def notedMembers : List (String × Json) := Config.standard.members ++ [("notes", Setup.notes)]

theorem whole_notedMembers : (Json.obj notedMembers).Whole :=
  Setup.whole_members_append (List.forall_mem_singleton.2 Setup.whole_notes)

/-- A step limit that is out of range, and then one that is not, with other symbols. -/
def twoEdits : List Json :=
  [.str "7", .int 0, .null, .null, .null, .null,
    .str "7", .int 5, .str "int", .null, .null, .bool false, .str "8"]

def notedSession : Session :=
  ⟨⟨.ofMembers notedMembers, Config.standard⟩, ⟨"logs/", "turing_", "2024-02-29"⟩, none⟩

theorem perform_start_noted :
    (deskWith (Json.obj notedMembers).renderIndented twoEdits).perform start =
      (.ok notedSession, deskWith (Json.obj notedMembers).renderIndented twoEdits) := by
  have hfits : (Json.obj notedMembers).Fits Text.numeralLimit Setup.bareDesk.nesting :=
    Setup.fits_members_append (by decide) (List.forall_mem_singleton.2 Setup.fits_notes)
  have hnames : notedMembers.map Prod.fst = Config.standard.members.map Prod.fst ++ ["notes"] := rfl
  have htext := Setup.ofText_renderIndented_of_names hnames hfits whole_notedMembers
    (Setup.validate_members_append _)
  exact perform_start (source_deskWith whole_notedMembers twoEdits) htext
    (isFolder_deskWith _ twoEdits)

/-- The first of two edits is refused, the second one is in force. -/
theorem edits_of_start_noted :
    ∃ d₁ s₂ d₂,
      (deskWith (Json.obj notedMembers).renderIndented twoEdits).perform notedSession.turn =
        (.ok (some notedSession), d₁) ∧
      d₁.disk = (deskWith (Json.obj notedMembers).renderIndented twoEdits).disk ∧
      d₁.events.back? = some (faultReport .limits) ∧
      d₁.perform notedSession.turn = (.ok (some s₂), d₂) ∧ d₂.answers = [.str "8"] ∧
      s₂.config = { Config.standard with maxSteps := 5, symbolType := "int", trimBlanks := false } ∧
      s₂.setup.settings.get? "notes" = some Setup.notes ∧ d₂.events.back? = some savedReport := by
  have hanswers : ∀ a ∈ twoEdits, a.IsReply := by
    simp only [twoEdits, List.forall_mem_cons]
    exact ⟨.str _, .int (by decide), .null, .null, .null, .null, .str _, .int (by decide), .str _,
      .null, .null, .bool _, .str _, List.forall_mem_nil _⟩
  have hedits {s : Session} {d : Desk} (hturns : Turns notedSession
      (deskWith (Json.obj notedMembers).renderIndented twoEdits) s d) :=
    edits_of_start perform_start_noted (rooted_deskWith _ _) rfl whole_notedMembers hanswers hturns
  -- the first edit
  have he₁ : notedSession.Edits (deskWith (Json.obj notedMembers).renderIndented twoEdits)
      [.int 0, .null, .null, .null, .null]
      [.str "7", .int 5, .str "int", .null, .null, .bool false, .str "8"] :=
    ⟨.str "7", rfl, by decide +kernel, rfl⟩
  obtain ⟨_, _, s₁, d₁, hturn₁, ha₁, _, hfault⟩ := (hedits .start).2.2 he₁
  obtain ⟨rfl, hreport₁, hdisk⟩ := hfault .limits rfl
  -- the second edit
  have he₂ : notedSession.Edits d₁ [.int 5, .str "int", .null, .null, .bool false] [.str "8"] :=
    ⟨.str "7", ha₁, by decide +kernel, rfl⟩
  obtain ⟨_, hget, s₂, d₂, hturn₂, ha₂, hvalid, _⟩ := (hedits (.turn .start hturn₁)).2.2 he₂
  obtain ⟨rfl, hreport₂, _⟩ := hvalid _ rfl
  exact ⟨d₁, _, d₂, hturn₁, hdisk, hreport₁, hturn₂, ha₂, rfl, hget "notes", hreport₂⟩

/-! ### Names that are no texts -/

/-- A configuration as a list of one pair, whose name is a number. -/
def numberedPairs : Json := .arr [.arr [.int 1, .str "a"]]

def numberedSession : Session :=
  ⟨⟨Config.standard.toSettings.put (.int 1) (.str "a"), Config.standard⟩,
    ⟨"logs/", "turing_", "2024-02-29"⟩, none⟩

def idleReplies : List Json := [.null, .null, .null, .null, .null]

def idleEdit : List Json := .str "7" :: (idleReplies ++ [.str "8"])

theorem whole_numberedPairs : numberedPairs.Whole := by
  refine .arr (List.forall_mem_singleton.2 (.arr ?_))
  simp only [List.forall_mem_cons]
  exact ⟨.int 1, .str "a", List.forall_mem_nil _⟩

theorem ofText_numberedPairs :
    Setup.ofText Setup.bareDesk.nesting numberedPairs.renderIndented = .ok numberedSession.setup := by
  have hfits : numberedPairs.Fits Text.numeralLimit Setup.bareDesk.nesting := by
    refine .arr (List.forall_mem_singleton.2 (.arr ?_))
    simp only [List.forall_mem_cons]
    exact ⟨.int (by decide), .str "a", List.forall_mem_nil _⟩
  exact Setup.ofText_eq_ok_iff.2
    ⟨_, Json.readWithin_renderIndented hfits whole_numberedPairs, rfl, rfl⟩

theorem perform_start_numbered :
    (deskWith numberedPairs.renderIndented idleEdit).perform start =
      (.ok numberedSession, deskWith numberedPairs.renderIndented idleEdit) :=
  perform_start (source_deskWith whole_numberedPairs idleEdit) ofText_numberedPairs
    (isFolder_deskWith _ idleEdit)

theorem edited_numberedSession : numberedSession.edited idleReplies =
    ⟨Config.standard.toSettings.entries ++ [(.int 1, .str "a")]⟩ := rfl

theorem toJson_edited_numberedSession : (numberedSession.edited idleReplies).toJson =
    .obj (Config.standard.members ++ [("1", .str "a")]) := by
  have hname : (Json.int 1).nameText = "1" := by decide +kernel
  rw [edited_numberedSession, Settings.toJson, List.map_append, List.map_singleton, hname]
  rfl

theorem ofText_edited_numberedSession :
    (numberedSession.edited idleReplies).toJson.Whole ∧
      Setup.ofText Setup.bareDesk.nesting (numberedSession.edited idleReplies).toJson.renderIndented =
        .ok ⟨Setup.standard.settings.putAll (Config.standard.members ++ [("1", .str "a")]),
          Config.standard⟩ := by
  have hw : (Json.obj (Config.standard.members ++ [("1", .str "a")])).Whole :=
    Setup.whole_members_append (List.forall_mem_singleton.2 (.str "a"))
  have hf : (Json.obj (Config.standard.members ++ [("1", .str "a")])).Fits Text.numeralLimit
      Setup.bareDesk.nesting :=
    Setup.fits_members_append (by decide) (List.forall_mem_singleton.2 (.str "a"))
  rw [toJson_edited_numberedSession]
  exact ⟨hw, Setup.ofText_renderIndented hf hw (Setup.validate_members_append _)⟩

/-- **A name that is no text** is a text after an edit that is in force. -/
theorem exists_edit_renames :
    ∃ d₀ s₀ replies rest c s' d',
      Desk.perform d₀ start = (.ok s₀, d₀) ∧ d₀.disk.Rooted ∧
      (∀ e ∈ s₀.setup.settings.entries, e.2.Whole) ∧ (∀ a ∈ d₀.answers, a.IsReply) ∧
      s₀.Edits d₀ replies rest ∧ (s₀.edited replies).validate = .ok c ∧
      d₀.perform s₀.turn = (.ok (some s'), d') ∧
      (s₀.edited replies).get? "1" = none ∧ s'.setup.settings.get? "1" = some (.str "a") := by
  have hanswers : ∀ a ∈ idleEdit, a.IsReply := by
    simp only [idleEdit, idleReplies, List.cons_append, List.nil_append, List.forall_mem_cons]
    exact ⟨.str _, .null, .null, .null, .null, .null, .str _, List.forall_mem_nil _⟩
  have hwhole : ∀ e ∈ numberedSession.setup.settings.entries, e.2.Whole := by
    show ∀ e ∈ ((Config.standard.members.map fun m => (Json.str m.1, m.2)) ++
      [(Json.int 1, Json.str "a")]), e.2.Whole
    simp only [Config.members, List.map_cons, List.map_nil, List.cons_append, List.nil_append,
      List.forall_mem_cons]
    exact ⟨.int _, .str _, .int _, .int _, .bool _, .str _, .str _, .str _, .str _,
      List.forall_mem_nil _⟩
  have hedits : numberedSession.Edits (deskWith numberedPairs.renderIndented idleEdit)
      idleReplies [.str "8"] := ⟨.str "7", rfl, by decide +kernel, rfl⟩
  have hvalid : (numberedSession.edited idleReplies).validate = .ok Config.standard := rfl
  obtain ⟨hw, htext⟩ := ofText_edited_numberedSession
  obtain ⟨events, hturn⟩ := exists_perform_turn_of_edits hedits
  obtain ⟨p, old, ht⟩ := exists_target_deskWith numberedPairs.renderIndented idleEdit
  obtain ⟨disk, events', hedit, _⟩ := perform_editConfig_of_valid
    (d := { deskWith numberedPairs.renderIndented idleEdit with
      answers := idleReplies ++ [.str "8"], events }) rfl rfl hvalid hw ht htext
    (isFolder_deskWith numberedPairs.renderIndented idleEdit)
  have hafter : (Setup.standard.settings.putAll
      (Config.standard.members ++ [("1", .str "a")])).get? "1" = some (.str "a") := rfl
  exact ⟨_, _, idleReplies, [.str "8"], _, _, _, perform_start_numbered, rooted_deskWith _ _,
    hwhole, hanswers, hedits, hvalid, hturn.trans (Desk.perform_map_of_ok hedit some),
    by rw [edited_numberedSession]; rfl, hafter⟩

end TapeMachine.Session

import TapeMachine.Proofs.SessionTurns

/-!
# Setups that are kept

Whatever the reader answers and whatever is in the files: every command but the one that edits the
configuration keeps the setup of the session and its log, takes answers from the front only, and
changes no file but those of the log, which only grow.

* `Job.Keeps`: what is true of a job however it ends, with a lemma for each part of a job.
* `OtherFile`, `RunLog.keeps_record`: the files of a log have other names than the configuration.
* `Session.keeps_loadProgram`, …, `keeps_obey`: the commands.
-/

namespace TapeMachine

variable {α β : Type}

/-! ### Jobs that keep what there is -/

/-- However the job ends: no file grew but those on the shelf, answers were taken from the front,
texts may be nested as deep as before, and what it gives is as told. -/
def Job.Keeps (shelf : Place → Prop) (told : α → Prop) (job : Job α) : Prop :=
  ∀ (d d' : Desk) (result : Except Fault α), d.perform job = (result, d') →
    Disk.Grows shelf d.disk d'.disk ∧ d'.answers <:+ d.answers ∧ d'.nesting = d.nesting ∧
      ∀ a, result = .ok a → told a

namespace Job.Keeps

variable {shelf : Place → Prop} {told told' : α → Prop} {next : β → Prop} {job : Job α}
  {f : α → Job β}

theorem of_same (h : ∀ d : Desk, ∃ result events,
    d.perform job = (result, { d with events }) ∧ ∀ a, result = .ok a → told a) :
    Keeps shelf told job := by
  intro d d' result hjob
  obtain ⟨result', events, hsame, htold⟩ := h d
  obtain ⟨rfl, rfl⟩ := Prod.mk.inj (hsame.symm.trans hjob)
  exact ⟨.refl shelf d.disk, List.suffix_rfl, rfl, htold⟩

theorem pure {a : α} (h : told a) : Keeps shelf told (Pure.pure a) :=
  of_same fun _ => ⟨_, _, rfl, fun _ ha => Except.ok.inj ha ▸ h⟩

theorem fail (fault : Fault) : Keeps shelf told (Job.fail fault) :=
  of_same fun _ => ⟨_, _, rfl, nofun⟩

theorem take {ε : Type} {wrap : ε → Fault} {result : Except ε α}
    (h : ∀ a, result = .ok a → told a) : Keeps shelf told (Job.take wrap result) := by
  cases result with
  | error e => exact fail (wrap e)
  | ok a => exact pure (h a rfl)

theorem of_shows {job : Job Unit} (h : OnlyShows job) : Keeps shelf (fun _ => True) job := by
  refine of_same fun d => ?_
  obtain ⟨events, he⟩ := h d
  exact ⟨_, events, he, fun _ _ => trivial⟩

theorem get : Keeps shelf (fun _ => True) (MonadState.get : Job Desk) :=
  of_same fun _ => ⟨_, _, rfl, fun _ _ => trivial⟩

theorem now : Keeps shelf (fun _ => True) Job.now :=
  of_same fun _ => ⟨_, _, rfl, fun _ _ => trivial⟩

theorem bind (h : Keeps shelf told job) (hf : ∀ a, told a → Keeps shelf next (f a)) :
    Keeps shelf next (job >>= f) := by
  intro d d' result hjob
  rw [Desk.perform_bind] at hjob
  rcases hx : d.perform job with ⟨fault | a, d₁⟩
  · rw [hx] at hjob
    obtain ⟨rfl, rfl⟩ := Prod.mk.inj hjob
    obtain ⟨hgrows, hanswers, hnesting, _⟩ := h _ _ _ hx
    exact ⟨hgrows, hanswers, hnesting, nofun⟩
  · rw [hx] at hjob
    obtain ⟨hgrows, hanswers, hnesting, htold⟩ := h _ _ _ hx
    obtain ⟨hgrows', hanswers', hnesting', hnext⟩ := hf a (htold a rfl) _ _ _ hjob
    exact ⟨hgrows.trans hgrows', hanswers'.trans hanswers, hnesting'.trans hnesting, hnext⟩

theorem map {g : α → β} (h : Keeps shelf told job) (hg : ∀ a, told a → next (g a)) :
    Keeps shelf next (g <$> job) := by
  rw [map_eq_pure_bind]
  exact h.bind fun a ha => pure (hg a ha)

theorem ask (q : Question) : Keeps shelf (fun _ => True) (Job.ask q) := by
  intro d d' result hjob
  cases ha : d.answers with
  | nil =>
    rw [perform_ask_of_nil ha] at hjob
    obtain ⟨rfl, rfl⟩ := Prod.mk.inj hjob
    exact ⟨.refl shelf d.disk, by rw [ha], rfl, nofun⟩
  | cons answer rest =>
    rw [perform_ask_of_cons ha] at hjob
    obtain ⟨rfl, rfl⟩ := Prod.mk.inj hjob
    exact ⟨.refl shelf d.disk, List.suffix_cons answer rest, rfl, fun _ _ => trivial⟩

theorem attempt (h : Keeps shelf told job) :
    Keeps shelf (fun result => ∀ a, result = .ok a → told a) (Job.attempt job) := by
  intro d d' result hjob
  rw [Desk.perform_attempt] at hjob
  rcases hx : d.perform job with ⟨result₁, d₁⟩
  rw [hx] at hjob
  obtain ⟨rfl, rfl⟩ := Prod.mk.inj hjob
  obtain ⟨hgrows, hanswers, hnesting, htold⟩ := h _ _ _ hx
  refine ⟨hgrows, hanswers, hnesting, fun result' hr a ha => htold a ?_⟩
  exact (Except.ok.inj hr).trans ha

theorem appendText {path : String}
    (h : ∀ p : Place, p.getLast? = (Path.names path).getLast? → shelf p) (text : String) :
    Keeps shelf (fun _ => True) (Job.appendText path text) := by
  intro d d' result hjob
  rw [RunLog.perform_appendText] at hjob
  cases ht : d.disk.target path with
  | ok target =>
    obtain ⟨p, old⟩ := target
    rw [Disk.append_of_target ht] at hjob
    obtain ⟨rfl, rfl⟩ := Prod.mk.inj hjob
    exact ⟨Disk.grows_of_target ht (h p (Disk.getLast?_of_target ht)) _, List.suffix_rfl, rfl,
      fun _ _ => trivial⟩
  | error fault =>
    rw [Disk.append, ht] at hjob
    obtain ⟨rfl, rfl⟩ := Prod.mk.inj hjob
    refine ⟨.refl shelf d.disk, List.suffix_rfl, rfl, ?_⟩
    intro _ hok
    cases hok

end Job.Keeps

/-! ### The files of a log -/

/-- The places of files that have not the name of the configuration file. -/
def OtherFile (p : Place) : Prop := p.getLast? ≠ some "runtime_config.json"

namespace RunLog

theorem otherFile_fileIn (log : RunLog) (start : String) (p : Place)
    (h : p.getLast? = (Path.names (log.fileIn start)).getLast?) : OtherFile p := by
  have hlast : (start ++ log.date ++ ".jsonl").toList.getLast? = some 'l' := by
    simp [List.getLast?_append]
  have hend : (log.fileIn start).toList.getLast? = some 'l' :=
    Path.getLast?_toList_join hlast log.directory
  obtain ⟨name, hname, hlast⟩ := Path.exists_getLast?_names hend (by decide)
  intro hp
  rw [h, hname] at hp
  obtain rfl := Option.some.inj hp
  exact absurd hlast (by decide +kernel)

theorem keeps_record (log : RunLog) (entry : Json) :
    Job.Keeps OtherFile (fun _ => True) (log.record entry) :=
  .bind (.appendText (log.otherFile_fileIn _) _) fun _ _ =>
    .bind (.take fun _ _ => trivial) fun _ _ => .appendText (log.otherFile_fileIn _) _

end RunLog

/-! ### Commands -/

namespace Session

def SameSetup (s s' : Session) : Prop := s'.setup = s.setup ∧ s'.log = s.log

variable {s : Session} {shelf : Place → Prop}

theorem keeps_settle (s : Session) (l : Loaded) :
    Job.Keeps shelf s.SameSetup (s.settle l) :=
  .bind (.of_shows (onlyShows_showMachine _ _)) fun _ _ => .pure ⟨rfl, rfl⟩

theorem keeps_stay (s : Session) : Job.Keeps shelf s.SameSetup (pure s) := .pure ⟨rfl, rfl⟩

theorem keeps_told (s : Session) (style text : String) :
    Job.Keeps shelf s.SameSetup (do Job.printStyled style text; return s) :=
  .bind (.of_shows (Job.onlyShows_printStyled style text)) fun _ _ => keeps_stay s

theorem keeps_withMachine {act : Loaded → Job Session}
    (h : ∀ l, Job.Keeps shelf s.SameSetup (act l)) :
    Job.Keeps shelf s.SameSetup (s.withMachine act) := by
  unfold withMachine
  split
  · next l _ => exact h l
  · exact keeps_told s _ _

theorem keeps_askProgram (s : Session) : Job.Keeps shelf (fun _ => True) s.askProgram :=
  .bind .get fun _ _ => .bind (.take fun _ _ => trivial) fun programs _ =>
    .bind (.of_shows (.forM programs fun _ => Job.onlyShows_print _)) fun _ _ => .ask _

theorem keeps_load (path : String) (spec : KindSpec) :
    Job.Keeps shelf (fun _ => True) (Program.load path spec) := by
  refine .of_same fun d => ?_
  exact ⟨_, _, perform_load_eq d path spec, fun _ _ => trivial⟩

theorem keeps_loadProgram (s : Session) : Job.Keeps shelf s.SameSetup s.loadProgram := by
  have hload (answer : Json) : Job.Keeps shelf (fun _ => True) (do
      Program.load (← Job.take id (pathOf answer)) s.config.kindSpec) :=
    .bind (.take fun _ _ => trivial) fun path _ => keeps_load path _
  refine .bind (keeps_askProgram s) fun answer _ =>
    .bind (.attempt (hload answer)) fun result _ => ?_
  cases result with
  | error fault =>
    dsimp only
    split
    · exact keeps_told s _ _
    · have hfail : Job.Keeps shelf (fun _ : Unit => False) (Job.fail fault) := .fail fault
      exact .bind hfail fun _ h => h.elim
  | ok fresh =>
    exact .bind (.of_shows (Job.onlyShows_printStyled _ _)) fun _ _ => keeps_settle s _

theorem keeps_loadTape (s : Session) : Job.Keeps shelf s.SameSetup s.loadTape := by
  refine keeps_withMachine fun l => .bind (.ask _) fun answer _ => ?_
  split
  · exact keeps_settle s _
  · exact keeps_told s _ _
  · exact .fail _

theorem keeps_step (s : Session) : Job.Keeps shelf s.SameSetup s.step := by
  refine keeps_withMachine fun l => ?_
  split
  · exact keeps_told s _ _
  · next moved m _ =>
    split
    · exact keeps_settle s _
    · exact .bind (.of_shows (Job.onlyShows_printStyled _ _)) fun _ _ => keeps_settle s _

theorem keeps_runMachine (s : Session) : Job.Keeps OtherFile s.SameSetup s.runMachine := by
  refine keeps_withMachine fun l => .bind (.ask _) fun answer _ =>
    .bind (.take fun _ _ => trivial) fun limit _ => .bind .now fun time _ => ?_
  have hannounce (r : Run) : Job.Keeps OtherFile (fun _ => True) (announce r) :=
    .of_shows (onlyShows_announce r)
  split
  · exact .bind (hannounce _) fun _ _ => .bind (s.log.keeps_record _) fun _ _ => .pure ⟨rfl, rfl⟩
  · exact .bind (s.log.keeps_record _) fun _ _ => .bind (hannounce _) fun _ _ => keeps_settle s _

theorem keeps_reset (s : Session) : Job.Keeps shelf s.SameSetup s.reset :=
  keeps_withMachine fun _ =>
    .bind (.of_shows (Job.onlyShows_printStyled _ _)) fun _ _ => keeps_settle s _

theorem keeps_showTable (s : Session) : Job.Keeps shelf s.SameSetup s.showTable :=
  keeps_withMachine fun _ => .bind (.of_shows (Job.onlyShows_emit _)) fun _ _ => keeps_stay s

theorem keeps_obey_of_ne (s : Session) {command : Command} (hrun : command ≠ .run)
    (hedit : command ≠ .editConfig) :
    Job.Keeps shelf (fun next => ∀ s', next = some s' → s.SameSetup s') (s.obey command) := by
  have hsome {job : Job Session} (hjob : Job.Keeps shelf s.SameSetup job) :
      Job.Keeps shelf (fun next => ∀ s', next = some s' → s.SameSetup s') (some <$> job) :=
    hjob.map fun s' hs s'' he => Option.some.inj he ▸ hs
  cases command with
  | loadProgram => exact hsome (keeps_loadProgram s)
  | loadTape => exact hsome (keeps_loadTape s)
  | step => exact hsome (keeps_step s)
  | run => exact absurd rfl hrun
  | reset => exact hsome (keeps_reset s)
  | showTable => exact hsome (keeps_showTable s)
  | editConfig => exact absurd rfl hedit
  | leave =>
    refine .bind (.of_shows (Job.onlyShows_printStyled _ _)) fun _ _ => .pure ?_
    intro s' h
    cases h

/-- **Every command but one** keeps the setup of the session. -/
theorem keeps_obey (s : Session) {command : Command} (h : command ≠ .editConfig) :
    Job.Keeps OtherFile (fun next => ∀ s', next = some s' → s.SameSetup s') (s.obey command) := by
  by_cases hrun : command = .run
  · subst hrun
    exact (keeps_runMachine s).map fun s' hs s'' he => Option.some.inj he ▸ hs
  · exact keeps_obey_of_ne s hrun h

end Session

end TapeMachine

import TapeMachine.Session
import TapeMachine.Proofs.LoggedRuns
import TapeMachine.Proofs.Reading

/-!
# Turns of a session

A turn takes an answer from the menu, and at most one more.  What it does to the machine depends on
what was entered, on the kind of symbols and, if a program is loaded, on the file of the program.
An entry that something is wrong with does nothing to it.

* `Entry.act`: what an entry does to the machine.
* `Entry.Entered`: the answers that make an entry.
* `Session.gives_withMachine`, `gives_loadProgram`, …: the commands.
* `Session.perform_turn`: one turn.
-/

namespace TapeMachine

/-! ### Entries -/

inductive Entry
  | loadProgram (path : String)
  | loadTape (text : String)
  | step
  | run (limit : Int)
  | reset
  | showTable

namespace Entry

def command : Entry → Command
  | .loadProgram _ => .loadProgram
  | .loadTape _ => .loadTape
  | .step => .step
  | .run _ => .run
  | .reset => .reset
  | .showTable => .showTable

/-- **What an entry does to the machine.**  If something is wrong with it, it does nothing. -/
def act (spec : KindSpec) (d : Desk) (e : Entry) (loaded : Option Loaded) : Option Loaded :=
  match e with
  | .loadProgram path =>
    match (d.perform (Program.load path spec)).1 with
    | .ok m =>
      let tape := (loaded.map fun l => l.machine.tape).getD .empty
      some ⟨path, { m with tape, state := m.start }⟩
    | .error _ => loaded
  | .loadTape text =>
    loaded.map fun l =>
      match spec.tapeOfText text with
      | .ok tape => { l with machine := { l.machine with tape } }
      | .error _ => l
  | .step =>
    loaded.map fun l =>
      match l.machine.step with
      | .ok (true, m) => { l with machine := m }
      | _ => l
  | .run limit => loaded.map fun l => { l with machine := (l.machine.watch limit none).run.machine }
  | .reset => loaded.map fun l => { l with machine := { l.machine with state := l.machine.start } }
  | .showTable => loaded

/-- The answers that an entry gives after that to the menu.  A program is only asked for if the
others can be listed, tapes and limits only if there is a machine. -/
def Replies (s : Session) (disk : Disk) : Entry → List Json → Prop
  | .loadProgram path, replies =>
    (∃ programs answer, Session.programsIn disk s.config.programsDirectory = .ok programs ∧
      replies = [answer] ∧ Job.answered (.str (programs.head?.getD "")) answer = .str path) ∨
    (∃ fault, Session.programsIn disk s.config.programsDirectory = .error fault ∧ replies = [])
  | .loadTape text, replies =>
    if s.loaded.isSome then
      ∃ answer, replies = [answer] ∧ Job.answered (.str "") answer = .str text
    else replies = []
  | .run limit, replies =>
    if s.loaded.isSome then
      ∃ answer, replies = [answer] ∧ Job.answered (.int s.config.maxSteps) answer = .int limit
    else replies = []
  | _, replies => replies = []

/-- The next answers at the desk are an entry. -/
def Entered (s : Session) (d : Desk) (e : Entry) (rest : List Json) : Prop :=
  ∃ choice replies, d.answers = choice :: (replies ++ rest) ∧
    Command.ofAnswer? (Job.answered Command.question.preset choice) = some e.command ∧
    e.Replies s d.disk replies

/-- The disk is in the way of the entry: it does not list the programs, or it does not take the
record of the run. -/
def Blocked (s : Session) (disk : Disk) : Entry → Prop
  | .loadProgram _ => ∃ fault, Session.programsIn disk s.config.programsDirectory = .error fault
  | .run _ => s.loaded.isSome ∧ ¬ ∃ place, s.log.Shelved disk place
  | _ => False

/-- A file that is to be loaded has a text in it, if it is a file. -/
def Legible (disk : Disk) : Entry → Prop
  | .loadProgram path => disk.Legible path
  | _ => True

theorem act_congr {d d' : Desk} (h : d'.disk = d.disk) (spec : KindSpec) (e : Entry)
    (loaded : Option Loaded) : e.act spec d' loaded = e.act spec d loaded := by
  cases e with
  | loadProgram path => rw [act, act, perform_load_eq, perform_load_eq, h]
  | _ => rfl

theorem act_run (spec : KindSpec) (d : Desk) (limit : Int) (l : Loaded) :
    (Entry.run limit).act spec d (some l) =
      some { l with machine := (l.machine.run limit).machine } := by
  have hp : (none : Option Int) ≠ some 0 := nofun
  rw [← Machine.run_of_not_broken (Machine.broken_watch_eq_false hp l.machine limit)]
  rfl

end Entry

/-! ### Commands -/

namespace Session

variable {s s' : Session} {d d' : Desk} {l : Loaded} {read : SymbolReader} {rest : List Json}

theorem onlyShows_showMenu : Job.OnlyShows Command.showMenu :=
  (Job.onlyShows_print _).bind (.forM _ fun _ => Job.onlyShows_print _)

theorem onlyShows_showMachine (loaded : Option Loaded) (radius : Int) :
    Job.OnlyShows (showMachine loaded radius) := by
  cases loaded with
  | none => exact Job.onlyShows_printStyled _ _
  | some l => exact (Job.onlyShows_print _).bind (Job.onlyShows_emit _)

theorem gives_settle (s : Session) (l : Loaded) (d : Desk) :
    d.Gives (s.settle l) { s with loaded := some l } d :=
  .bind (.of_shows (onlyShows_showMachine _ _) d) (.pure d _)

theorem with_loaded {loaded : Option Loaded} (h : s.loaded = loaded) :
    ({ s with loaded } : Session) = s := by
  subst h
  rfl

theorem gives_stay (h : s.loaded = some l) (d : Desk) :
    d.Gives (pure s) { s with loaded := some l } d := by
  rw [with_loaded h]
  exact .pure d s

theorem gives_withMachine_none (h : s.loaded = none) (job : Loaded → Job Session) (d : Desk) :
    d.Gives (s.withMachine job) s d := by
  rw [withMachine, h]
  exact .bind (.of_shows (Job.onlyShows_printStyled _ _) d) (.pure d s)

theorem gives_withMachine {job : Loaded → Job Session} {change : Loaded → Loaded}
    (hnone : s.loaded = none → d' = d)
    (hsome : ∀ l, s.loaded = some l → d.Gives (job l) { s with loaded := some (change l) } d') :
    d.Gives (s.withMachine job) { s with loaded := s.loaded.map change } d' := by
  cases hs : s.loaded with
  | none =>
    rw [hnone hs, Option.map_none, with_loaded hs]
    exact gives_withMachine_none hs job d
  | some l =>
    rw [withMachine, hs]
    exact hsome l hs

/-! ### Loading -/

theorem eq_new_of_fetched {disk : Disk} {path : String} {spec : KindSpec} {m : Machine}
    (hk : spec.resolve = .ok read) (h : Program.fetched disk path spec = .ok m) :
    m = .new .empty m.start m.table := by
  rw [Program.fetched] at h
  cases hs : disk.source path with
  | error fault =>
    rw [hs] at h
    cases h
  | ok source =>
    rw [hs] at h
    obtain ⟨clauses, _, rfl⟩ :=
      (KindSpec.machineOfSource_eq_ok_iff hk).1 (mapError_eq_ok_iff.1 h)
    rfl

theorem gives_askProgram {programs : List String} {answer : Json}
    (hp : programsIn d.disk s.config.programsDirectory = .ok programs)
    (ha : d.answers = answer :: rest) :
    d.Gives s.askProgram (Job.answered (.str (programs.head?.getD "")) answer)
      { d with answers := rest } := by
  have htake : d.Gives (Job.take .disk (programsIn d.disk s.config.programsDirectory)) programs
      d := by
    rw [hp]
    exact .pure d programs
  exact .get fun _ => .bind htake
    (.bind (.of_shows (.forM programs fun _ => Job.onlyShows_print _) d) (Job.gives_ask ha _))

theorem fails_askProgram {fault : DiskFault}
    (hp : programsIn d.disk s.config.programsDirectory = .error fault) :
    d.Fails s.askProgram (.disk fault) := by
  intro events
  have hget : Desk.perform { d with events } get = (.ok { d with events }, { d with events }) := rfl
  refine ⟨{ d with events }, ?_⟩
  rw [askProgram, Desk.perform_bind_of_ok hget]
  dsimp only
  rw [hp]
  rfl

/-- A program is loaded with its own state and the tape that there was; if it cannot be loaded,
nothing is. -/
theorem gives_loadProgram {programs : List String} {answer : Json} {path : String}
    (hk : s.config.kindSpec.resolve = .ok read) (hl : d.disk.Legible path)
    (hp : programsIn d.disk s.config.programsDirectory = .ok programs)
    (ha : d.answers = answer :: rest)
    (hpath : Job.answered (.str (programs.head?.getD "")) answer = .str path) :
    d.Gives s.loadProgram
      { s with loaded := (Entry.loadProgram path).act s.config.kindSpec d s.loaded }
      { d with answers := rest } := by
  have hload : Desk.Gives { d with answers := rest } (Job.attempt do
      Program.load (← Job.take id (pathOf (.str path))) s.config.kindSpec)
        (Program.fetched d.disk path s.config.kindSpec) { d with answers := rest } := by
    intro events
    have hpath' : Desk.perform { d with answers := rest, events } (do
        Program.load (← Job.take id (pathOf (.str path))) s.config.kindSpec) =
          (Program.fetched d.disk path s.config.kindSpec, { d with answers := rest, events }) :=
      perform_load_eq { d with answers := rest, events } path s.config.kindSpec
    exact ⟨events, by rw [Desk.perform_attempt, hpath']⟩
  refine .bind (hpath ▸ gives_askProgram hp ha) (.bind hload ?_)
  rw [Entry.act, perform_load_eq]
  cases hf : Program.fetched d.disk path s.config.kindSpec with
  | error fault =>
    have hu : fault.isUnreadable = true := isUnreadable_of_fetched hl hk hf
    simp only [hu, if_true]
    exact .bind (.of_shows (Job.onlyShows_printStyled _ _) _) (.pure _ s)
  | ok fresh =>
    dsimp only
    refine .bind (.of_shows (Job.onlyShows_printStyled _ _) _) ?_
    rw [eq_new_of_fetched hk hf]
    cases s.loaded with
    | none => exact gives_settle s _ _
    | some l => exact gives_settle s _ _

theorem gives_loadTape {text : String} {replies : List Json}
    (hk : s.config.kindSpec.resolve = .ok read) (ha : d.answers = replies ++ rest)
    (hr : (Entry.loadTape text).Replies s d.disk replies) :
    d.Gives s.loadTape
      { s with loaded := (Entry.loadTape text).act s.config.kindSpec d s.loaded }
      { d with answers := rest } := by
  refine gives_withMachine ?_ ?_
  · intro hs
    rw [Entry.Replies, hs] at hr
    cases hr
    cases ha
    rfl
  · intro l hs
    rw [Entry.Replies, hs] at hr
    obtain ⟨answer, rfl, htext⟩ := hr
    refine .bind (Job.gives_ask ha _) ?_
    dsimp only
    rw [htext, Program.tapeOf, KindSpec.tapeOfText_of_resolve hk]
    cases Tape.ofText read text with
    | ok tape => exact gives_settle s _ _
    | error fault =>
      exact .bind (.of_shows (Job.onlyShows_printStyled _ _) _) (gives_stay hs _)

/-! ### Moving the machine -/

theorem gives_step (d : Desk) :
    d.Gives s.step { s with loaded := Entry.step.act s.config.kindSpec d s.loaded } d := by
  refine gives_withMachine (fun _ => rfl) fun l hs => ?_
  rw [Machine.step]
  cases l.machine.next with
  | stuck =>
    exact .bind (.of_shows (Job.onlyShows_printStyled _ _) d) (gives_stay hs d)
  | halt =>
    exact .bind (.of_shows (Job.onlyShows_printStyled _ _) d) (gives_settle s l d)
  | act a => exact gives_settle s ⟨l.program, l.machine.perform a⟩ d

def recordOf (s : Session) (l : Loaded) (limit : Int) (d : Desk) : RunRecord :=
  .ofRun l.program (l.machine.run limit) s.config.trimBlanks d.clock

theorem onlyShows_announce (r : Run) : Job.OnlyShows (announce r) := by
  rw [announce]
  cases r.ending <;> exact Job.onlyShows_printStyled _ _

theorem gives_runMachine {limit : Int} {answer : Json} {disk : Disk} (hs : s.loaded = some l)
    (ha : d.answers = answer :: rest)
    (hlimit : Program.limitOf (Job.answered (.int s.config.maxSteps) answer) = .ok limit)
    (hrec : Desk.Gives { d with answers := rest }
      (s.log.record (s.recordOf l limit d).toJson) () { d with answers := rest, disk }) :
    d.Gives s.runMachine
      { s with loaded := (Entry.run limit).act s.config.kindSpec d s.loaded }
      { d with answers := rest, disk } := by
  rw [runMachine, withMachine, hs, Entry.act_run]
  have hnow : Desk.Gives { d with answers := rest } Job.now d.clock { d with answers := rest } :=
    fun events => ⟨events, rfl⟩
  refine .bind (Job.gives_ask ha _) ?_
  dsimp only
  rw [hlimit]
  refine .bind (.pure _ limit) (.bind hnow ?_)
  -- a run that got stuck is announced first, any other one is logged first
  split
  · exact .bind (.of_shows (onlyShows_announce _) _) (.bind hrec (.pure _ _))
  · exact .bind hrec (.bind (.of_shows (onlyShows_announce _) _) (gives_settle s _ _))

theorem fails_runMachine {limit : Int} {answer : Json} {fault : Fault} (hs : s.loaded = some l)
    (ha : d.answers = answer :: rest)
    (hlimit : Job.answered (.int s.config.maxSteps) answer = .int limit)
    (hrec : Desk.Fails { d with answers := rest }
      (s.log.record (s.recordOf l limit d).toJson) fault) :
    d.Fails s.runMachine fault := by
  rw [runMachine, withMachine, hs]
  have hnow : Desk.Gives { d with answers := rest } Job.now d.clock { d with answers := rest } :=
    fun events => ⟨events, rfl⟩
  refine .after (Job.gives_ask ha _) ?_
  dsimp only
  rw [hlimit]
  refine .after (.pure _ limit) (.after hnow ?_)
  split
  · exact .after (.of_shows (onlyShows_announce _) _) hrec.bind
  · exact hrec.bind

theorem gives_or_fails_runMachine {limit : Int} {replies : List Json}
    (ha : d.answers = replies ++ rest) (hr : (Entry.run limit).Replies s d.disk replies) :
    (∃ disk, d.Gives s.runMachine
      { s with loaded := (Entry.run limit).act s.config.kindSpec d s.loaded }
      { d with answers := rest, disk }) ∨
    (Entry.run limit).Blocked s d.disk ∧ ∃ fault, d.Fails s.runMachine (.disk fault) := by
  obtain hs | ⟨l, hs⟩ := Option.eq_none_or_eq_some s.loaded
  · rw [Entry.Replies, hs] at hr
    cases hr
    cases ha
    have hact : (Entry.run limit).act s.config.kindSpec d s.loaded = s.loaded := by
      rw [hs]
      rfl
    rw [hact]
    exact .inl ⟨d.disk, gives_withMachine_none hs _ d⟩
  · rw [Entry.Replies, hs] at hr
    obtain ⟨answer, rfl, hlimit⟩ := hr
    have htaken : Program.limitOf (Job.answered (.int s.config.maxSteps) answer) = .ok limit := by
      rw [hlimit]
      rfl
    by_cases hlog : ∃ place, s.log.Shelved d.disk place
    · obtain ⟨place, hplace⟩ := hlog
      have hrec := RunLog.gives_record (d := { d with answers := rest }) hplace
        (s.recordOf l limit d)
      exact .inl ⟨_, gives_runMachine hs ha htaken hrec⟩
    · obtain ⟨disk, hrec⟩ | ⟨fault, hrec⟩ :=
        RunLog.gives_or_fails_record { d with answers := rest } s.log (s.recordOf l limit d)
      · exact .inl ⟨disk, gives_runMachine hs ha htaken hrec⟩
      · have hblocked : (Entry.run limit).Blocked s d.disk := ⟨by rw [hs]; rfl, hlog⟩
        exact .inr ⟨hblocked, fault, fails_runMachine hs ha hlimit hrec⟩

theorem gives_reset (d : Desk) :
    d.Gives s.reset { s with loaded := Entry.reset.act s.config.kindSpec d s.loaded } d := by
  refine gives_withMachine (fun _ => rfl) fun l hs => ?_
  exact .bind (.of_shows (Job.onlyShows_printStyled _ _) d) (gives_settle s _ d)

theorem gives_showTable (d : Desk) :
    d.Gives s.showTable
      { s with loaded := Entry.showTable.act s.config.kindSpec d s.loaded } d := by
  have hshow : d.Gives s.showTable { s with loaded := s.loaded.map id } d :=
    gives_withMachine (fun _ => rfl) fun l hs =>
      .bind (.of_shows (Job.onlyShows_emit _) d) (gives_stay hs d)
  rw [Option.map_id] at hshow
  exact hshow

/-! ### Turns -/

theorem obey_entry {e : Entry} {replies : List Json}
    (hk : s.config.kindSpec.resolve = .ok read) (ha : d.answers = replies ++ rest)
    (hr : e.Replies s d.disk replies) (hl : e.Legible d.disk) :
    (∃ disk, ((∀ limit, e ≠ .run limit) → disk = d.disk) ∧
      d.Gives (s.obey e.command)
        (some { s with loaded := e.act s.config.kindSpec d s.loaded })
        { d with answers := rest, disk }) ∨
    e.Blocked s d.disk ∧ ∃ fault, d.Fails (s.obey e.command) (.disk fault) := by
  cases e with
  | loadProgram path =>
    obtain ⟨programs, answer, hp, rfl, hpath⟩ | ⟨fault, hp, _⟩ := hr
    · exact .inl ⟨d.disk, fun _ => rfl, (gives_loadProgram hk hl hp ha hpath).map⟩
    · exact .inr ⟨⟨fault, hp⟩, fault, (fails_askProgram hp).bind.map⟩
  | loadTape text => exact .inl ⟨d.disk, fun _ => rfl, (gives_loadTape hk ha hr).map⟩
  | step =>
    cases hr
    cases ha
    exact .inl ⟨d.disk, fun _ => rfl, (gives_step d).map⟩
  | run limit =>
    obtain ⟨disk, hgives⟩ | ⟨hblocked, fault, hfails⟩ := gives_or_fails_runMachine ha hr
    · exact .inl ⟨disk, fun h => absurd rfl (h limit), hgives.map⟩
    · exact .inr ⟨hblocked, fault, hfails.map⟩
  | reset =>
    cases hr
    cases ha
    exact .inl ⟨d.disk, fun _ => rfl, (gives_reset d).map⟩
  | showTable =>
    cases hr
    cases ha
    exact .inl ⟨d.disk, fun _ => rfl, (gives_showTable d).map⟩

theorem gives_turn {e : Entry} (hk : s.config.kindSpec.resolve = .ok read)
    (he : e.Entered s d rest) (hl : e.Legible d.disk) :
    (∃ disk, ((∀ limit, e ≠ .run limit) → disk = d.disk) ∧
      d.Gives s.turn (some { s with loaded := e.act s.config.kindSpec d s.loaded })
        { d with answers := rest, disk }) ∨
    e.Blocked s d.disk ∧ ∃ fault, d.Fails s.turn (.disk fault) := by
  obtain ⟨choice, replies, ha, hchoice, hr⟩ := he
  have hmenu : d.Gives Command.showMenu () d := .of_shows onlyShows_showMenu d
  have hask := Job.gives_ask ha Command.question
  have hobey := obey_entry (d := { d with answers := replies ++ rest }) hk rfl hr hl
  -- the menu takes an answer only, so the entry does what it does at the first desk
  have hact : e.act s.config.kindSpec { d with answers := replies ++ rest } s.loaded =
      e.act s.config.kindSpec d s.loaded :=
    Entry.act_congr (by rfl) _ e _
  rw [hact] at hobey
  rw [turn]
  obtain ⟨disk, hdisk, hgives⟩ | ⟨hlog, fault, hfails⟩ := hobey
  · refine .inl ⟨disk, hdisk, hmenu.bind (hask.bind ?_)⟩
    rw [hchoice]
    exact hgives
  · refine .inr ⟨hlog, fault, .after hmenu (.after hask ?_)⟩
    rw [hchoice]
    exact hfails

/-- **One turn.**  The machine is what the entry makes of it, and the answers of the entry are used
up, unless the disk is in the way. -/
theorem perform_turn {e : Entry} (hk : s.config.kindSpec.resolve = .ok read)
    (he : e.Entered s d rest) (hl : e.Legible d.disk) :
    (∃ d', d.perform s.turn =
        (.ok (some { s with loaded := e.act s.config.kindSpec d s.loaded }), d') ∧
      d'.answers = rest ∧ d'.clock = d.clock ∧ ((∀ limit, e ≠ .run limit) → d'.disk = d.disk)) ∨
    e.Blocked s d.disk ∧ ∃ fault d', d.perform s.turn = (.error (.disk fault), d') := by
  obtain ⟨disk, hdisk, hgives⟩ | ⟨hlog, fault, hfails⟩ := gives_turn hk he hl
  · obtain ⟨events, hturn⟩ := hgives d.events
    exact .inl ⟨_, hturn, rfl, rfl, hdisk⟩
  · obtain ⟨d', hturn⟩ := hfails d.events
    exact .inr ⟨hlog, fault, d', hturn⟩

end Session

end TapeMachine

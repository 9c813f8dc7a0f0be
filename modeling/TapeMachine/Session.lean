import TapeMachine.Config.File
import TapeMachine.Program
import TapeMachine.RunLog

/-!
# Sessions

In a session the reader works on a machine by commands from a menu: load a program or a tape, step,
run, reset, look at the table, edit the configuration.  A command that fails leaves the machine as
it was.

* `Session.obey`: one command.
* `Session.run`: a session from the first menu to its end.
-/

namespace TapeMachine

structure Loaded where
  program : String
  machine : Machine

structure Session where
  setup : Setup
  log : RunLog
  loaded : Option Loaded

/-- A place in the menu. -/
inductive Command
  | loadProgram
  | loadTape
  | step
  | run
  | reset
  | showTable
  | editConfig
  | leave
  deriving DecidableEq, Repr

namespace Command

/-- The menu, with the answer that chooses each place. -/
def menu : List (String × Command × String) := [
  ("1", .loadProgram, "Load Program"),
  ("2", .loadTape, "Load Input Tape"),
  ("3", .step, "Step"),
  ("4", .run, "Run to Halt"),
  ("5", .reset, "Reset"),
  ("6", .showTable, "Show Transition Table"),
  ("7", .editConfig, "Edit Config"),
  ("8", .leave, "Exit")]

/-- The command of an answer; an answer that is in no place of the menu commands nothing. -/
def ofAnswer? : Json → Option Command
  | .str s => (menu.lookup s).map Prod.fst
  | _ => none

def question : Question :=
  ⟨"\nChoose an option", .str "3", some (menu.map Prod.fst)⟩

def showMenu : Job Unit := do
  Job.print ("\n" ++ markup "bold cyan" "Turing Machine Simulator")
  menu.forM fun place => Job.print s!"[{place.1}] {place.2.2}"

end Command

namespace Session

def config (s : Session) : Config := s.setup.config

/-! ## Showing -/

def showMachine (loaded : Option Loaded) (radius : Int) : Job Unit :=
  match loaded with
  | none => Job.printStyled "yellow" "No program loaded."
  | some l => do
    let m := l.machine
    let title := markup "bold" l.program
    Job.print s!"\n{title}  state: {m.state.label}  head: {m.tape.head}"
    Job.emit (.table (m.tape.windowGrid radius))

def showLoaded (s : Session) : Job Unit := showMachine s.loaded s.config.windowRadius

def withMachine (s : Session) (act : Loaded → Job Session) : Job Session :=
  match s.loaded with
  | some l => act l
  | none => do
    Job.printStyled "yellow" "Load a program first."
    return s

/-- Puts a machine in place of the session's, and shows it. -/
def settle (s : Session) (l : Loaded) : Job Session := do
  let s := { s with loaded := some l }
  s.showLoaded
  return s

/-! ## Loading -/

/-- The programs in a folder, as tidy paths in the order of their names. -/
def programsIn (disk : Disk) (folder : String) : Except DiskFault (List String) := do
  let folder := Path.tidy folder
  match ← disk.nodeNamed? folder with
  | some .folder =>
    let names := (disk.entries folder).filter fun name => name.endsWith ".tm"
    return (names.mergeSort fun a b => a ≤ b).map (Path.child folder)
  | _ => return []

/-- Asks for a program; the first one that there is may be had for no answer. -/
def askProgram (s : Session) : Job Json := do
  let programs ← Job.take .disk (programsIn (← get).disk s.config.programsDirectory)
  programs.forM fun path => Job.print s!"  {path}"
  Job.ask ⟨"Program file", .str (programs.head?.getD ""), none⟩

/-- The path that a value stands for.  A number that could be that of a channel is no path, and no
channel is open for it. -/
def pathOf : Json → Except Fault String
  | .str path => .ok path
  | .bool _ => .error .closedChannel
  | .int n =>
    if 2147483648 ≤ n ∨ n < -2147483648 then .error (.badPath (.int n))
    else .error (if n < 0 then .negativeChannel else .closedChannel)
  | value => .error (.badPath value)

/-- Loads a program.  The tape of the machine before it, if there was one, stays. -/
def loadProgram (s : Session) : Job Session := do
  let answer ← s.askProgram
  let path := answer.display
  match ← Job.attempt do Program.load (← Job.take id (pathOf answer)) s.config.kindSpec with
  | .error fault =>
    unless fault.isUnreadable do Job.fail fault
    Job.printStyled "red" s!"Could not load {path}: {fault.message}"
    return s
  | .ok fresh =>
    let m := match s.loaded with
      | some l => fresh.insertTape l.machine.tape
      | none => fresh
    Job.printStyled "green"
      s!"Loaded {m.table.size} transitions, starting state {m.start.label}."
    s.settle ⟨path, m⟩

def loadTape (s : Session) : Job Session :=
  s.withMachine fun l => do
    let answer ← Job.ask ⟨"Input tape (comma separated, None = blank)", .str "", none⟩
    match Program.tapeOf s.config.kindSpec answer with
    | .ok tape => s.settle { l with machine := l.machine.insertTape tape }
    | .error (.spec (.source fault)) =>
      Job.printStyled "red" s!"Invalid tape: {fault.message}"
      return s
    | .error fault => Job.fail fault

/-! ## Moving the machine -/

def step (s : Session) : Job Session :=
  s.withMachine fun l =>
    match l.machine.step with
    | .error missing => do
      Job.printStyled "red" missing.message
      return s
    | .ok (moved, m) => do
      unless moved do Job.printStyled "bold green" "Reached halting state."
      s.settle { l with machine := m }

def announce (r : Run) : Job Unit :=
  match r.ending with
  | .halted => Job.printStyled "green" s!"Halted after {Text.grouped r.steps} steps."
  | .limited => Job.printStyled "yellow" s!"Still running after {Text.grouped r.steps} steps."
  | .stuck => Job.printStyled "red" (r.machine.missing none).message

/-- Runs the machine and logs the run.  Only a run that got stuck is announced before it is logged,
and the machine is not shown after it. -/
def runMachine (s : Session) : Job Session :=
  s.withMachine fun l => do
    let answer ← Job.ask ⟨"Max Steps", .int s.config.maxSteps, none⟩
    let r := l.machine.run (← Job.take id (Program.limitOf answer))
    let record := RunRecord.ofRun l.program r s.config.trimBlanks (← Job.now)
    let l := { l with machine := r.machine }
    if r.ending = .stuck then
      announce r
      s.log.record record.toJson
      return { s with loaded := some l }
    else
      s.log.record record.toJson
      announce r
      s.settle l

def reset (s : Session) : Job Session :=
  s.withMachine fun l => do
    Job.printStyled "cyan" s!"State reset to {l.machine.start.label}."
    s.settle { l with machine := l.machine.reset }

/-! ## The table and the configuration -/

def showTable (s : Session) : Job Session :=
  s.withMachine fun l => do
    Job.emit (.table l.machine.ruleGrid)
    return s

/-- The settings that can be edited, each with its question. -/
def editable (c : Config) : List (String × Question) := [
  ("max_steps", ⟨"Max Steps", .int c.maxSteps, none⟩),
  ("symbol_type", ⟨"Symbol Type", .str c.symbolType, some SymbolKind.names⟩),
  ("window_radius", ⟨"Window Radius", .int c.windowRadius, none⟩),
  ("log_frequency", ⟨"Log Frequency", .int c.logFrequency, none⟩),
  ("trim_blanks", ⟨"Trim blanks in run logs?", .bool c.trimBlanks, none⟩)]

/-- Saves edited settings, or tells why they cannot be saved. -/
def saveEdited (settings : Settings) : Job Unit := do
  match ← Job.attempt (Setup.save settings Setup.standardPath) with
  | .ok _ => Job.printStyled "green" "Configuration updated successfully."
  | .error fault =>
    unless fault.isSetting do Job.fail fault
    Job.printStyled "red" s!"Configuration not saved: {fault.message}"

/-- Edits the settings.  What counts afterwards is what the file says. -/
def editConfig (s : Session) : Job Session := do
  Job.print ("\n" ++ markup "bold" "Edit Configuration")
  let answers ← (editable s.config).mapM fun e => return (e.1, ← Job.ask e.2)
  saveEdited (s.setup.settings.putAll answers)
  return { s with setup := ← Setup.loadStandard }

/-! ## Commands -/

/-- Obeys a command; there is no session after the one to leave. -/
def obey (s : Session) : Command → Job (Option Session)
  | .loadProgram => some <$> s.loadProgram
  | .loadTape => some <$> s.loadTape
  | .step => some <$> s.step
  | .run => some <$> s.runMachine
  | .reset => some <$> s.reset
  | .showTable => some <$> s.showTable
  | .editConfig => some <$> s.editConfig
  | .leave => do
    Job.printStyled "bold green" "Goodbye!"
    return none

/-- Shows the menu and obeys the command that is chosen. -/
def turn (s : Session) : Job (Option Session) := do
  Command.showMenu
  match Command.ofAnswer? (← Job.ask Command.question) with
  | some command => s.obey command
  | none => return some s

def turnsWithin : Nat → Session → Job Unit
  | 0, _ => Job.fail .noAnswer
  | turns + 1, s => do
    match ← s.turn with
    | some s => turnsWithin turns s
    | none => return ()

def start : Job Session := do
  let setup ← Setup.loadStandard
  let log ← RunLog.create setup.config.outputDirectory setup.config.logFileStart
  return ⟨setup, log, none⟩

/-- A session to its end.  Every turn takes an answer, so there are not more turns than answers
before one finds none. -/
def run : Job Unit := do
  let s ← start
  turnsWithin ((← get).answers.length + 1) s

end Session

end TapeMachine

import TapeMachine.Batch
import TapeMachine.CommandLine
import TapeMachine.Session

/-!
# Tools

There are three tools.  The simulator runs one program by its command line, or a session without
one.  The batch tool simulates programs and logs them.  The inspector shows the table of a program.

* `Tool.run`: a tool with its command line.
-/

namespace TapeMachine

inductive Tool
  | simulator
  | batch
  | inspector
  deriving DecidableEq, Repr

namespace Tool

def usage : Tool → Usage
  | .simulator =>
    ⟨[⟨"--program", .one, false, false⟩, ⟨"--tape", .one, false, false⟩,
      ⟨"--run", .flag, false, false⟩, ⟨"--max_steps", .one, true, false⟩,
      ⟨"--symbol_type", .one, false, false⟩], false⟩
  | .batch =>
    ⟨[⟨"--programs", .many, false, true⟩, ⟨"--tape", .one, false, false⟩,
      ⟨"--config", .one, false, false⟩, ⟨"--max_steps", .one, true, false⟩,
      ⟨"--symbol_type", .one, false, false⟩], false⟩
  | .inspector =>
    ⟨[⟨"--symbol_type", .one, false, false⟩, ⟨"--plain", .flag, false, false⟩], true⟩

/-! ## Choices of the command line -/

/-- The step limit of a command line; none and zero stand for that of the configuration. -/
def limit (a : Arguments) (c : Config) : Int :=
  match a.number? "--max_steps" with
  | some n => if n = 0 then c.maxSteps else n
  | none => c.maxSteps

/-- The kind of symbols of a command line; no name and the empty one stand for the configured
one. -/
def kindSpec (a : Arguments) (c : Config) : KindSpec :=
  .named (.str ((a.filled? "--symbol_type").getD c.symbolType))

def tape (a : Arguments) : Json := (a.handed? "--tape").getD (.str "")

/-! ## The simulator -/

def giveUp {α : Type} (message : String) : Job α := do
  Job.printStyled "red" message
  Job.fail (.exit 1)

/-- Runs a machine for the simulator, with all progress shown. -/
def runToEnd (m : Machine) (a : Arguments) (c : Config) (program : String) : Job Machine := do
  let r ← Job.runMachine m (limit a c) c.logFrequency program true
  if r.ending = .stuck then giveUp (r.machine.missing none).message
  Job.print s!"halted={RunRecord.truthWord (r.ending = .halted)} steps={r.steps}"
  return r.machine

/-- Loads a program and its tape, runs it if asked to, and shows the machine. -/
def simulateOne (a : Arguments) (program : String) : Job Unit := do
  let setup ← Setup.loadStandard
  let m ← Job.rescue Fault.isUnreadable
    (Program.loadWithTape program (tape a) (kindSpec a setup.config)) fun fault =>
      giveUp fault.message
  let m ← if a.isGiven "--run" then runToEnd m a setup.config program else pure m
  Job.emit (.print m.dump false)

def runSimulator (a : Arguments) : Job Unit :=
  match a.filled? "--program" with
  | some program => simulateOne a program
  | none => Session.run

/-! ## The batch tool -/

def batchSetup (a : Arguments) : Job Setup :=
  match a.filled? "--config" with
  | some path => Setup.load path true
  | none => pure Setup.standard

def runBatch (a : Arguments) : Job Unit := do
  let c := (← batchSetup a).config
  let log ← RunLog.create c.outputDirectory c.logFileStart
  let plan : Plan :=
    { tape := tape a
      kind := kindSpec a c
      maxSteps := limit a c
      logFrequency := c.logFrequency
      trimBlanks := c.trimBlanks }
  let (records, _) ← Batch.run (a.list "--programs") plan (some log)
  records.forM fun r => Job.say (r.summary ++ "\n")

/-! ## The inspector -/

def runInspector (a : Arguments) : Job Unit := do
  let program := a.operand.getD ""
  let m ← Program.load program (.named ((a.handed? "--symbol_type").getD (.str "bool")))
  Job.say s!"[INFO] {program}\n"
  Job.say s!"  Starting State: {m.start.label}\n"
  Job.say s!"  Transitions: {m.table.size}\n"
  if a.isGiven "--plain" then Job.say m.rulePlain else Job.emit (.table m.ruleGrid)

/-! ## All tools -/

def work : Tool → Arguments → Job Unit
  | .simulator => runSimulator
  | .batch => runBatch
  | .inspector => runInspector

def run (tool : Tool) (words : List String) : Job Unit :=
  match tool.usage.read words with
  | .ok a => tool.work a
  | .error dismissal => Job.fail (.exit dismissal.exitCode)

end Tool

end TapeMachine

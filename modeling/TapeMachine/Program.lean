import TapeMachine.Desk
import TapeMachine.Machine.Watch
import TapeMachine.RunRecord

/-!
# Programs

A program is a file with the source of a machine.  To simulate it is to run its machine on a tape
and to make a record of the run.

* `Program.load`: the machine of a file.
* `Program.tapeOf`, `Program.limitOf`: tapes and step limits that were given as values.
* `Program.simulate`: the record of a run.
-/

namespace TapeMachine

/-- How programs are simulated.  The tape is a value that should be a text. -/
structure Plan where
  tape : Json := .str ""
  kind : KindSpec := .named (.str "bool")
  maxSteps : Int := 1000000
  logFrequency : Int := 10000
  trimBlanks : Bool := true
  verbose : Bool := false

namespace Job

/-- A line on the console, marked with the name of the working folder. -/
def console (text : String) : Job Unit := do say s!"[{← workName}] {text}\n"

def progressLine (name : String) (steps : Nat) : String :=
  s!"[INFO] {name}: {Text.grouped steps} steps so far..."

def replay (name : String) (w : Watch) : Job Unit := do
  w.marks.forM fun steps => console (progressLine name steps)
  if w.broken then fail .noPeriod

/-- Runs a machine and shows its progress if asked to. -/
def runMachine (m : Machine) (limit period : Int) (name : String) (verbose : Bool) : Job Run := do
  let w := m.watch limit (if verbose then some period else none)
  replay name w
  return w.run

end Job

namespace Program

def load (path : String) (kind : KindSpec) : Job Machine := do
  let source ← Job.readText path
  Job.take .spec (kind.machineOfSource source)

/-- The tape of a value that should be a text.  The kind is looked at before the value. -/
def tapeOf (kind : KindSpec) : Json → Except Fault Tape
  | .str text => (kind.tapeOfText text).mapError .spec
  | value => do
    let _ ← (resolved kind).mapError .spec
    .error (.badTape value)

def loadWithTape (path : String) (tape : Json) (kind : KindSpec) : Job Machine := do
  let m ← load path kind
  return m.insertTape (← Job.take id (tapeOf kind tape))

/-- A step limit as a value: a number, or a truth value for its number.  An infinite one stands
above all other numbers. -/
def limitOf : Json → Except Fault Int
  | .int n => .ok n
  | .bool b => .ok (if b then 1 else 0)
  | .real x => .ok ((x.countBelow?).getD (Nat.pow 2 1024))
  | value => .error (.badLimit value)

def simulate (path : String) (plan : Plan) : Job RunRecord := do
  let m ← loadWithTape path plan.tape plan.kind
  let r ← Job.runMachine m plan.maxSteps plan.logFrequency (Path.baseName path) plan.verbose
  return .ofRun path r plan.trimBlanks (← Job.now)

end Program

end TapeMachine

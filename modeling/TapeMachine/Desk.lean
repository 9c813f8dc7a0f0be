import TapeMachine.Fault
import TapeMachine.Grid
import TapeMachine.Moment
import TapeMachine.Text.Newline

/-!
# The desk

The tools work at a desk: it has a disk, a clock, a reader with answers at hand, and a record of
what was shown.  A job is what a tool does there; a fault ends it, and what was done until then
stays.

* `Job`, `Desk.perform`: what is done at a desk.
* `Job.ask`, `Job.say`, `Job.readText`, …: the single doings of a job.
-/

namespace TapeMachine

/-- A question with the answer that counts if none is given. -/
structure Question where
  prompt : String
  preset : Json
  /-- The answers to choose from, if the question names them. -/
  choices : Option (List String)

/-- What a tool hands to the console, as it hands it.  How the console draws it, wraps its lines and
reads its markup is not told here, and it is taken to accept whatever it is handed. -/
inductive Event
  /-- Plain output. -/
  | out (text : String)
  /-- A line, with or without markup in it. -/
  | print (text : String) (hasMarkup : Bool)
  | table (grid : Grid)
  | ask (question : Question)
  | progress (done total : Nat)

structure Desk where
  disk : Disk
  clock : Moment
  /-- The answers that the reader will give. -/
  answers : List Json
  events : Array Event
  /-- How many brackets may be open at once in a text that is read. -/
  nesting : Nat
  nesting_pos : 0 < nesting

namespace Desk

/-- The nesting where a tool is called by itself; each call around it takes the place of a bracket. -/
def usualNesting : Nat := 986

theorem usualNesting_pos : 0 < usualNesting := Nat.succ_pos 985

end Desk

abbrev Job := ExceptT Fault (StateM Desk)

def Desk.perform {α : Type} (d : Desk) (job : Job α) : Except Fault α × Desk :=
  (ExceptT.run job).run d

namespace Job

/-! ## Faults -/

def fail {α : Type} (fault : Fault) : Job α := throw fault

def take {ε α : Type} (wrap : ε → Fault) : Except ε α → Job α
  | .ok a => pure a
  | .error e => fail (wrap e)

def attempt {α : Type} (job : Job α) : Job (Except Fault α) :=
  tryCatch (.ok <$> job) fun fault => pure (.error fault)

/-- Does a job, and another one in its place if a fault of the given sort ends it. -/
def rescue {α : Type} (sort : Fault → Bool) (job : Job α) (other : Fault → Job α) : Job α :=
  tryCatch job fun fault => if sort fault then other fault else fail fault

/-! ## Showing and asking -/

/-- Hands something to the console, which never refuses it. -/
def emit (event : Event) : Job Unit := modify fun d => { d with events := d.events.push event }

def say (text : String) : Job Unit := emit (.out text)

def print (text : String) : Job Unit := emit (.print text true)

def printStyled (style text : String) : Job Unit := print (markup style text)

/-- The next answer; null stands for the preset one. -/
def ask (question : Question) : Job Json := do
  emit (.ask question)
  match (← get).answers with
  | [] => fail .noAnswer
  | answer :: answers =>
    modify fun d => { d with answers }
    return match answer with
      | .null => question.preset
      | answer => answer

def now : Job Moment := return (← get).clock

/-! ## Files -/

def workName : Job String := return (← get).disk.work.getLast?.getD ""

/-- Changes the disk by an operation that can fail halfway. -/
def onDisk (op : Disk → Disk × Except DiskFault Unit) : Job Unit := do
  let d ← get
  let (disk, result) := op d.disk
  set { d with disk }
  take .disk result

/-- Changes the disk by an operation that does all or nothing. -/
def changeDisk (op : Disk → Except DiskFault Disk) : Job Unit :=
  onDisk fun d =>
    match op d with
    | .ok d' => (d', .ok ())
    | .error fault => (d, .error fault)

/-- The text of a file, its lines ended by line feeds. -/
def readText (path : String) : Job String := do
  let bytes ← take .disk ((← get).disk.read path)
  let text ← take .encoding (Text.decodeUtf8 bytes)
  return String.ofList (Text.normalizeNewlines text.toList)

def writeText (path text : String) : Job Unit :=
  changeDisk fun d => d.write path (Text.encodeUtf8 text)

def appendText (path text : String) : Job Unit :=
  changeDisk fun d => d.append path (Text.encodeUtf8 text)

def makeFolders (path : String) : Job Unit := onDisk fun d => d.makeFolders path

end Job

end TapeMachine

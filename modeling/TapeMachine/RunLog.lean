import TapeMachine.Desk
import TapeMachine.Json.Printer

/-!
# Run logs

A log keeps records in files of one line for each record.  Its main file gets every record; three
more files get the records of runs that halted, that did not halt and that failed.  The files are
named for the date of the log, which changes only when the log is turned to a new day.

* `RunLog.create`, `RunLog.rotate`: the log of the day.
* `RunLog.record`: a record in the main file and in the file of its outcome.
* `RunLog.writeWithin`, `RunLog.recordWithin`: the same for any entries, which may be refused.
-/

namespace TapeMachine

structure RunLog where
  directory : String
  /-- What the name of the main file starts with. -/
  fileStart : String
  date : String
  deriving DecidableEq, Repr

inductive Outcome
  | halting
  | nonHalting
  | failed
  deriving DecidableEq, Repr

def Outcome.fileStart : Outcome → String
  | .halting => "halting_"
  | .nonHalting => "non_halting_"
  | .failed => "failed_"

namespace RunLog

/-! ## Files -/

def fileIn (log : RunLog) (start : String) : String :=
  Path.join log.directory (start ++ log.date ++ ".jsonl")

def mainFile (log : RunLog) : String := log.fileIn log.fileStart

def outcomeFile (log : RunLog) (outcome : Outcome) : String := log.fileIn outcome.fileStart

def lines (entries : List Json) : String := String.join (entries.map fun e => e.render ++ "\n")

/-- The outcome that an entry tells of; an entry without an error must say whether it halted. -/
def outcome (entry : Json) : Except Json.MemberFault Outcome := do
  if ← entry.mentions "error" then return .failed
  else return if (← entry.member "halted").isSet then .halting else .nonHalting

/-! ## Jobs -/

/-- The log of the day in a folder that is made if need be. -/
def create (directory fileStart : String) : Job RunLog := do
  Job.makeFolders directory
  return ⟨directory, fileStart, (← Job.now).date⟩

def rotate (log : RunLog) : Job RunLog := return { log with date := (← Job.now).date }

def write (log : RunLog) (entries : List Json) : Job Unit :=
  Job.appendText log.mainFile (lines entries)

def writeOutcome (log : RunLog) (outcome : Outcome) (entries : List Json) : Job Unit :=
  Job.appendText (log.outcomeFile outcome) (lines entries)

def record (log : RunLog) (entry : Json) : Job Unit := do
  log.write [entry]
  log.writeOutcome (← Job.take .member (outcome entry)) [entry]

/-! ## Jobs within limits

An entry beyond the limits is refused; the lines of the entries before it are there by then. -/

/-- The entries before the first one that is refused. -/
def taken (limits : Json.Limits) (entries : List Json) : List Json :=
  entries.takeWhile fun e => (e.refusal? limits).isNone

/-- Whether all entries are taken, or else why the first one that is refused is. -/
def verdict (limits : Json.Limits) (entries : List Json) : Except Json.WriteFault Unit :=
  match entries.findSome? (Json.refusal? limits) with
  | some fault => .error fault
  | none => .ok ()

def writeWithin (limits : Json.Limits) (log : RunLog) (entries : List Json) : Job Unit := do
  log.write (taken limits entries)
  Job.take .unwritten (verdict limits entries)

def noteWithin (limits : Json.Limits) (log : RunLog) (entry : Json) : Job Unit :=
  log.writeWithin limits.inner [entry]

def writeOutcomeWithin (limits : Json.Limits) (log : RunLog) (outcome : Outcome)
    (entries : List Json) : Job Unit := do
  log.writeOutcome outcome (taken limits.inner entries)
  Job.take .unwritten (verdict limits.inner entries)

def recordWithin (limits : Json.Limits) (log : RunLog) (entry : Json) : Job Unit := do
  log.noteWithin limits.inner entry
  log.writeOutcomeWithin limits.inner (← Job.take .member (outcome entry)) [entry]

end RunLog

end TapeMachine

import TapeMachine.Machine
import TapeMachine.Moment

/-!
# Run records

A record tells how the run of a program came out: how many steps it took, whether it halted, what
state and tape it left, and the fault that ended it, if one did.
-/

namespace TapeMachine

structure RunRecord where
  program : String
  steps : Option Int
  halted : Bool
  finalState : Option Atom
  /-- The text forms of the cells, none for a blank. -/
  tape : List (Option String)
  time : Moment
  error : Option String
  deriving DecidableEq, Repr

namespace RunRecord

def cellText (a : Atom) : Option String := if a = .blank then none else some a.render

def recorded (t : Tape) (trimBlanks : Bool) : List Atom :=
  if trimBlanks then t.trimmed else t.contents

/-- The record of a run, or of a program without a machine. -/
def make (program : String) (machine : Option Machine) (steps : Option Int) (halted : Bool)
    (trimBlanks : Bool) (error : Option String) (time : Moment) : RunRecord where
  program := program
  steps := steps
  halted := halted
  finalState := machine.map Machine.state
  tape := (machine.map fun m => (recorded m.tape trimBlanks).map cellText).getD []
  time := time
  error := error

/-- The record of a run by its ending; a missing rule is the error. -/
def ofRun (program : String) (r : Run) (trimBlanks : Bool) (time : Moment) : RunRecord :=
  let error := if r.ending = .stuck then some (r.machine.missing none).message else none
  make program (some r.machine) (some r.steps) (r.ending = .halted) trimBlanks error time

/-- The record of a program that could not be read. -/
def ofUnreadable (program error : String) (time : Moment) : RunRecord :=
  make program none none false true (some error) time

/-! ## Forms -/

def cellJson : Option String → Json
  | none => .null
  | some s => .str s

def toJson (r : RunRecord) : Json :=
  .obj ([
    ("program", .str r.program),
    ("steps_taken", (r.steps.map Json.int).getD .null),
    ("halted", .bool r.halted),
    ("final_state", (r.finalState.map Atom.toJson).getD .null),
    ("tape", .arr (r.tape.map cellJson)),
    ("timestamp", .str r.time.stamp)
  ] ++ (r.error.map fun e => ("error", Json.str e)).toList)

def tapeLine (r : RunRecord) : String := ", ".intercalate (r.tape.map fun c => c.getD "None")

/-- How truth values are shown in summaries. -/
def truthWord (b : Bool) : String := if b then "True" else "False"

def summary (r : RunRecord) : String :=
  let steps := (r.steps.map toString).getD "None"
  s!"{r.program}: halted={truthWord r.halted} steps={steps} tape=[{r.tapeLine}]"

end RunRecord

end TapeMachine

import TapeMachine.Program
import TapeMachine.RunLog

/-!
# Batches

A batch simulates programs one after the other.  A program that cannot be read is recorded as such
and does not stop the batch.
-/

namespace TapeMachine.Batch

def entry (path : String) (plan : Plan) : Job RunRecord :=
  Job.rescue Fault.isUnreadable (Program.simulate path { plan with verbose := false }) fun fault =>
    return .ofUnreadable path fault.message (← Job.now)

def remark? (r : RunRecord) (maxSteps : Int) : Option String :=
  match r.error with
  | some error => some s!"[WARNING] {r.program}: {error}"
  | none =>
    if r.halted then none
    else some s!"[INFO] {r.program} did not halt within {Text.grouped maxSteps} steps."

/-- Simulates a program, remarks on its record and logs it. -/
def runOne (path : String) (plan : Plan) (log : Option RunLog) : Job RunRecord := do
  let r ← entry path plan
  (remark? r plan.maxSteps).forM Job.console
  log.forM fun log => log.record r.toJson
  return r

/-- Simulates programs after `done` of `total` ones. -/
def runFrom (done total : Nat) (plan : Plan) (log : Option RunLog) :
    List String → Job (List RunRecord)
  | [] => return []
  | path :: paths => do
    let r ← runOne path plan log
    Job.emit (.progress (done + 1) total)
    return r :: (← runFrom (done + 1) total plan log paths)

/-- Runs a batch; the log is turned to the day first and comes back with the records. -/
def run (paths : List String) (plan : Plan) (log : Option RunLog) :
    Job (List RunRecord × Option RunLog) := do
  Job.console s!"Loaded {Text.grouped paths.length} programs."
  let log ← log.mapM RunLog.rotate
  let records ← runFrom 0 paths.length plan log paths
  Job.console "[SUCCESS] All programs simulated."
  return (records, log)

end TapeMachine.Batch

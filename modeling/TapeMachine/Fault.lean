import TapeMachine.Config
import TapeMachine.Disk
import TapeMachine.Json.Member
import TapeMachine.Json.Printer
import TapeMachine.Json.Reader
import TapeMachine.Source
import TapeMachine.Table.Order
import TapeMachine.Text.Utf8

/-!
# Faults

Everything that can end a job of the tools before it is done, by cause.
-/

namespace TapeMachine

inductive Fault
  | spec (fault : SpecFault)
  | missing (rule : MissingRule)
  | order (fault : OrderFault)
  | disk (fault : DiskFault)
  | encoding (fault : Text.Utf8Fault)
  | json (fault : Json.ReadFault)
  | unwritten (fault : Json.WriteFault)
  | update (fault : UpdateFault)
  | setting (fault : SettingFault)
  | noConfig (path : String)
  | member (fault : Json.MemberFault)
  | noPeriod
  | noAnswer
  | badLimit (limit : Json)
  | badPath (path : Json)
  | badTape (text : Json)
  /-- A number stands for a channel that is open; a negative one for none at all. -/
  | closedChannel
  | negativeChannel
  | exit (code : Nat)

namespace Fault

def message : Fault → String
  | .spec fault => fault.message
  | .missing rule => rule.message
  | .order fault => fault.message
  | .disk fault => fault.message
  | .encoding fault => fault.message
  | .json fault => fault.message
  | .unwritten fault => fault.message
  | .update fault => fault.message
  | .setting fault => fault.message
  | .noConfig path => s!"Configuration file not found at: {path}"
  | .member fault => fault.message
  | .noPeriod => "integer modulo by zero"
  | .noAnswer => "no more answers"
  | .badLimit limit => s!"'<' not supported between instances of 'int' and '{limit.kindName}'"
  | .badPath path => s!"expected str, bytes or os.PathLike object, not {path.kindName}"
  | .badTape text => s!"'{text.kindName}' object has no attribute 'strip'"
  | .closedChannel => "[Errno 9] Bad file descriptor"
  | .negativeChannel => "negative file descriptor"
  | .exit code => toString code

/-- Whether a program could not be read: its source is wrong, or the disk does not give it. -/
def isUnreadable : Fault → Bool
  | .spec (.source _) => true
  | .disk (.system _ _) => true
  | .closedChannel => true
  | _ => false

def isSetting : Fault → Bool
  | .setting _ => true
  | _ => false

def isAbsence : Fault → Bool
  | .noConfig _ => true
  | .disk (.system .missing _) => true
  | _ => false

end Fault

end TapeMachine

import TapeMachine.Tool
import Std.Time.DateTime.Timestamp

/-!
# The command line

The first word names the tool; without the name of a tool it is the simulator.  The tools work on a
copy of the working folder, and what they changed is written back at the end.  A job that needs an
answer is done again from the start once the reader has given it, and shows only what is new.
-/

namespace TapeMachine.Main

def toolOf : List String → Tool × List String
  | "simulate" :: words => (.batch, words)
  | "inspect" :: words => (.inspector, words)
  | words => (.simulator, words)

/-! ## The working folder -/

/-- Puts an entry of a folder on a disk, with everything below it. -/
partial def copyEntry (disk : Disk) (folder : String) (entry : IO.FS.DirEntry) : IO Disk := do
  let path := Path.join folder entry.fileName
  if ← entry.path.isDir then
    let entries ← entry.path.readDir
    entries.foldlM (fun disk e => copyEntry disk path e) (disk.makeFolders path).1
  else
    let bytes ← IO.FS.readBinFile entry.path
    return (disk.write path bytes.toList).toOption.getD disk

def copyFolder : IO Disk := do
  let folder ← IO.currentDir
  let entries ← folder.readDir
  entries.foldlM (fun disk e => copyEntry disk "" e) (Disk.new (Path.names folder.toString))

def writeBack (before after : Disk) : IO Unit := do
  for path in after.folders do IO.FS.createDirAll path
  for (path, bytes) in after.changedSince before do
    IO.FS.writeBinFile path ⟨bytes.toArray⟩

def now : IO Moment := do
  let time ← Std.Time.Timestamp.now
  return .ofMicros (time.toNanosecondsSinceUnixEpoch.val / 1000).toNat

/-! ## The reader -/

def showGrid (g : Grid) : IO Unit := do
  g.title.forM IO.println
  for cells in g.columns :: g.rows do IO.println ("\t".intercalate cells)

def showQuestion (q : Question) : IO Unit := do
  let choices := (q.choices.map fun names => " " ++ Text.bracketed names).getD ""
  IO.print s!"{q.prompt}{choices} ({q.preset.display}): "

def showEvent : Event → IO Unit
  | .out text => IO.print text
  | .print text _ => IO.println text
  | .table grid => showGrid grid
  | .ask question => showQuestion question
  | .progress _ _ => pure ()

/-- Takes a line as an answer of the kind of the preset one; an empty line is no answer. -/
def answerOf (q : Question) (line : String) : Json :=
  let text := Text.stripped line
  if text = "" then .null
  else
    match q.preset with
    | .int _ =>
      match Text.readInt text with
      | .ok n => .int n
      | .error _ => .str text
    | .bool _ => .bool (text = "y")
    | _ => .str text

/-- Does a job, asking the reader for answers as they are needed. -/
partial def attend (job : Job Unit) (desk : Desk) (shown : Nat) :
    IO (Except Fault Unit × Desk) := do
  let (result, after) := desk.perform job
  for event in after.events.toList.drop shown do showEvent event
  match result, after.events.back? with
  | .error .noAnswer, some (.ask question) =>
    let line ← (← IO.getStdin).getLine
    if line = "" then return (result, after)
    let answers := desk.answers ++ [answerOf question line]
    attend job { desk with answers } after.events.size
  | _, _ => return (result, after)

def exitCode : Except Fault Unit → IO UInt32
  | .ok () => return 0
  | .error (.exit code) => return code.toUInt32
  | .error fault => do
    IO.eprintln fault.message
    return 1

def run (words : List String) : IO UInt32 := do
  let disk ← copyFolder
  let (tool, words) := toolOf words
  let desk : Desk := ⟨disk, ← now, [], #[], Desk.usualNesting, Desk.usualNesting_pos⟩
  let (result, desk) ← attend (tool.run words) desk 0
  writeBack disk desk.disk
  exitCode result

end TapeMachine.Main

def main (words : List String) : IO UInt32 := TapeMachine.Main.run words

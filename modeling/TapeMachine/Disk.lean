import TapeMachine.Pairs
import TapeMachine.Path
import TapeMachine.Text.Quoted

/-!
# The disk

A disk is a tree of folders and files, kept as a list of places with what is there.  One folder is
the working folder: paths start there unless they start with a slash.

* `Disk.read`, `Disk.write`, `Disk.append`: whole files.
* `Disk.makeFolders`: a folder with the folders above it.
* `Disk.walk`, `Disk.spot`: what a path leads to, and where it would put something new.
-/

namespace TapeMachine

/-- The names on the way from the root. -/
abbrev Place := List String

inductive Node
  | folder
  | file (bytes : List UInt8)
  deriving DecidableEq, Repr

/-- What the system complains of. -/
inductive DiskCause
  | missing
  | taken
  | notFolder
  | isFolder
  | tooLong
  deriving DecidableEq, Repr

namespace DiskCause

def number : DiskCause → Nat
  | .missing => 2
  | .taken => 17
  | .notFolder => 20
  | .isFolder => 21
  | .tooLong => 36

def text : DiskCause → String
  | .missing => "No such file or directory"
  | .taken => "File exists"
  | .notFolder => "Not a directory"
  | .isFolder => "Is a directory"
  | .tooLong => "File name too long"

end DiskCause

inductive DiskFault
  | system (cause : DiskCause) (path : String)
  | nulByte
  /-- Too many folders are to be made one in the other. -/
  | tooDeep
  deriving DecidableEq, Repr

def DiskFault.message : DiskFault → String
  | .system cause path => s!"[Errno {cause.number}] {cause.text}: {Text.quoted path}"
  | .nulByte => "embedded null byte"
  | .tooDeep => "maximum recursion depth exceeded"

structure Disk where
  nodes : List (Place × Node)
  /-- The place of the working folder. -/
  work : Place

namespace Disk

def new (work : Place) : Disk :=
  ⟨(List.range work.length).map fun n => (work.take (n + 1), .folder), work⟩

/-! ## Places -/

/-- What is at a place; the root is always a folder. -/
def node? (d : Disk) (p : Place) : Option Node :=
  if p = [] then some .folder else d.nodes.lookup p

def put (d : Disk) (p : Place) (node : Node) : Disk := { d with nodes := Pairs.put p node d.nodes }

theorem node?_put (d : Disk) {p : Place} (hp : p ≠ []) (q : Place) (node : Node) :
    (d.put p node).node? q = if q = p then some node else d.node? q := by
  simp only [node?, put, Pairs.lookup_put, beq_iff_eq]
  split
  · next hq => simp [hq, Ne.symm hp]
  · rfl

@[simp]
theorem work_put (d : Disk) (p : Place) (node : Node) : (d.put p node).work = d.work := rfl

/-! ## Ways -/

def nameLimit : Nat := 255

/-- The least number of bytes that a path cannot have. -/
def pathLimit : Nat := 4096

def look (d : Disk) (p : Place) (name : String) : Except DiskCause (Option Node) :=
  if nameLimit < name.utf8ByteSize then .error .tooLong else .ok (d.node? (p ++ [name]))

/-- Goes by names from a place that exists. -/
def walk (d : Disk) (p : Place) : List String → Except DiskCause Place
  | [] => .ok p
  | name :: names =>
    if d.node? p ≠ some .folder then .error .notFolder
    else if name = Path.here then d.walk p names
    else if name = Path.above then d.walk p.dropLast names
    else
      match d.look p name with
      | .error cause => .error cause
      | .ok none => .error .missing
      | .ok (some _) => d.walk (p ++ [name]) names

def startOf (d : Disk) (path : String) : Place := if Path.fromRoot path then [] else d.work

/-- The place a path leads to.  A slash at the end asks for a folder. -/
def find (d : Disk) (path : String) : Except DiskCause Place :=
  if path = "" then .error .missing
  else if pathLimit ≤ path.utf8ByteSize then .error .tooLong
  else
    let names := Path.names path
    d.walk (d.startOf path) (if Path.endsInSlash path then names ++ [Path.here] else names)

/-- Where the last name of a path stands: in a folder that exists, if it is a name of its own. -/
inductive Spot
  | named (folder : Place) (name : String)
  | unnamed

/-- The spot of the last name of a path, whose slashes at the end do not count. -/
def spot (d : Disk) (path : String) : Except DiskCause Spot :=
  if pathLimit ≤ path.utf8ByteSize then .error .tooLong
  else
    match (Path.names path).getLast? with
    | none => if path = "" then .error .missing else .ok .unnamed
    | some name =>
      match d.walk (d.startOf path) (Path.names path).dropLast with
      | .error cause => .error cause
      | .ok p =>
        if d.node? p ≠ some .folder then .error .notFolder
        else if name = Path.here ∨ name = Path.above then .ok .unnamed
        else .ok (.named p name)

def hasNul (path : String) : Bool := path.toList.contains '\x00'

/-- Names the path in a complaint; a path with a NUL is refused before. -/
def named {α : Type} (path : String) (result : Except DiskCause α) : Except DiskFault α :=
  if hasNul path then .error .nulByte
  else
    match result with
    | .ok a => .ok a
    | .error cause => .error (.system cause path)

/-! ## Questions -/

def nodeAt? (d : Disk) (path : String) : Option Node :=
  if hasNul path then none
  else
    match d.find path with
    | .ok p => d.node? p
    | .error _ => none

/-- What is at a path, if anything; a name that is too long is complained of. -/
def nodeNamed? (d : Disk) (path : String) : Except DiskFault (Option Node) :=
  if hasNul path then .ok none
  else
    match d.find path with
    | .ok p => .ok (d.node? p)
    | .error .tooLong => .error (.system .tooLong path)
    | .error _ => .ok none

def exists? (d : Disk) (path : String) : Bool := (d.nodeAt? path).isSome

def isFolder (d : Disk) (path : String) : Bool := d.nodeAt? path == some .folder

def entries (d : Disk) (path : String) : List String :=
  match d.find path with
  | .error _ => []
  | .ok p =>
    d.nodes.filterMap fun m => if m.1.dropLast = p ∧ m.1 ≠ [] then m.1.getLast? else none

/-! ## Files -/

def read (d : Disk) (path : String) : Except DiskFault (List UInt8) :=
  named path <|
    match d.find path with
    | .error cause => .error cause
    | .ok p =>
      match d.node? p with
      | some (.file bytes) => .ok bytes
      | some .folder => .error .isFolder
      | none => .error .missing

/-- The place of a file that is to be written, with what is in it already. -/
def target (d : Disk) (path : String) : Except DiskFault (Place × List UInt8) :=
  named path <|
    match d.spot path with
    | .error cause => .error cause
    | .ok .unnamed => .error .isFolder
    | .ok (.named p name) =>
      if Path.endsInSlash path then .error .isFolder
      else
        match d.look p name with
        | .error cause => .error cause
        | .ok none => .ok (p ++ [name], [])
        | .ok (some (.file bytes)) => .ok (p ++ [name], bytes)
        | .ok (some .folder) => .error .isFolder

def write (d : Disk) (path : String) (bytes : List UInt8) : Except DiskFault Disk :=
  (d.target path).map fun t => d.put t.1 (.file bytes)

/-- Makes the file if it is not there. -/
def append (d : Disk) (path : String) (bytes : List UInt8) : Except DiskFault Disk :=
  (d.target path).map fun t => d.put t.1 (.file (t.2 ++ bytes))

/-! ## Folders -/

def makeFolder (d : Disk) (path : String) : Except DiskFault Disk :=
  named path <|
    match d.spot path with
    | .error cause => .error cause
    | .ok .unnamed => .error .taken
    | .ok (.named p name) =>
      match d.look p name with
      | .error cause => .error cause
      | .ok none => .ok (d.put (p ++ [name]) .folder)
      | .ok (some _) => .error .taken

/-- Makes a folder unless it is there. -/
def ensureFolder (d : Disk) (path : String) : Disk × Except DiskFault Unit :=
  match d.makeFolder path with
  | .ok d' => (d', .ok ())
  | .error fault =>
    match fault with
    | .system _ _ => if d.isFolder path then (d, .ok ()) else (d, .error fault)
    | _ => (d, .error fault)

/-- Makes a folder and, first, the folders above it, up to `depth` in all.  What was made before a
fault stays; a folder above that is there as something else is not complained of. -/
def makeFoldersWithin : Nat → Disk → String → Disk × Except DiskFault Unit
  | 0, d, _ => (d, .error .tooDeep)
  | depth + 1, d, path =>
    let (head, tail) := Path.parent path
    if head ≠ "" ∧ tail ≠ "" ∧ !d.exists? head then
      match makeFoldersWithin depth d head with
      | (d', .error (.system .taken _)) | (d', .ok ()) =>
        if tail = Path.here then (d', .ok ()) else d'.ensureFolder path
      | (d', .error fault) => (d', .error fault)
    else d.ensureFolder path

/-- The number of folders that can be made at once, one in the other. -/
def folderLimit : Nat := 990

def makeFolders (d : Disk) (path : String) : Disk × Except DiskFault Unit :=
  makeFoldersWithin folderLimit d path

/-! ## Views -/

/-- What a disk holds below its working folder, with paths from there. -/
def below (d : Disk) : List (String × Node) :=
  d.nodes.filterMap fun m =>
    if m.1.take d.work.length = d.work ∧ m.1.length ≠ d.work.length then
      some ("/".intercalate (m.1.drop d.work.length), m.2)
    else none

def folders (d : Disk) : List String :=
  (d.below.filterMap fun m => if m.2 = .folder then some m.1 else none).mergeSort fun a b => a ≤ b

def changedSince (d before : Disk) : List (String × List UInt8) :=
  let old := before.below
  d.below.filterMap fun m =>
    match m.2 with
    | .folder => none
    | .file bytes => if old.lookup m.1 = some (.file bytes) then none else some (m.1, bytes)

end Disk

end TapeMachine

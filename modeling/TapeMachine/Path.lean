import TapeMachine.Text.Blank

/-!
# Paths

A path is a text; slashes separate its names.  Programs join and shorten paths as texts, and show
them in a tidy form without empty names and without the names that stand for where one is.

* `Path.names`, `Path.join`, `Path.split`: paths as texts.
* `Path.tidy`, `Path.child`, `Path.baseName`: tidy paths.
-/

namespace TapeMachine.Path

open Text

/-- The name that stands for where one is. -/
def here : String := "."

/-- The name that stands for the folder above. -/
def above : String := ".."

def names (path : String) : List String :=
  ((splitAt '/' path.toList).filter fun piece => !piece.isEmpty).map String.ofList

def fromRoot (path : String) : Bool := path.toList.head? == some '/'

def endsInSlash (path : String) : Bool := path.toList.getLast? == some '/'

/-! ## Texts -/

/-- A name below a folder; a path from the root stays as it is. -/
def join (folder name : String) : String :=
  if fromRoot name then name
  else if folder = "" ∨ endsInSlash folder then folder ++ name
  else folder ++ "/" ++ name

def isSlash (c : Char) : Bool := c == '/'

/-- A path without the slashes at its end; a path of slashes stays as it is. -/
def dropSlashes (cs : List Char) : List Char :=
  if cs.all isSlash then cs else (cs.reverse.dropWhile isSlash).reverse

/-- What stands up to the last slash, and what stands after it. -/
def split (path : String) : String × String :=
  let cs := path.toList.reverse
  let tail := (cs.takeWhile fun c => !isSlash c).reverse
  let head := (cs.dropWhile fun c => !isSlash c).reverse
  (String.ofList (dropSlashes head), String.ofList tail)

/-- The folder and the last name of a path, whose slashes at the end do not count. -/
def parent (path : String) : String × String :=
  let (head, tail) := split path
  if tail = "" then split head else (head, tail)

/-! ## Tidy paths -/

/-- The slashes that a tidy path starts with: exactly two stay two, any other number makes one. -/
def rootOf (path : String) : String :=
  match path.toList with
  | '/' :: '/' :: '/' :: _ => "/"
  | '/' :: '/' :: _ => "//"
  | '/' :: _ => "/"
  | _ => ""

def tidyNames (path : String) : List String := (names path).filter (· ≠ here)

def ofNames (root : String) (names : List String) : String :=
  if root = "" ∧ names = [] then here else root ++ "/".intercalate names

def tidy (path : String) : String := ofNames (rootOf path) (tidyNames path)

/-- The tidy path of a name in a folder. -/
def child (folder name : String) : String := ofNames (rootOf folder) (tidyNames folder ++ [name])

def baseName (path : String) : String := (tidyNames path).getLast?.getD ""

end TapeMachine.Path

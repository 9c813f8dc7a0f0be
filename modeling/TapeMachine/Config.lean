import TapeMachine.Json.Member
import TapeMachine.Settings
import TapeMachine.SymbolKind

/-!
# Configurations

A configuration holds the eight settings that programs are run by.  Settings make a configuration
if each of the eight has a value of its kind and within its range.

* `Config.standard`: the default configuration.
* `Settings.validate`: the configuration that settings make.
-/

namespace TapeMachine

structure Config where
  maxSteps : Int
  symbolType : String
  windowRadius : Int
  logFrequency : Int
  trimBlanks : Bool
  outputDirectory : String
  logFileStart : String
  programsDirectory : String
  deriving DecidableEq, Repr

/-- What the value of a setting should be. -/
inductive SettingKind
  | number
  | text
  | truth
  deriving DecidableEq, Repr

def SettingKind.name : SettingKind → String
  | .number => "int"
  | .text => "str"
  | .truth => "bool"

inductive SettingFault
  | missing (name : String)
  | kind (name : String) (expected : SettingKind) (found : Json)
  | symbolType (name : String)
  | radius
  | limits
  | noObject (fault : Json.MemberFault)

def SettingFault.message : SettingFault → String
  | .missing name => s!"Missing required configuration key: {name}"
  | .kind name expected found =>
    s!"Config key '{name}' expected <class '{expected.name}'>, got <class '{found.kindName}'>."
  | .symbolType name =>
    s!"Unknown symbol_type '{name}', expected one of {SymbolKind.namesLiteral}."
  | .radius => "window_radius must not be negative."
  | .limits => "max_steps and log_frequency must be positive."
  | .noObject fault => fault.message

namespace Settings

/-! ## Single settings -/

def number (s : Settings) (name : String) : Except SettingFault Int :=
  match s.get? name with
  | none => .error (.missing name)
  | some (.int n) => .ok n
  | some value => .error (.kind name .number value)

def text (s : Settings) (name : String) : Except SettingFault String :=
  match s.get? name with
  | none => .error (.missing name)
  | some (.str t) => .ok t
  | some value => .error (.kind name .text value)

def truth (s : Settings) (name : String) : Except SettingFault Bool :=
  match s.get? name with
  | none => .error (.missing name)
  | some (.bool b) => .ok b
  | some value => .error (.kind name .truth value)

/-! ## Configurations -/

/-- The settings of an object; of another value the first setting is asked for in vain. -/
def ofJson : Json → Except SettingFault Settings
  | .obj members => .ok (ofMembers members)
  | value =>
    match value.mentions "max_steps" with
    | .ok false => .error (.missing "max_steps")
    | .ok true => .error (.noObject (.notObject value))
    | .error fault => .error (.noObject fault)

def readConfig (s : Settings) : Except SettingFault Config := do
  let maxSteps ← s.number "max_steps"
  let symbolType ← s.text "symbol_type"
  let windowRadius ← s.number "window_radius"
  let logFrequency ← s.number "log_frequency"
  let trimBlanks ← s.truth "trim_blanks"
  let outputDirectory ← s.text "output_directory"
  let logFileStart ← s.text "log_file_prefix"
  let programsDirectory ← s.text "programs_directory"
  return { maxSteps, symbolType, windowRadius, logFrequency, trimBlanks, outputDirectory,
           logFileStart, programsDirectory }

def checkRanges (c : Config) : Except SettingFault Unit :=
  if (SymbolKind.ofName? c.symbolType).isNone then .error (.symbolType c.symbolType)
  else if c.windowRadius < 0 then .error .radius
  else if c.maxSteps ≤ 0 ∨ c.logFrequency ≤ 0 then .error .limits
  else .ok ()

/-- Every setting must have its kind before any range is looked at. -/
def validate (s : Settings) : Except SettingFault Config := do
  let c ← s.readConfig
  checkRanges c
  return c

end Settings

namespace Config

def standard : Config where
  maxSteps := 1000000
  symbolType := "bool"
  windowRadius := 10
  logFrequency := 10000
  trimBlanks := true
  outputDirectory := "logs/"
  logFileStart := "turing_"
  programsDirectory := "programs/"

def toSettings (c : Config) : Settings :=
  .ofMembers [
    ("max_steps", .int c.maxSteps),
    ("symbol_type", .str c.symbolType),
    ("window_radius", .int c.windowRadius),
    ("log_frequency", .int c.logFrequency),
    ("trim_blanks", .bool c.trimBlanks),
    ("output_directory", .str c.outputDirectory),
    ("log_file_prefix", .str c.logFileStart),
    ("programs_directory", .str c.programsDirectory)
  ]

def kindSpec (c : Config) : KindSpec := .named (.str c.symbolType)

end Config

end TapeMachine

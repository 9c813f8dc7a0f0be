import TapeMachine.Desk

/-!
# Configuration files

A configuration file holds settings that are laid over the default ones.  Settings are only written
to a file if they make a configuration.

* `Setup.load`: the settings of a file.
* `Setup.save`: settings as a file.
-/

namespace TapeMachine

/-- Settings together with the configuration that they make. -/
structure Setup where
  settings : Settings
  config : Config

namespace Setup

/-- The file that the tools look for. -/
def standardPath : String := "config/runtime_config.json"

def standard : Setup := ⟨Config.standard.toSettings, Config.standard⟩

/-- The setup that the text of a file gives, if at most `nesting` brackets are open in it at once. -/
def ofText (nesting : Nat) (text : String) : Except Fault Setup := do
  let value ← (Json.readWithin nesting text).mapError .json
  let settings ← (standard.settings.update value).mapError .update
  let config ← settings.validate.mapError .setting
  return ⟨settings, config⟩

def listing (setup : Setup) (time : Moment) : String :=
  s!"[{time.clockText}] Loaded config:\n" ++ setup.settings.listing

/-- The setup of a file.  The folder for its logs is made. -/
def load (path : String) (verbose : Bool) : Job Setup := do
  unless (← get).disk.exists? path do Job.fail (.noConfig path)
  let setup ← Job.take id (ofText (← get).nesting (← Job.readText path))
  Job.makeFolders setup.config.outputDirectory
  if verbose then Job.say (setup.listing (← Job.now))
  return setup

def save (settings : Settings) (path : String) : Job Unit := do
  let _ ← Job.take .setting settings.validate
  Job.writeText path settings.toJson.renderIndented

/-- The setup of the standard file; without the file the tools give up. -/
def loadStandard : Job Setup :=
  Job.rescue Fault.isAbsence (load standardPath false) fun _ => do
    Job.printStyled "red" s!"Error: {standardPath} not found!"
    Job.fail (.exit 1)

end Setup

end TapeMachine

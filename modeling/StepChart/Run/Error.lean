import StepChart.Go.File
import StepChart.Run.Destination
import StepChart.Run.Fault
import StepChart.Settings

/-!
# Why a run ends early

Each cause has a message for the user and, except for settings that were put together from several
places, the fault behind it.
-/

namespace StepChart

open Syntax

/-- Why a run ends early. -/
inductive RunError where
  /-- The settings file that was asked for cannot be read. -/
  | unreadableSettings (path : String)
  /-- The settings file that was asked for gives no settings. -/
  | badSettingsFile (path : String) (error : SettingsError)
  /-- The settings cannot be used together with what the command line says. -/
  | badSettings (fault : SettingsFault)
  | unreadableSource (path : String)
  | badSource (path source : String) (error : Go.SyntaxError)
  /-- A guard of the source has no label. -/
  | badGuard (path : String) (error : LabelError)
  | unwritableDiagram (path : String)
deriving Repr, DecidableEq, Inhabited

namespace RunError

/-- The message for the user. -/
def message : RunError → String
  | .unreadableSettings path | .badSettingsFile path _ => "Failed to load configuration " ++ path
  | .badSettings fault => "Invalid configuration: " ++ fault.message
  | .unreadableSource path => "Failed to read " ++ path
  | .badSource path _ _ => "Failed to parse " ++ path
  | .badGuard path _ => "Failed to label the guards of " ++ path
  | .unwritableDiagram path => "Failed to write diagram to " ++ (Destination.file path).description

/-- The text of an error in a settings file. -/
def settingsText : SettingsError → String
  | .malformed => "Failed to parse .stepmap.toml"
  | .unusable fault => fault.message

/-- The fault behind the message. -/
def fault? : RunError → Option Fault
  | .unreadableSettings path => some (.fileSystem "Failed to read config file" (some path))
  | .badSettingsFile path error => some (.settings (path ++ ": " ++ settingsText error))
  | .badSettings _ => none
  | .unreadableSource path => some (.fileSystem "Failed to read file" (some path))
  | .badSource path source error => some (.source path (error.line source) (error.column source) "syntax error")
  | .badGuard _ (.noExcerpt .startInsideCharacter) => some (.output "a span starts inside a character")
  | .badGuard _ .outOfRange => some (.output "the room for a label is out of range")
  | .unwritableDiagram path => some (.fileSystem "Failed to create diagram file" (some path))

end RunError

end StepChart

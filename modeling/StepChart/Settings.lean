import StepChart.Analysis
import StepChart.Text.Blank
import StepChart.Toml.Document

/-!
# Settings

What a user can settle: the framework, the extension of diagram files and the room for labels.
Settings are read from a document in TOML; a key that is not there keeps its default, and keys that
are not known are passed over.
-/

namespace StepChart

open Text

/-- What a user can settle. -/
structure Settings where
  /-- The import path of the framework. -/
  framework : String := defaultFramework
  /-- What is written after the name of a diagram to make the name of its file. -/
  extension : String := ".plantuml"
  /-- The room for the label of a guard, in bytes. -/
  room : Nat := Guard.defaultRoom
deriving Repr, DecidableEq, Inhabited

/-- Why settings cannot be used. -/
inductive SettingsFault where
  | blankFramework
  | narrowRoom (room : Nat)
deriving Repr, DecidableEq, Inhabited

/-- The text of a fault. -/
def SettingsFault.message : SettingsFault → String
  | .blankFramework => "framework_package must not be empty"
  | .narrowRoom room => "max_condition_len must be at least 4, got " ++ toString room

/-- Why a document does not give settings. -/
inductive SettingsError where
  /-- It is not in TOML, or a value is not of the type it has to be. -/
  | malformed
  | unusable (fault : SettingsFault)
deriving Repr, DecidableEq, Inhabited

namespace Settings

/-- The least room for labels. -/
def leastRoom : Nat := 4

/-- What is wrong with settings. -/
def fault? (settings : Settings) : Option SettingsFault :=
  if isBlankText settings.framework then some .blankFramework
  else if settings.room < leastRoom then some (.narrowRoom settings.room)
  else none

/-- The largest number a document can give. -/
def largestNumber : Int := Int.ofNat (Nat.pow 2 64 - 1)

/-- The text of a key. -/
def textOf? (entries : Toml.Entries) (key default : String) : Option String :=
  match entries.lookup key with
  | none => some default
  | some (.text value) => some value
  | some _ => none

/-- The natural number of a key. -/
def numberOf? (entries : Toml.Entries) (key : String) (default : Nat) : Option Nat :=
  match entries.lookup key with
  | none => some default
  | some (.integer value) => if 0 ≤ value ∧ value ≤ largestNumber then some value.toNat else none
  | some _ => none

/-- The settings in a document, with defaults for what it leaves out. -/
def ofEntries? (entries : Toml.Entries) : Option Settings := do
  let defaults : Settings := {}
  let framework ← textOf? entries "framework_package" defaults.framework
  let extension ← textOf? entries "diagram_extension" defaults.extension
  let room ← numberOf? entries "max_condition_len" defaults.room
  return { framework, extension, room }

/-- The settings that a text in TOML gives, before the check. -/
def parsed? (text : String) : Option Settings := (Toml.parse? text).bind ofEntries?

/-- Settings that pass the check, or else an error that says why they do not. -/
def checked {ε : Type} (error : SettingsFault → ε) (settings : Settings) : Except ε Settings :=
  match settings.fault? with
  | some fault => .error (error fault)
  | none => .ok settings

/-- The settings that a text gives. -/
def ofText (text : String) : Except SettingsError Settings :=
  match parsed? text with
  | none => .error .malformed
  | some settings => settings.checked .unusable

/-- What the analysis of a file takes from the settings. -/
def options (settings : Settings) : AnalysisOptions where
  framework := settings.framework
  room := settings.room

end Settings

end StepChart

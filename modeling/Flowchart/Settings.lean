import Flowchart.Decimal.Reading
import Flowchart.Log
import Flowchart.Text.Case
import Flowchart.Toml.Value

/-!
Settings: five keys, each with a default. A value is given as text and has to be of the kind of its
key.
-/
namespace Flowchart

structure Settings where
  logLevel : Log.Level := .warning
  outputSuffix : Text := ".mmd".toList
  watchInterval : Float := 1
  inkTheme : Text := "default".toList
  inkBackground : Text := "white".toList

namespace Settings

inductive Key where
  | logLevel
  | outputSuffix
  | watchInterval
  | inkTheme
  | inkBackground
  deriving DecidableEq, Repr

namespace Key

def name : Key → Text
  | logLevel => "log_level".toList
  | outputSuffix => "output_suffix".toList
  | watchInterval => "watch_interval".toList
  | inkTheme => "ink_theme".toList
  | inkBackground => "ink_background".toList

def all : List Key := [logLevel, outputSuffix, watchInterval, inkTheme, inkBackground]

def ofName? (word : Text) : Option Key := all.find? (·.name == word)

theorem ofName?_name (key : Key) : ofName? key.name = some key := by
  cases key <;> decide

end Key

/-- A value that a key does not admit. -/
inductive Refusal where
  | notNumber (raw : Text)
  | notLevel (raw : Text)
  deriving DecidableEq, Repr

def Refusal.message : Refusal → Text
  | notNumber raw => "could not convert string to float: ".toList ++ Text.quoted raw
  | notLevel raw => "invalid log level: ".toList ++ raw

def get (settings : Settings) : Key → Toml.Value
  | .logLevel => .text settings.logLevel.name
  | .outputSuffix => .text settings.outputSuffix
  | .watchInterval => .decimal settings.watchInterval
  | .inkTheme => .text settings.inkTheme
  | .inkBackground => .text settings.inkBackground

def withDot (suffix : Text) : Text := if suffix.head? = some '.' then suffix else '.' :: suffix

def level? (raw : Text) : Except Refusal Log.Level :=
  match Log.Level.ofName? (Text.upper raw) with
  | some level => .ok level
  | none => .error (.notLevel raw)

def number? (raw : Text) : Except Refusal Float :=
  match Decimal.read? raw with
  | some number => .ok number
  | none => .error (.notNumber raw)

/-- The value of the kind of a key that a text stands for. -/
def coerce : Key → Text → Except Refusal Toml.Value
  | .logLevel, raw => (level? raw).map fun level => .text level.name
  | .outputSuffix, raw => .ok (.text (withDot raw))
  | .watchInterval, raw => (number? raw).map .decimal
  | .inkTheme, raw | .inkBackground, raw => .ok (.text raw)

def put (settings : Settings) : Key → Text → Except Refusal Settings
  | .logLevel, raw => (level? raw).map fun level => { settings with logLevel := level }
  | .outputSuffix, raw => .ok { settings with outputSuffix := withDot raw }
  | .watchInterval, raw =>
    (number? raw).map fun number => { settings with watchInterval := number }
  | .inkTheme, raw => .ok { settings with inkTheme := raw }
  | .inkBackground, raw => .ok { settings with inkBackground := raw }

end Settings

end Flowchart

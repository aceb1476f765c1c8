import Flowchart.Command.Grammar
import Flowchart.Command.Words
import Flowchart.Decimal.Reading

/-!
Command lines with switches. Every command has its own switches and operands, and a switch that asks
for help; a command line that asks for nothing known is misused.
-/
namespace Flowchart

namespace Command

/-- The status of a command line that asks for nothing known. -/
def misused : Nat := 2

def usage : Text :=
  "Usage: flowdsl [--verbose] [--version] COMMAND ...\n\nCommands: ".toList ++
    ", ".toList.intercalate (Verb.all.map (·.name)) ++ ['\n']

def help : Aside := .answered 0 usage

def misuse : Aside := .answered misused []

def helpSwitch : Switch := { name := "--help".toList }

def versionSwitch : Switch := { name := "--version".toList, letter := some 'v' }

def verboseSwitch : Switch := { name := "--verbose".toList }

def outputSwitch : Switch := { name := "--output".toList, letter := some 'o', takesValue := true }

def fenceSwitch : Switch := { name := "--fence".toList }

def strictSwitch : Switch := { name := "--strict".toList }

def inPlaceSwitch : Switch := { name := "--in-place".toList, letter := some 'i' }

def dryRunSwitch : Switch := { name := "--dry-run".toList }

def forceSwitch : Switch := { name := "--force".toList, letter := some 'f' }

def imageSwitch : Switch := { name := "--png".toList, takesValue := true }

def intervalSwitch : Switch :=
  { name := "--interval".toList, letter := some 'i', takesValue := true }

def suffixSwitch : Switch := { name := "--suffix".toList, letter := some 's', takesValue := true }

namespace Words

def hasSwitch (words : Words) (switch : Switch) : Bool := words.has switch.name

def path? (words : Words) (switch : Switch) : Option Path :=
  (words.value? switch.name).map Path.ofText

end Words

/-- The first of the switches that ask for something else than a command. -/
def aside? (words : Words) : Option Aside :=
  words.switches.findSome? fun (name, _) =>
    if name = versionSwitch.name then some .version
    else if name = helpSwitch.name then some help
    else none

/-- The words behind a verb, sorted by the switches that it knows. -/
def sorted (known : List Switch) (mixed : Bool) (words : List Text) : Except Aside Words :=
  match Words.read? (helpSwitch :: known) mixed words with
  | none => .error misuse
  | some words =>
    match aside? words with
    | some aside => .error aside
    | none => .ok words

def Invocation.ofWords (words : List Text) : Except Aside Invocation := do
  let words ← sorted [versionSwitch, verboseSwitch] false words
  match words.operands with
  | [] => throw misuse
  | name :: rest =>
    match Verb.ofName? name with
    | some verb => return ⟨words.hasSwitch verboseSwitch, verb, rest⟩
    | none => throw misuse

/-- The only operand, or what stands for it. -/
def operandOr (standard : Text) (words : Words) : Except Aside Text :=
  match words.operands with
  | [] => .ok standard
  | [operand] => .ok operand
  | _ => .error misuse

def Task.ofSettings (words : List Text) : Except Aside Task := do
  match (← sorted [] false words).operands with
  | [] => throw misuse
  | name :: rest =>
    let ask (task : List Text → Option Task) : Except Aside Task := do
      match task (← sorted [] true rest).operands with
      | some task => return task
      | none => throw misuse
    if name = "show".toList then
      ask fun
        | [] => some .showSettings
        | _ => none
    else if name = "set".toList then
      ask fun
        | [key, value] => some (.changeSetting key value)
        | _ => none
    else if name = "reset".toList then
      ask fun
        | [] => some .resetSettings
        | _ => none
    else throw misuse

def ofWatch (words : List Text) : Except Aside Command := do
  let words ← sorted [intervalSwitch, suffixSwitch] true words
  let path ← operandOr ['.'] words
  let suffix := words.value? suffixSwitch.name
  match words.value? intervalSwitch.name with
  | none => return .watch path none suffix
  | some numeral =>
    match Decimal.read? numeral with
    | some interval => return .watch path (some interval) suffix
    | none => throw misuse

/-- The command of a verb and the words behind it. -/
def ofWords (verb : Verb) (words : List Text) : Except Aside Command :=
  match verb with
  | .compile => do
    let words ← sorted [outputSwitch, fenceSwitch] true words
    let source ← operandOr standardInput words
    return .task (.compile source (words.path? outputSwitch) (words.hasSwitch fenceSwitch))
  | .check => do
    let words ← sorted [strictSwitch] true words
    return .task (.check (← operandOr standardInput words) (words.hasSwitch strictSwitch))
  | .inspect => do
    let words ← sorted [] true words
    return .task (.inspect (← operandOr standardInput words))
  | .markdown => do
    let words ← sorted [outputSwitch, inPlaceSwitch] true words
    match words.operands with
    | [document] =>
      return .task
        (.markdown document (words.path? outputSwitch) (words.hasSwitch inPlaceSwitch))
    | _ => throw misuse
  | .rename => do
    let words ← sorted [dryRunSwitch] true words
    match words.operands with
    | [document, old, new] =>
      return .task (.rename document old new (words.hasSwitch dryRunSwitch))
    | _ => throw misuse
  | .template => do
    let words ← sorted [outputSwitch, forceSwitch] true words
    match words.operands with
    | [] => return .task (.template (words.path? outputSwitch) (words.hasSwitch forceSwitch))
    | _ => throw misuse
  | .url => do
    let words ← sorted [imageSwitch] true words
    return .task (.url (← operandOr standardInput words) (words.path? imageSwitch))
  | .config => (Task.ofSettings words).map .task
  | .watch => ofWatch words

/-- The command lines of the program. -/
def Grammar.switches : Grammar := ⟨Invocation.ofWords, ofWords⟩

end Command

end Flowchart

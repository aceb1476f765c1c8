import Flowchart.Text.Basic

/-!
The words of a command line: switches, some of which take a value, and operands. A value stands
behind an equals sign, behind a single-letter switch, or in the next word, whatever that word looks
like. Two dashes alone end the switches.
-/
namespace Flowchart.Command

structure Switch where
  name : Text
  letter : Option Char := none
  takesValue : Bool := false
  deriving DecidableEq, Repr

structure Words where
  /-- Names of switches with their values, in the order of writing; the value of a switch that takes
  none is empty. -/
  switches : List (Text × Text) := []
  operands : List Text := []
  deriving DecidableEq, Repr

namespace Words

/-- The value that was written last. -/
def value? (words : Words) (name : Text) : Option Text :=
  (words.switches.reverse.find? (·.1 = name)).map (·.2)

def has (words : Words) (name : Text) : Bool := words.switches.any (·.1 = name)

def add (words : Words) (switches : List (Text × Text)) : Words :=
  { words with switches := switches ++ words.switches }

/-- The switches in one word, and the last of them if its value is still to come. -/
abbrev Written := List (Text × Text) × Option Switch

/-- Letters behind a single dash; what follows the letter of a switch with a value is that value. -/
def ofLetters (known : List Switch) : Text → Option Written
  | [] => some ([], none)
  | c :: rest =>
    match known.find? (·.letter == some c) with
    | none => none
    | some switch =>
      if switch.takesValue then
        if rest = [] then some ([], some switch) else some ([(switch.name, rest)], none)
      else (ofLetters known rest).map fun (more, open?) => ((switch.name, []) :: more, open?)

def ofSwitch (known : List Switch) (word : Text) : Option Written :=
  let (name, value?) := match Text.cutAt? '=' word with
    | some (name, value) => (name, some value)
    | none => (word, none)
  match known.find? (·.name == name), value? with
  | some switch, some value =>
    if switch.takesValue then some ([(switch.name, value)], none) else none
  | some switch, none =>
    if switch.takesValue then some ([], some switch) else some ([(switch.name, [])], none)
  | none, _ => if word.take 2 = ['-', '-'] then none else ofLetters known (word.drop 1)

def looksLikeSwitch : Text → Bool
  | '-' :: _ :: _ => true
  | _ => false

/-- Sorts words into switches and operands, unless one is an unknown switch or a value is missing.
Unless they are `mixed`, the first operand ends the switches. -/
def read? (known : List Switch) (mixed : Bool) : List Text → Option Words
  | [] => some {}
  | word :: rest =>
    if word = ['-', '-'] then some { operands := rest }
    else if looksLikeSwitch word then
      match ofSwitch known word with
      | none => none
      | some (written, none) => (read? known mixed rest).map (·.add written)
      | some (written, some switch) =>
        match rest with
        | [] => none
        | value :: rest => (read? known mixed rest).map (·.add (written ++ [(switch.name, value)]))
    else if mixed then
      (read? known mixed rest).map fun words => { words with operands := word :: words.operands }
    else some { operands := word :: rest }

end Words

end Flowchart.Command

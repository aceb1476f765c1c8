import Flowchart.Declaration

/-!
Renaming a node throughout a source. The label is looked for where it can stand: in a declaration,
to the left of an arrow, and to the right of one. Each of the three places is one pass over the
whole source, and nothing but the label itself is rewritten.

Blanks around a label may cross line feeds, so a place can reach over empty lines.
-/
namespace Flowchart

/-- A place where a label can stand: what may lead up to the label, longest first, and what has to
follow it. Both give the part that belongs to the place and the rest of the text. -/
structure Place where
  leads : Bool → Text → List (Text × Text)
  trail? : Text → Option (Text × Text)

namespace Place

/-- The cuts of a text behind its leading blanks, longest first. -/
def blankCuts : Text → List (Text × Text)
  | [] => [([], [])]
  | c :: rest =>
    if Text.isBlank c then
      (blankCuts rest).map (fun (blanks, after) => (c :: blanks, after)) ++ [([], c :: rest)]
    else [([], c :: rest)]

def isArrow (c : Char) : Bool := c == '>' || c == '<'

/-- An arrow with the blanks around it. -/
def arrow? (text : Text) : Option (Text × Text) :=
  match Text.trimLeft text with
  | c :: after =>
    if isArrow c then some (Text.indent text ++ c :: Text.indent after, Text.trimLeft after)
    else none
  | [] => none

/-- The blanks up to the last line end that nothing visible comes before. -/
def lineEnd? (text : Text) : Option (Text × Text) :=
  if Text.trimLeft text = [] then some (text, [])
  else
    (blankCuts text).find? fun (_, after) => after.head? == some '\n'

/-- A mark after blanks, or the end of the line. -/
def markOrEnd? (mark : Char) (text : Text) : Option (Text × Text) :=
  match Text.trimLeft text with
  | c :: after =>
    if c = mark then some (Text.indent text ++ [mark], after) else lineEnd? text
  | [] => lineEnd? text

def declaration : Place where
  leads atStart text := if atStart then blankCuts text else []
  trail? := markOrEnd? '['

def leftOperand : Place where
  leads atStart text :=
    (if atStart then blankCuts text else []) ++
      match text with
      | c :: rest =>
        if isArrow c then
          ((blankCuts rest).filter (·.1 ≠ [])).map fun (blanks, after) => (c :: blanks, after)
        else []
      | [] => []
  trail? := arrow?

def rightOperand : Place where
  leads _ text :=
    match Text.trimLeft text with
    | c :: rest =>
      if isArrow c then
        (blankCuts rest).map fun (blanks, after) => (Text.indent text ++ c :: blanks, after)
      else []
    | [] => []
  trail? := markOrEnd? ':'

/-- The label at the start of a text with what belongs to its place before and after it, and the
rest of the text. -/
def occurrence? (place : Place) (label : Text) (atStart : Bool) (text : Text) :
    Option (Text × Text × Text) :=
  (place.leads atStart text).findSome? fun (lead, after) => do
    let behind ← Text.dropStart? label after
    let (trail, rest) ← place.trail? behind
    return (lead, trail, rest)

/-- Whether a line starts behind a part of a text, where `before` says it for the text itself. -/
def startsLine (before : Bool) (part : Text) : Bool :=
  match part.getLast? with
  | some c => c == '\n'
  | none => before

/-- Replaces the label at every occurrence of its place, from left to right; an occurrence begins
where the one before ended. -/
def replace (place : Place) (old new : Text) (atStart : Bool) (text : Text) : Text :=
  match place.occurrence? old atStart text, text with
  | some (lead, trail, rest), text =>
    if rest.length < text.length then
      lead ++ new ++ trail ++ replace place old new (startsLine atStart (lead ++ old ++ trail)) rest
    else
      new ++ match text with
        | [] => []
        | c :: rest => c :: replace place old new (c == '\n') rest
  | none, [] => []
  | none, c :: rest => c :: replace place old new (c == '\n') rest
termination_by text.length

end Place

/-- A new label without anything visible leaves the source as it is. -/
def rename (source old new : Text) : Text :=
  if old = new ∨ Text.trim new = [] then source
  else
    [Place.declaration, Place.leftOperand, Place.rightOperand].foldl
      (fun text place => place.replace old new true text) source

end Flowchart

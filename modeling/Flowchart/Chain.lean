import Flowchart.Declaration
import Flowchart.Diagram

/-!
Chains of edges on one line: operands between arrows that have blanks on both sides. A label follows
the first colon of the operand on the right.
-/
namespace Flowchart

inductive Arrow where
  | forward
  | backward
  deriving DecidableEq, Repr

namespace Arrow

def mark : Arrow → Char
  | forward => '>'
  | backward => '<'

def ofMark? (c : Char) : Option Arrow :=
  if c = '>' then some forward else if c = '<' then some backward else none

end Arrow

structure Link where
  left : Text
  arrow : Arrow
  right : Text
  deriving DecidableEq, Repr

namespace Chain

def startsBlank : Text → Bool
  | [] => false
  | c :: _ => Text.isBlank c

/-- An arrow with blanks around it at the start of a text, and the rest behind the blanks. -/
def arrow? (text : Text) : Option (Arrow × Text) :=
  if startsBlank text then
    match Text.trimLeft text with
    | c :: after =>
      if startsBlank after then (Arrow.ofMark? c).map fun arrow => (arrow, Text.trimLeft after)
      else none
    | [] => none
  else none

theorem length_lt_of_arrow? {text after : Text} {arrow : Arrow}
    (found : arrow? text = some (arrow, after)) : after.length < text.length := by
  have shorter (t : Text) : (Text.trimLeft t).length ≤ t.length :=
    (List.dropWhile_sublist _).length_le
  unfold arrow? at found
  split at found
  · split at found
    · rename_i c behind shown
      split at found
      · obtain ⟨_, _, same⟩ := Option.map_eq_some_iff.1 found
        have first := shorter text
        have second := shorter behind
        rw [shown, List.length_cons] at first
        rw [← (Prod.mk.inj same).2]
        omega
      · simp at found
    · simp at found
  · simp at found

/-- The text before the first arrow, and each arrow with the text behind it. -/
def split (text : Text) : Text × List (Arrow × Text) :=
  match found : arrow? text with
  | some (arrow, after) =>
    have := length_lt_of_arrow? found
    let (operand, more) := split after
    ([], (arrow, operand) :: more)
  | none =>
    match text with
    | [] => ([], [])
    | c :: rest =>
      let (operand, more) := split rest
      (c :: operand, more)
termination_by text.length

def pair : Text → List (Arrow × Text) → List Link
  | _, [] => []
  | left, (arrow, right) :: more => ⟨left, arrow, right⟩ :: pair right more

def links (line : Text) : List Link :=
  let (first, more) := split line
  pair (Text.trim first) (more.map fun (arrow, operand) => (arrow, Text.trim operand))

/-- The label behind a colon, if nothing but its last line holds something visible and that line is
not empty. -/
def labelAfter? (rest : Text) : Option Text :=
  let shown := if rest.getLast? = some '\n' then rest.dropLast else rest
  match (Text.lines shown).reverse with
  | [] => none
  | last :: before =>
    if last ≠ [] ∧ before.all (·.all Text.isBlank) then some (Text.trim rest) else none

def colonLabel? : Text → Option Text
  | ':' :: rest => labelAfter? rest
  | _ => none

/-- Separates the label from an operand. -/
def splitLabel (operand : Text) : Text × Option Text :=
  match Text.upTo? colonLabel? operand with
  | some (name, label) => (Text.trim name, some label)
  | none => (operand, none)

end Chain

namespace Link

/-- An arrow to the left is the same edge read the other way round. -/
def edge (link : Link) : Edge :=
  let (right, label) := Chain.splitLabel link.right
  let here := Ident.ofLabel (Text.stripQuotes link.left)
  let there := Ident.ofLabel (Text.stripQuotes right)
  match link.arrow with
  | .forward => ⟨here, there, label⟩
  | .backward => ⟨there, here, label⟩

end Link

namespace Chain

def edges (line : Text) : List Edge := (links line).map Link.edge

end Chain

end Flowchart

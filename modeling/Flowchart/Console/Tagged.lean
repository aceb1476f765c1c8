import Flowchart.Console
import Flowchart.Text.Case

/-!
A console that styles text by tags. A tag opens a style, and one with a slash closes the style of
its name, or the one that was opened last; there has to be one.
-/
namespace Flowchart

namespace Markup

/-- The style of a tag, without the value behind an equals sign. -/
def styleOf (tag : Text) : Text := Text.lower (Text.trim (tag.takeWhile (· != '=')))

/-- What is wrong with a tag at a place, or the styles that are open behind it, the last one first.
-/
def tagged (place : Nat) (styles : List Text) (tag : Text) : Except Text (List Text) :=
  match tag with
  | '/' :: name =>
    if styleOf name = [] then
      match styles with
      | [] => .error ("closing tag '[/]' at position ".toList ++ Text.ofNat place ++
          " has nothing to close".toList)
      | _ :: others => .ok others
    else if styles.contains (styleOf name) then .ok (styles.erase (styleOf name))
    else
      .error ("closing tag '[".toList ++ tag ++ "]' at position ".toList ++ Text.ofNat place ++
        " doesn't match any open tag".toList)
  | name => .ok (styleOf name :: styles)

/-- What is wrong with the first tag that closes nothing; `hidden` while a tag is passed over. -/
def strayFrom (place slashes : Nat) (hidden : Bool) (styles : List Text) : Text → Option Text
  | [] => none
  | c :: rest =>
    if hidden then strayFrom (place + 1) 0 (c != ']') styles rest
    else if c = '\\' then strayFrom (place + 1) (slashes + 1) false styles rest
    else if opensTag (c :: rest) ∧ slashes % 2 = 0 then
      match tagged place styles (rest.takeWhile (· != ']')) with
      | .error message => some message
      | .ok styles => strayFrom (place + 1) 0 true styles rest
    else strayFrom (place + 1) 0 false styles rest

def stray? (markup : Text) : Option Text := strayFrom 0 0 false [] markup

end Markup

/-- The pieces of a block that may hold markup. -/
def Block.pieces : Block → List Text
  | line markup => [markup]
  | table title columns rows => title :: columns ++ rows.flatten
  | panel title body => [title, body]

/-- The console of the program. -/
def Console.tagged : Console where
  escape := Markup.escape
  refusal? block := (block.pieces.findSome? Markup.stray?).map (⟨"markup".toList, ·⟩)

/-- Each of two labels is escaped for itself, but together they make a tag. -/
example : Console.tagged.refusal? (.line ("'".toList ++ Markup.escape "[/x".toList ++
    "' to '".toList ++ Markup.escape "y]".toList ++ ['\''])) =
    some ⟨"markup".toList,
      "closing tag '[/x' to 'y]' at position 1 doesn't match any open tag".toList⟩ := by
  decide +kernel

end Flowchart

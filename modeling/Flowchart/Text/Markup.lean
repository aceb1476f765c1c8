import Flowchart.Text.Basic

/-!
Console markup: a tag in square brackets styles what follows. Escaped text is shown as it is.
-/
namespace Flowchart.Markup

/-- What the first character of a tag can be. -/
def startsTag (c : Char) : Bool := ('a' ≤ c && c ≤ 'z') || c == '#' || c == '/' || c == '@'

/-- A text begins with a tag: after its first character, the bracket is closed before another opens.
-/
def opensTag : Text → Bool
  | '[' :: first :: rest =>
    startsTag first && rest.find? (fun c => c == '[' || c == ']') == some ']'
  | _ => false

/-- Puts a backslash before every tag and doubles the `slashes` backslashes that already are there.
-/
def escapeTags (slashes : Nat) : Text → Text
  | [] => []
  | c :: rest =>
    if c = '\\' then c :: escapeTags (slashes + 1) rest
    else if opensTag (c :: rest) then
      List.replicate (slashes + 1) '\\' ++ c :: escapeTags 0 rest
    else c :: escapeTags 0 rest

/-- A single backslash at the end would escape what is put behind the text. -/
def closeBackslash (text : Text) : Text :=
  match text.reverse with
  | '\\' :: '\\' :: _ => text
  | '\\' :: _ => text ++ ['\\']
  | _ => text

def escape (text : Text) : Text := closeBackslash (escapeTags 0 text)

/-- What a console without styles shows; `hidden` while a tag is passed over. -/
def plainFrom (slashes : Nat) (hidden : Bool) : Text → Text
  | [] => List.replicate slashes '\\'
  | c :: rest =>
    if hidden then plainFrom 0 (c != ']') rest
    else if c = '\\' then plainFrom (slashes + 1) false rest
    else if opensTag (c :: rest) then
      List.replicate (slashes / 2) '\\' ++
        if slashes % 2 = 1 then c :: plainFrom 0 false rest else plainFrom 0 true rest
    else List.replicate slashes '\\' ++ c :: plainFrom 0 false rest

def plain (markup : Text) : Text := plainFrom 0 false markup

def styled (style text : Text) : Text :=
  ['['] ++ style ++ [']'] ++ text ++ "[/".toList ++ style ++ [']']

def red : Text → Text := styled "red".toList

def green : Text → Text := styled "green".toList

def yellow : Text → Text := styled "yellow".toList

def cyan : Text → Text := styled "cyan".toList

def tick : Text := green ['✓']

def cross : Text := red ['✗']

end Flowchart.Markup

import Flowchart.Text.Basic
import Flowchart.Text.Case

/-!
Fenced blocks of chart sources in Markdown, and their replacement by compiled blocks. A block runs
from an opening line to the first later line with the same indentation and fence; an opening line
without such a line is ordinary text.
-/
namespace Flowchart

structure Fence where
  indent : Text
  ticks : Text
  deriving DecidableEq, Repr

namespace Fence

def isSpace (c : Char) : Bool := c == ' ' || c == '\t'

/-- Nothing visible is left of a line: spaces, tabs and a carriage return at the end. -/
def lineDone (rest : Text) : Bool :=
  match rest.dropWhile isSpace with
  | [] | ['\r'] => true
  | _ => false

def language : Text := "flowdsl".toList

/-- The rest behind the language tag, written in any case. -/
def dropLanguage? (text : Text) : Option Text :=
  let tag := text.take language.length
  if tag.length = language.length ∧ (List.zipWith Text.sameLetter tag language).all id then
    some (text.drop language.length)
  else none

def backtick : Char := '\x60'

/-- The run of at least three equal fence characters at the start of a text. -/
def ticks? : Text → Option Text
  | [] => none
  | c :: rest =>
    let run := c :: rest.takeWhile (· == c)
    if (c = backtick ∨ c = '~') ∧ 3 ≤ run.length then some run else none

def opening? (line : Text) : Option Fence := do
  let indent := line.takeWhile isSpace
  let afterIndent := line.dropWhile isSpace
  let ticks ← ticks? afterIndent
  let rest ← dropLanguage? ((afterIndent.drop ticks.length).dropWhile isSpace)
  if lineDone rest then some ⟨indent, ticks⟩ else none

def isClosing (fence : Fence) (line : Text) : Bool :=
  match Text.dropStart? (fence.indent ++ fence.ticks) line with
  | some rest => lineDone rest
  | none => false

/-- The lines before the closing line and those after it. -/
def close? (fence : Fence) : List Text → Option (List Text × List Text)
  | [] => none
  | line :: rest =>
    if fence.isClosing line then some ([], rest)
    else (fence.close? rest).map fun (body, after) => (line :: body, after)

theorem length_lt_of_close? {fence : Fence} {lines body after : List Text}
    (closed : fence.close? lines = some (body, after)) : after.length < lines.length := by
  induction lines generalizing body with
  | nil => simp [close?] at closed
  | cons line rest ih =>
    simp only [close?] at closed
    split at closed
    · cases closed
      simp
    · obtain ⟨⟨inner, behind⟩, found, same⟩ := Option.map_eq_some_iff.1 closed
      cases same
      exact Nat.lt_succ_of_lt (ih found)

end Fence

/-- A part of a document: a line of text, or a block with the lines between its fences. -/
inductive Segment where
  | line (text : Text)
  | block (fence : Fence) (body : List Text)
  deriving DecidableEq, Repr

namespace Segment

def ofLines : List Text → List Segment
  | [] => []
  | first :: rest =>
    match Fence.opening? first with
    | none => line first :: ofLines rest
    | some fence =>
      match closed : fence.close? rest with
      | none => line first :: ofLines rest
      | some (body, after) =>
        have := Fence.length_lt_of_close? closed
        block fence body :: ofLines after
termination_by lines => lines.length
decreasing_by all_goals (simp only [List.length_cons]; omega)

def ofDocument (document : Text) : List Segment := ofLines (Text.lines document)

/-- The source in a block; every line of it ends with a line feed. -/
def source? : Segment → Option Text
  | line _ => none
  | block _ body => some (body.flatMap (· ++ ['\n']))

/-- A compiled block, indented like its fence; empty lines stay empty. -/
def compiledLines (fence : Fence) (markup : Text) : List Text :=
  [fence.indent ++ fence.ticks ++ "mermaid".toList] ++
    (Text.lines markup).map (fun text => if text.isEmpty then text else fence.indent ++ text) ++
    [fence.indent ++ fence.ticks]

/-- The lines that stand for a segment after compiling. -/
def convert {m : Type → Type} [Monad m] (compile : Text → m Text) : Segment → m (List Text)
  | line text => return [text]
  | block fence body => do
    let markup ← compile (body.flatMap (· ++ ['\n']))
    return compiledLines fence markup

end Segment

namespace Markdown

/-- The sources in a document, in their order. -/
def sources (document : Text) : List Text :=
  (Segment.ofDocument document).filterMap Segment.source?

/-- The document with every block compiled, from first to last; a failure of one leaves nothing
converted. -/
def convert {m : Type → Type} [Monad m] (compile : Text → m Text) (document : Text) : m Text := do
  let pieces ← (Segment.ofDocument document).mapM (Segment.convert compile)
  return Text.unlines pieces.flatten

end Markdown

end Flowchart

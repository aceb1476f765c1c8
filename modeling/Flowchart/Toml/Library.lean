import Flowchart.Fault
import Flowchart.Toml.Value

/-!
What the settings need of a library for their documents: to read a text and to write a document.
Which texts are documents, and how a document is written, is the affair of the library.
-/
namespace Flowchart.Toml

/-- What a failure is about, where a value is stored under a key. -/
inductive Blame where
  | key
  | value
  | neither
  deriving DecidableEq, Repr

/-- A failure of the library itself. -/
structure Mishap where
  fault : Fault
  blame : Blame := .neither
  deriving DecidableEq, Repr

/-- Why there is no document for a text: it breaks the rules of the format, which the settings put
up with, or reading it fails for another reason. -/
inductive Unread where
  | malformed
  | failed (cause : Mishap)
  deriving DecidableEq, Repr

structure Library where
  read : Text → Except Unread Document
  write : Document → Except Mishap Text
  /-- A table has one entry for a key. -/
  distinct {text : Text} {document : Document} : read text = .ok document → Distinct document

end Flowchart.Toml

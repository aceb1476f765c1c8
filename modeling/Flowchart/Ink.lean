import Flowchart.Compile
import Flowchart.Ink.Base64
import Flowchart.Ink.Form

/-!
Addresses that render chart markup as an image, and fetching such an image. What the network answers
is an argument, so that fetching is a function of the request and the reply.
-/
namespace Flowchart.Ink

def service : Text := "https://mermaid.ink/img/".toList

def address (markup imageType theme background : Text) : Text :=
  service ++ Base64.encode markup.toUtf8 ++ '?' :: Form.query [
    ("type".toList, imageType), ("theme".toList, theme), ("bgColor".toList, background)]

def version : Text := "1.0.0".toList

structure Request where
  url : Text
  agent : Text
  timeout : Nat
  deriving DecidableEq, Repr

/-- The request for an image in the format that is fetched. -/
def request (markup theme background : Text) : Request where
  url := address markup "png".toList theme background
  agent := "FlowDSL-CLI/".toList ++ version
  timeout := 25

inductive Reply where
  | body (bytes : Bytes)
  | unreachable (reason : Text)
  | timedOut (detail : Text)
  | fault (cause : Fault)
  deriving DecidableEq, Repr

/-- Without a network the service cannot be reached. -/
def Reply.offline : Reply := unreachable "offline".toList

def warning (detail : Text) : Log.Entry :=
  ⟨.warning, .image, "Mermaid-to-PNG render failed: ".toList ++ detail⟩

/-- The image, or nothing with a warning if the network failed; any other fault stays a fault. -/
def receive : Reply → Except Fault (Option Bytes × List Log.Entry)
  | .body bytes => .ok (some bytes, [])
  | .unreachable reason =>
    .ok (none, [warning ("<urlopen error ".toList ++ reason ++ ['>'])])
  | .timedOut detail => .ok (none, [warning detail])
  | .fault fault => .error fault

end Flowchart.Ink

import Flowchart.Path
import Flowchart.Table

/-!
Debouncing changes of files. A change is handled at once unless its file was handled within the
window; then the file waits until a flush finds the window over. Files do not influence each other.

Times are of any type with a difference and an order, and every operation is given the time at which
it happens.
-/
namespace Flowchart

namespace Path

def sourceSuffixes : List Text := [".flow".toList, ".flowdsl".toList]

def hasSourceSuffix (path : Path) : Bool := sourceSuffixes.contains path.suffix

/-- A name that starts with a dot. -/
def isHidden (path : Path) : Bool := path.name.head? == some '.'

end Path

/-- An event of the file system: what it is about, and where a moved file went. -/
structure FileEvent where
  isDirectory : Bool
  source : Text := []
  destination : Text := []
  deriving DecidableEq, Repr

namespace FileEvent

/-- The path that changed, unless it is a directory or nothing is known. -/
def changed? (event : FileEvent) : Option Path :=
  let text := if event.destination = [] then event.source else event.destination
  if event.isDirectory ∨ text = [] then none else some (Path.ofText text)

end FileEvent

structure Debounce (T : Type) where
  window : T
  /-- When each file was handled last. -/
  seen : Table Path T := []
  /-- The files that wait, in the order in which they began to. -/
  pending : List Path := []

namespace Debounce

variable {T : Type} [Sub T] [LT T] [LE T] [DecidableLT T] [DecidableLE T]

/-- Whether a file was handled less than the window ago. -/
def isRecent (state : Debounce T) (now : T) (path : Path) : Bool :=
  match state.seen.get? path with
  | some last => decide (now - last < state.window)
  | none => false

def accepts (path : Path) : Bool := path.hasSourceSuffix && !path.isHidden

/-- A change of a file; the answer tells whether to handle it at once. -/
def change (state : Debounce T) (now : T) (path : Path) : Debounce T × Bool :=
  if !accepts path then (state, false)
  else if state.isRecent now path then
    let waiting := if path ∈ state.pending then state.pending else state.pending ++ [path]
    ({ state with pending := waiting }, false)
  else
    ({ state with
        seen := state.seen.put path now
        pending := state.pending.filter (· ≠ path) }, true)

/-- Whether the window of a waiting file is over. -/
def isDue (state : Debounce T) (now : T) (path : Path) : Bool :=
  decide (state.window ≤ now - (state.seen.get? path).getD now)

/-- Takes the waiting files whose window is over; they are to be handled in this order. -/
def flush (state : Debounce T) (now : T) : Debounce T × List Path :=
  let due := state.pending.filter (state.isDue now)
  ({ state with
      seen := due.foldl (fun seen path => seen.put path now) state.seen
      pending := state.pending.filter (!state.isDue now ·) }, due)

end Debounce

/-- Handles items one after the other up to the first that fails. -/
def handleAll {σ α ε : Type} (handle : σ → α → σ × Option ε) (state : σ) : List α → σ × Option ε
  | [] => (state, none)
  | item :: rest =>
    match handle state item with
    | (after, some failure) => (after, some failure)
    | (after, none) => handleAll handle after rest

end Flowchart

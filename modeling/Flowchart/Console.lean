import Flowchart.Fault
import Flowchart.Report

/-!
What the program needs of a library for the console: to escape text, and to show a block. A block
whose markup makes no sense is refused with a fault, and then nothing of it is shown.
-/
namespace Flowchart

structure Console where
  /-- Text that is put into markup and is to be shown as it is. -/
  escape : Text → Text
  refusal? : Block → Option Fault

namespace Console

def print (console : Console) (report : Report) (block : Block) : Except Fault Report :=
  match console.refusal? block with
  | some fault => .error fault
  | none => .ok (report.print [block])

end Console

end Flowchart

import Flowchart.Text.Basic

namespace Flowchart

/-- The starter document. -/
def template : Text := Text.unlines [
  "title My Flow Chart".toList,
  "direction down".toList,
  [],
  "// Define your nodes".toList,
  "Start [shape: oval, color: lightgreen, icon: play]".toList,
  "Process [color: lightblue]".toList,
  "Decision [shape: diamond, color: yellow, icon: help-circle]".toList,
  "End [shape: oval, color: gray, icon: check]".toList,
  [],
  "// Define relationships".toList,
  "Start > Process".toList,
  "Process > Decision".toList,
  "Decision > End: Yes".toList,
  "Decision > Process: No, retry".toList,
  []]

end Flowchart

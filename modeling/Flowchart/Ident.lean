import Flowchart.Text.Basic

/-!
Identifiers that are safe in chart markup. An identifier is the words of a label in lower case,
joined by single underscores; a label that would spell a keyword of the markup is set apart by
`node_`. Labels that differ only in case and punctuation share their identifier.
-/
namespace Flowchart

abbrev Ident := Text

namespace Ident

/-- Words that the markup reads as keywords when they stand alone. -/
def reserved : List Ident :=
  ["end".toList, "subgraph".toList, "graph".toList, "flowchart".toList, "direction".toList,
    "click".toList, "style".toList, "linkstyle".toList, "classdef".toList, "class".toList,
    "callback".toList, "call".toList, "init".toList, "default".toList]

/-- The maximal runs of ASCII letters and digits, in lower case. -/
def words (label : Text) : List Text :=
  ((label.splitOnP (!·.isAlphanum)).filter (!·.isEmpty)).map (·.map Char.toLower)

def plain (label : Text) : Ident := ['_'].intercalate (words label)

def escape (name : Ident) : Ident :=
  if name ∈ reserved then "node_".toList ++ name else name

def ofLabel (label : Text) : Ident := escape (plain label)

end Ident

end Flowchart

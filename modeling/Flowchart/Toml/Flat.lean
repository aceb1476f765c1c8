import Flowchart.Proofs.Toml.Distinct
import Flowchart.Toml.Library
import Flowchart.Toml.Writer

/-!
A library for documents without dates, inline tables and arrays of tables or arrays.
-/
namespace Flowchart.Toml

def Breakdown.mishap (cause : Breakdown) : Mishap where
  fault := ⟨cause.kind, cause.message⟩
  blame :=
    match cause with
    | .noKey _ => .key
    | _ => .neither

def Flaw.unread : Flaw → Unread
  | .malformed => .malformed
  | .broken cause => .failed cause.mishap

def flat : Library where
  read text := (Reader.document text).mapError Flaw.unread
  write document := (Writer.document document).mapError Breakdown.mishap
  distinct read := Reader.distinct_of_document (ok_of_mapError read)

end Flowchart.Toml

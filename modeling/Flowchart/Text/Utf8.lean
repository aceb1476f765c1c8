import Flowchart.Text.Basic

/-!
Text as UTF-8 bytes. Decoding refuses overlong forms, surrogates and code points beyond the last
one, and tells where and why it stopped.
-/
namespace Flowchart

abbrev Bytes := List UInt8

namespace Text

def toUtf8 (text : Text) : Bytes := text.flatMap String.utf8EncodeChar

/-- Line breaks of other systems, a carriage return with or without a line feed, become line feeds.
-/
def normalizeBreaks : Text → Text
  | [] => []
  | '\r' :: '\n' :: rest => '\n' :: normalizeBreaks rest
  | c :: rest => (if c = '\r' then '\n' else c) :: normalizeBreaks rest

end Text

namespace Utf8

inductive Reason where
  | start
  | continuation
  | truncated
  deriving DecidableEq, Repr

/-- The bytes from `position` on cannot be read as a character. -/
structure Error where
  position : Nat
  length : Nat
  first : UInt8
  reason : Reason
  deriving DecidableEq, Repr

def Reason.message : Reason → Text
  | start => "invalid start byte".toList
  | continuation => "invalid continuation byte".toList
  | truncated => "unexpected end of data".toList

def hexByte (byte : UInt8) : Text :=
  [Nat.digitChar (byte.toNat / 16), Nat.digitChar (byte.toNat % 16)]

def Error.message (error : Error) : Text :=
  "'utf-8' codec can't decode ".toList ++
    (if error.length = 1 then
      "byte 0x".toList ++ hexByte error.first ++ " in position ".toList ++
        Text.ofNat error.position
    else
      "bytes in position ".toList ++ Text.ofNat error.position ++ ['-'] ++
        Text.ofNat (error.position + error.length - 1)) ++
    ": ".toList ++ error.reason.message

def isContinuation (byte : UInt8) : Bool := 0x80 ≤ byte && byte < 0xC0

/-- What the second byte may be: the first one can leave only a part of the continuation bytes. -/
def maySecond (lead byte : UInt8) : Bool :=
  isContinuation byte &&
    (lead != 0xE0 || 0xA0 ≤ byte) && (lead != 0xED || byte < 0xA0) &&
    (lead != 0xF0 || 0x90 ≤ byte) && (lead != 0xF4 || byte < 0x90)

/-- Adds the bits of `needed` more bytes to `value`, after `used` bytes of the character. -/
def extend (allowed : UInt8 → Bool) (value used : Nat) : (needed : Nat) → Bytes →
    Except (Nat × Reason) Nat
  | 0, _ => .ok value
  | _ + 1, [] => .error (used, .truncated)
  | needed + 1, byte :: rest =>
    if allowed byte then
      extend isContinuation (value * 64 + byte.toNat % 64) (used + 1) needed rest
    else .error (used, .continuation)

/-- The character that starts with the byte `lead`, and how many bytes it takes after it. -/
def character (lead : UInt8) (rest : Bytes) : Except (Nat × Reason) (Char × Nat) :=
  let read (bits needed : Nat) :=
    (extend (maySecond lead) bits 1 needed rest).map fun value => (Char.ofNat value, needed)
  if lead < 0x80 then .ok (Char.ofNat lead.toNat, 0)
  else if lead < 0xC2 then .error (1, .start)
  else if lead < 0xE0 then read (lead.toNat % 32) 1
  else if lead < 0xF0 then read (lead.toNat % 16) 2
  else if lead < 0xF5 then read (lead.toNat % 8) 3
  else .error (1, .start)

def decodeFrom (position : Nat) (bytes : Bytes) : Except Error Text :=
  match bytes with
  | [] => .ok []
  | lead :: rest =>
    match character lead rest with
    | .error (length, reason) => .error ⟨position, length, lead, reason⟩
    | .ok (c, more) => (decodeFrom (position + 1 + more) (rest.drop more)).map (c :: ·)
termination_by bytes.length

def decode (bytes : Bytes) : Except Error Text := decodeFrom 0 bytes

/-- The text of a file: decoded, with all line breaks made line feeds. -/
def decodeLines (bytes : Bytes) : Except Error Text := (decode bytes).map Text.normalizeBreaks

end Utf8

end Flowchart

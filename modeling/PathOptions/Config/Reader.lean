import PathOptions.Value.Basic
/-!
Documents, as far as it matters to configurations how they are read: a reader makes a value of the
bytes of a file, or finds a fault.
-/

namespace PathOptions.Config

/-- A fault that reading does not expect, so that it does not refuse the document but breaks off. -/
inductive Surprise where
  | numberTooLarge
  | unknownWord
  | missingDigit
  | missingParts
  | other
  deriving DecidableEq, Repr

namespace DocumentFault

inductive Kind where
  /-- The bytes are no text. -/
  | notText
  /-- The text is no document. -/
  | malformed
  /-- The text is a document, but a value in it is out of range. -/
  | outOfRange
  | unforeseen (surprise : Surprise)
  deriving DecidableEq, Repr

end DocumentFault

/-- Why a document cannot be read. -/
structure DocumentFault where
  kind : DocumentFault.Kind
  /-- What is said about the file with a path. -/
  message : Text → String

def DocumentFault.isUnforeseen (fault : DocumentFault) : Bool :=
  match fault.kind with
  | .unforeseen _ => true
  | _ => false

/-- Makes a value of the bytes of a file. -/
abbrev Reader := List UInt8 → Except DocumentFault Value

end PathOptions.Config

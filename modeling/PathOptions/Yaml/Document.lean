import PathOptions.Config.Reader
import PathOptions.Yaml.Graph
/-!
The value of a document, from its text or from the bytes of a file.
-/

namespace PathOptions.Yaml

/-- The value of a document, null if it is empty. -/
def readDocument (text : Text) : Except Error Value := do
  match ← Document.ofTokens (tokenize text) with
  | none => return .null
  | some document => return (← document.graph).value document.isKnotted

def unifyLineEnds : Text → Text
  | '\r' :: '\n' :: rest => '\n' :: unifyLineEnds rest
  | '\r' :: rest => '\n' :: unifyLineEnds rest
  | c :: rest => c :: unifyLineEnds rest
  | [] => []

def decode? (bytes : List UInt8) : Option Text :=
  (String.fromUTF8? ⟨bytes.toArray⟩).map String.toList

def read : Config.Reader := fun bytes =>
  match decode? bytes with
  | none =>
    .error ⟨.notText, fun path =>
      "The contents of " ++ Text.str (Text.quoted path) ++ " are not UTF-8 text"⟩
  | some written => (readDocument (unifyLineEnds written)).mapError Error.fault

end PathOptions.Yaml

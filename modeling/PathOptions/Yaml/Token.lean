import PathOptions.Yaml.Error
/-!
The tokens of a document, and the stream of them in which a fault may take the place of the rest.
-/

namespace PathOptions.Yaml

/-- A token. Blocks that only indentation shows have tokens of their own. -/
inductive Token where
  /-- Gives a tag handle a meaning. -/
  | tagDirective (handle lead : Text)
  | directive (name : Text)
  | documentStart
  | documentEnd
  | streamEnd
  | blockSequenceStart
  | blockMappingStart
  | blockEnd
  | flowSequenceStart
  | flowSequenceEnd
  | flowMappingStart
  | flowMappingEnd
  | blockEntry
  | flowEntry
  | key
  | value
  | alias (name : Text)
  | anchor (name : Text)
  | tag (handle : Option Text) (suffix : Text)
  | scalar (text : Text) (plain : Bool)
  deriving DecidableEq, Repr

/-- The tokens of a document, the last one being its end, or those in front of a fault. -/
structure TokenStream where
  tokens : List Token
  fault : Option Error
  deriving Repr

end PathOptions.Yaml

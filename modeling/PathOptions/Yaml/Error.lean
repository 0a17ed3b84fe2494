import PathOptions.Config.Reader
import PathOptions.Text.Quoted
/-!
Why a document cannot be read.
-/

namespace PathOptions.Yaml

inductive Error where
  | unprintableCharacter (c : Char)
  | unexpectedCharacter (c : Char)
  | missingColon
  | misplacedEntry
  | misplacedKey
  | misplacedValue
  | badDirective
  | badAnchor
  | badTag
  | badBlockHeader
  | badEscape
  | codePointOutOfRange
  /-- The code point does not even fit into a signed word of 32 bits. -/
  | codePointTooLarge
  | unclosedQuote
  | separatorInQuotes
  | expectedDocumentStart
  | expectedBlockEnd
  | expectedFlowEntry
  | expectedContent
  | severalDocuments
  | tooDeep
  | undefinedAlias (name : Text)
  | duplicateAnchor (name : Text)
  | undefinedHandle (handle : Text)
  | unknownTag (tag : Text)
  | badScalar (text : Text)
  /-- The text under the tag of truth values is none of their words. -/
  | unknownTruthWord (word : Text)
  /-- No digit stands under the tag of numbers. -/
  | emptyNumber
  /-- The text under the tag of dates is none. -/
  | notDate (text : Text)
  | unhashableKey
  | badMerge
  | digitsMissing (base : Nat)
  | yearOutOfRange
  | monthOutOfRange
  | dayOutOfRange
  deriving DecidableEq, Repr

namespace Error

def kind : Error → Config.DocumentFault.Kind
  | .codePointOutOfRange | .digitsMissing _ | .yearOutOfRange | .monthOutOfRange
  | .dayOutOfRange => .outOfRange
  | .codePointTooLarge => .unforeseen .numberTooLarge
  | .unknownTruthWord _ => .unforeseen .unknownWord
  | .emptyNumber => .unforeseen .missingDigit
  | .notDate _ => .unforeseen .missingParts
  | _ => .malformed

def message : Error → String
  | .unprintableCharacter c =>
    "special characters are not allowed: " ++ Text.str (Text.quoted [c])
  | .unexpectedCharacter c =>
    "found character " ++ Text.str (Text.quoted [c]) ++ " that cannot start any token"
  | .missingColon => "could not find expected ':'"
  | .misplacedEntry => "sequence entries are not allowed here"
  | .misplacedKey => "mapping keys are not allowed here"
  | .misplacedValue => "mapping values are not allowed here"
  | .badDirective => "found a malformed directive"
  | .badAnchor => "found a malformed anchor or alias"
  | .badTag => "found a malformed tag"
  | .badBlockHeader => "expected chomping or indentation indicators"
  | .badEscape => "found unknown escape character"
  | .codePointOutOfRange => "chr() arg not in range(0x110000)"
  | .codePointTooLarge => "Python int too large to convert to C int"
  | .unclosedQuote => "found unexpected end of stream"
  | .separatorInQuotes => "found unexpected document separator"
  | .expectedDocumentStart => "expected '<document start>'"
  | .expectedBlockEnd => "expected <block end>"
  | .expectedFlowEntry => "expected ',' or the closing bracket"
  | .expectedContent => "expected the node content"
  | .severalDocuments => "expected a single document in the stream"
  | .tooDeep => "the document is nested too deeply"
  | .undefinedAlias name => "found undefined alias " ++ Text.str (Text.quoted name)
  | .duplicateAnchor name => "found duplicate anchor " ++ Text.str (Text.quoted name)
  | .undefinedHandle handle => "found undefined tag handle " ++ Text.str (Text.quoted handle)
  | .unknownTag tag =>
    "could not determine a constructor for the tag " ++ Text.str (Text.quoted tag)
  | .badScalar t => "found a value of the wrong form: " ++ Text.str (Text.quoted t)
  | .unknownTruthWord word => Text.str (Text.quoted word)
  | .emptyNumber => "string index out of range"
  | .notDate _ => "'NoneType' object has no attribute 'groupdict'"
  | .unhashableKey => "found unhashable key"
  | .badMerge => "expected a mapping or list of mappings for merging"
  | .digitsMissing base =>
    "invalid literal for int() with base " ++ toString base ++ ": " ++ Text.str (Text.quoted [])
  | .yearOutOfRange => "year 0 is out of range"
  | .monthOutOfRange => "month must be in 1..12"
  | .dayOutOfRange => "day is out of range for month"

/-- The fault as others see it. -/
def fault (error : Error) : Config.DocumentFault := ⟨error.kind, fun _ => error.message⟩

end Error

end PathOptions.Yaml

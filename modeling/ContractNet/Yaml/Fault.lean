import ContractNet.Text.Utf8

/-!
# Faults of YAML streams

A fault tells what is wrong with a stream, and on which line.  Of the two places that belong to a
fault, the one where the faulty thing starts and the one where the fault was noticed, the first is
named; nothing on the first line of the stream is ever named.
-/

namespace ContractNet.Yaml

/-- A place in a stream, counted in characters. -/
structure Mark where
  index : Nat := 0
  line : Nat := 0
  column : Nat := 0
deriving DecidableEq

/-- What can be wrong with a stream or with a value in it. -/
inductive Problem where
  | leadingOctet
  | incompleteOctets
  | trailingOctet
  | octetLength
  | notCharacter
  | incompleteUnit
  | incompletePair
  | unexpectedLowUnit
  | expectedLowUnit
  | controlCharacter
  | keyWithoutColon
  | noTokenStart
  | entryNotAllowed
  | keyNotAllowed
  | valueNotAllowed
  | tooDeep
  | noDirectiveName
  | badDirectiveName
  | unknownDirective
  | noVersionNumber
  | longVersionNumber
  | noVersionPoint
  | noExclamation
  | noWhitespace
  | noWhitespaceOrBreak
  | noCommentOrBreak
  | noNameCharacter
  | noTagEnd
  | noTagText
  | noEscapedOctet
  | leadingEscape
  | trailingEscape
  | zeroIndentation
  | tabForIndentation
  | documentMarkInQuotes
  | endInQuotes
  | unknownEscape
  | noHexadecimal
  | badCharacterCode
  | tabInPlain
  | noNodeContent
  | undefinedHandle
  | noSequenceEntry
  | noMappingKey
  | noSequenceComma
  | noMappingComma
  | noDocumentStart
  | repeatedVersion
  | otherVersion
  | repeatedHandle
  | unknownAnchor (name : Text)
  /-- A value that its tag does not fit. -/
  | otherKind (found value asked : Text)
  | badBase64
  | badMerge
  /-- An anchor whose node holds an alias of itself. -/
  | cyclicAnchor (name : Text)
  /-- Too many of the nodes are read through aliases. -/
  | tooManyAliases
  /-- A collection, shown as a value, that is a key of a mapping. -/
  | collectionKey (shown : Text)
  /-- A collection of the named type that is a key beside a merge. -/
  | keyBesideMerge (typeName : Text)
deriving DecidableEq

/-- Wording of the problems. -/
def Problem.message : Problem → Text
  | leadingOctet => "invalid leading UTF-8 octet"
  | incompleteOctets => "incomplete UTF-8 octet sequence"
  | trailingOctet => "invalid trailing UTF-8 octet"
  | octetLength => "invalid length of a UTF-8 sequence"
  | notCharacter => "invalid Unicode character"
  | incompleteUnit => "incomplete UTF-16 character"
  | incompletePair => "incomplete UTF-16 surrogate pair"
  | unexpectedLowUnit => "unexpected low surrogate area"
  | expectedLowUnit => "expected low surrogate area"
  | controlCharacter => "control characters are not allowed"
  | keyWithoutColon => "could not find expected ':'"
  | noTokenStart => "found character that cannot start any token"
  | entryNotAllowed => "block sequence entries are not allowed in this context"
  | keyNotAllowed => "mapping keys are not allowed in this context"
  | valueNotAllowed => "mapping values are not allowed in this context"
  | tooDeep => "exceeded max depth of 10000"
  | noDirectiveName => "could not find expected directive name"
  | badDirectiveName => "found unexpected non-alphabetical character"
  | unknownDirective => "found unknown directive name"
  | noVersionNumber => "did not find expected version number"
  | longVersionNumber => "found extremely long version number"
  | noVersionPoint => "did not find expected digit or '.' character"
  | noExclamation => "did not find expected '!'"
  | noWhitespace => "did not find expected whitespace"
  | noWhitespaceOrBreak => "did not find expected whitespace or line break"
  | noCommentOrBreak => "did not find expected comment or line break"
  | noNameCharacter => "did not find expected alphabetic or numeric character"
  | noTagEnd => "did not find the expected '>'"
  | noTagText => "did not find expected tag URI"
  | noEscapedOctet => "did not find URI escaped octet"
  | leadingEscape => "found an incorrect leading UTF-8 octet"
  | trailingEscape => "found an incorrect trailing UTF-8 octet"
  | zeroIndentation => "found an indentation indicator equal to 0"
  | tabForIndentation => "found a tab character where an indentation space is expected"
  | documentMarkInQuotes => "found unexpected document indicator"
  | endInQuotes => "found unexpected end of stream"
  | unknownEscape => "found unknown escape character"
  | noHexadecimal => "did not find expected hexdecimal number"
  | badCharacterCode => "found invalid Unicode character escape code"
  | tabInPlain => "found a tab character that violates indentation"
  | noNodeContent => "did not find expected node content"
  | undefinedHandle => "found undefined tag handle"
  | noSequenceEntry => "did not find expected '-' indicator"
  | noMappingKey => "did not find expected key"
  | noSequenceComma => "did not find expected ',' or ']'"
  | noMappingComma => "did not find expected ',' or '\x7d'"
  | noDocumentStart => "did not find expected <document start>"
  | repeatedVersion => "found duplicate %YAML directive"
  | otherVersion => "found incompatible YAML document"
  | repeatedHandle => "found duplicate %TAG directive"
  | unknownAnchor name => "unknown anchor '" ++ name ++ "' referenced"
  | otherKind found value asked => "cannot decode " ++ found ++ " `" ++ value ++ "` as a " ++ asked
  | badBase64 => "!!binary value contains invalid base64 data"
  | badMerge => "map merge requires map or sequence of maps as the value"
  | cyclicAnchor name => "anchor '" ++ name ++ "' value contains itself"
  | tooManyAliases => "document contains excessive aliasing"
  | collectionKey shown => "invalid map key: " ++ shown
  | keyBesideMerge typeName => "runtime error: hash of unhashable type " ++ typeName

/-- A problem and the number of the line that is named with it, zero if none is. -/
structure Fault where
  problem : Problem
  line : Nat := 0
deriving DecidableEq

namespace Fault

/-- Wording of the faults. -/
def message (f : Fault) : Text :=
  let line : Text := if f.line = 0 then [] else "line " ++ Text.decimal f.line ++ ": "
  "yaml: " ++ line ++ f.problem.message

/-- A fault in the characters of something that starts at `start`, noticed at `here`. -/
def scanning (p : Problem) (start here : Mark) : Fault :=
  let line := if start.line = 0 then here.line else start.line
  ⟨p, if line = 0 then 0 else line + 1⟩

/-- A fault in the tokens of something that starts on line `start`, noticed on line `here`.  It
names the line before. -/
def parsing (p : Problem) (start here : Nat) : Fault := ⟨p, if start = 0 then here else start⟩

end Fault

end ContractNet.Yaml

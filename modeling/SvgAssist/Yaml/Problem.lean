import SvgAssist.Text.Char

/-!
# What can be wrong with YAML

The causes for which a text is not a YAML document, each with its wording, and the line they are
reported at.
-/

namespace SvgAssist.Yaml

inductive Problem where
  -- characters
  | leadingOctet
  | incompleteOctets
  | trailingOctet
  | sequenceLength
  | invalidCharacter
  | controlCharacter
  | incompleteUnit
  | lowSurrogate
  | incompletePair
  | expectedLowSurrogate
  -- tokens
  | blockEntryContext
  | mappingKeyContext
  | mappingValueContext
  | cannotStartToken
  | missingColon
  | tooDeep (limit : Nat)
  | anchorName
  | directiveName
  | unknownDirective
  | directiveNameEnd
  | versionDigit
  | versionLong
  | versionNumber
  | expectedLineEnd
  | tagBlank
  | tagEnd
  | tagBang
  | tagUri
  | tagClose
  | uriEscape
  | uriLeadingOctet
  | uriTrailingOctet
  | zeroIndent
  | tabIndent
  | tabViolation
  | documentIndicator
  | endOfStream
  | unknownEscape
  | hexNumber
  | escapeCode
  -- structure
  | documentStart
  | duplicateVersion
  | incompatibleVersion
  | duplicateHandle
  | undefinedHandle
  | nodeContent
  | expectedEntry
  | expectedKey
  | expectedCommaOrBracket
  | expectedCommaOrBrace
  | unknownAnchor (name : Text)
deriving DecidableEq, Repr

def Problem.message : Problem → Text
  | .leadingOctet => utf8 "invalid leading UTF-8 octet"
  | .incompleteOctets => utf8 "incomplete UTF-8 octet sequence"
  | .trailingOctet => utf8 "invalid trailing UTF-8 octet"
  | .sequenceLength => utf8 "invalid length of a UTF-8 sequence"
  | .invalidCharacter => utf8 "invalid Unicode character"
  | .controlCharacter => utf8 "control characters are not allowed"
  | .incompleteUnit => utf8 "incomplete UTF-16 character"
  | .lowSurrogate => utf8 "unexpected low surrogate area"
  | .incompletePair => utf8 "incomplete UTF-16 surrogate pair"
  | .expectedLowSurrogate => utf8 "expected low surrogate area"
  | .blockEntryContext => utf8 "block sequence entries are not allowed in this context"
  | .mappingKeyContext => utf8 "mapping keys are not allowed in this context"
  | .mappingValueContext => utf8 "mapping values are not allowed in this context"
  | .cannotStartToken => utf8 "found character that cannot start any token"
  | .missingColon => utf8 "could not find expected ':'"
  | .tooDeep limit => utf8 "exceeded max depth of " ++ Text.ofNat limit
  | .anchorName => utf8 "did not find expected alphabetic or numeric character"
  | .directiveName => utf8 "could not find expected directive name"
  | .unknownDirective => utf8 "found unknown directive name"
  | .directiveNameEnd => utf8 "found unexpected non-alphabetical character"
  | .versionDigit => utf8 "did not find expected digit or '.' character"
  | .versionLong => utf8 "found extremely long version number"
  | .versionNumber => utf8 "did not find expected version number"
  | .expectedLineEnd => utf8 "did not find expected comment or line break"
  | .tagBlank => utf8 "did not find expected whitespace"
  | .tagEnd => utf8 "did not find expected whitespace or line break"
  | .tagBang => utf8 "did not find expected '!'"
  | .tagUri => utf8 "did not find expected tag URI"
  | .tagClose => utf8 "did not find the expected '>'"
  | .uriEscape => utf8 "did not find URI escaped octet"
  | .uriLeadingOctet => utf8 "found an incorrect leading UTF-8 octet"
  | .uriTrailingOctet => utf8 "found an incorrect trailing UTF-8 octet"
  | .zeroIndent => utf8 "found an indentation indicator equal to 0"
  | .tabIndent => utf8 "found a tab character where an indentation space is expected"
  | .tabViolation => utf8 "found a tab character that violates indentation"
  | .documentIndicator => utf8 "found unexpected document indicator"
  | .endOfStream => utf8 "found unexpected end of stream"
  | .unknownEscape => utf8 "found unknown escape character"
  | .hexNumber => utf8 "did not find expected hexdecimal number"
  | .escapeCode => utf8 "found invalid Unicode character escape code"
  | .documentStart => utf8 "did not find expected <document start>"
  | .duplicateVersion => utf8 "found duplicate %YAML directive"
  | .incompatibleVersion => utf8 "found incompatible YAML document"
  | .duplicateHandle => utf8 "found duplicate %TAG directive"
  | .undefinedHandle => utf8 "found undefined tag handle"
  | .nodeContent => utf8 "did not find expected node content"
  | .expectedEntry => utf8 "did not find expected '-' indicator"
  | .expectedKey => utf8 "did not find expected key"
  | .expectedCommaOrBracket => utf8 "did not find expected ',' or ']'"
  | .expectedCommaOrBrace => utf8 "did not find expected ',' or '\x7d'"
  | .unknownAnchor name => utf8 "unknown anchor '" ++ name ++ utf8 "' referenced"

/-- A problem and the line it is reported at, which is zero when none is reported. -/
structure SyntaxError where
  problem : Problem
  line : Nat
deriving DecidableEq, Repr

namespace SyntaxError

def message (e : SyntaxError) : Text :=
  (if e.line = 0 then [] else utf8 "line " ++ Text.ofNat e.line ++ utf8 ": ") ++ e.problem.message

end SyntaxError

structure Mark where
  index : Nat
  line : Nat
  column : Nat
deriving DecidableEq, Repr, Inhabited

/-- The line of the first mark that is not on line zero. -/
def reportedLine (context place : Mark) : Nat :=
  if context.line ≠ 0 then context.line else place.line

/-- A problem between tokens. Lines are reported from one, except that the first line, which is
line zero, is not reported. -/
def tokenError (context place : Mark) (problem : Problem) : SyntaxError :=
  let line := reportedLine context place
  ⟨problem, if line = 0 then 0 else line + 1⟩

/-- A problem in how tokens fit together. It is reported at the line above the mark. -/
def structureError (context place : Mark) (problem : Problem) : SyntaxError :=
  ⟨problem, reportedLine context place⟩

end SvgAssist.Yaml

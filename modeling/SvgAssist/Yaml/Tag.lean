import SvgAssist.Yaml.Scalar
import SvgAssist.Yaml.Token

/-!
# Anchors, tags and directives

Reading of the names that are put in front of a node, and of the lines that are put in front of a
document.
-/

namespace SvgAssist.Yaml

open Scan

def word : Scan Text := do return Text.ofChars (← takeWhile isWord)

def endsAnchor (ch : Char) : Bool :=
  isBlank ch || isBreak ch || ch == '?' || ch == ':' || ch == ',' || ch == ']' || ch == '\x7d' ||
    ch == '%' || ch == '@' || ch == '\x60'

def anchorName : Scan Text := do
  let start := (← get).mark
  skip
  let name ← word
  if name = [] || !((← get).at? 0).all endsAnchor then Scan.fail start .anchorName else return name

def isUriMark (ch : Char) : Bool :=
  ch == ';' || ch == '/' || ch == '?' || ch == ':' || ch == '@' || ch == '&' || ch == '=' ||
    ch == '+' || ch == '$' || ch == ',' || ch == '.' || ch == '!' || ch == '~' || ch == '*' ||
    ch == '\'' || ch == '(' || ch == ')' || ch == '[' || ch == ']'

def escapedOctet (start : Mark) : Scan UInt8 := do
  need 3
  let c ← get
  match (c.at? 1).bind hexValue?, (c.at? 2).bind hexValue? with
  | some high, some low =>
    if c.is (· == '%') 0 then return (high * 16 + low).toUInt8 else Scan.fail start .uriEscape
  | _, _ => Scan.fail start .uriEscape

def escapedTail (start : Mark) (done : Text) : Nat → Scan Text
  | 0 => return done
  | left + 1 => do
    let octet ← escapedOctet start
    if octet &&& 0xc0 != 0x80 then Scan.fail start .uriTrailingOctet
    else
      skipMany 3
      escapedTail start (octet :: done) left

def escapedChar (start : Mark) : Scan Text := do
  let octet ← escapedOctet start
  match octetWidth octet with
  | 0 => Scan.fail start .uriLeadingOctet
  | width + 1 =>
    skipMany 3
    escapedTail start [octet] width

def uriFrom (start : Mark) (done : Text) : Nat → Scan Text
  | 0 => return done.reverse
  | fuel + 1 => do
    need 1
    match (← get).at? 0 with
    | none => return done.reverse
    | some ch =>
      if ch == '%' then
        let octets ← escapedChar start
        uriFrom start (octets ++ done) fuel
      else if isWord ch || isUriMark ch then
        skip
        uriFrom start ((Text.ofChar ch).reverse ++ done) fuel
      else return done.reverse

/-- A tag's characters; there must be one unless `begun`. -/
def uri (start : Mark) (begun : Bool) : Scan Text := do
  let text ← uriFrom start [] ((← get).size + 1)
  if text = [] && !begun then Scan.fail start .tagUri else return text

/-- A tag handle at the cursor, which may turn out to be the start of a tag. -/
def handle (start : Mark) (directive : Bool) : Scan Text := do
  need 1
  if !(← get).is (· == '!') 0 then Scan.fail start .tagBang
  else
    skip
    let name ← word
    if (← get).is (· == '!') 0 then
      skip
      return utf8 "!" ++ name ++ utf8 "!"
    else if directive && name ≠ [] then Scan.fail start .tagBang
    else return utf8 "!" ++ name

def verbatimTag (start : Mark) : Scan TagName := do
  skipMany 2
  let suffix ← uri start false
  if (← get).is (· == '>') 0 then
    skip
    return ⟨[], suffix⟩
  else Scan.fail start .tagClose

def shorthandTag (start : Mark) : Scan TagName := do
  let front ← handle start false
  if 1 < front.length && front.getLast? == some Byte.bang then return ⟨front, ← uri start false⟩
  else
    let suffix := front.drop 1 ++ (← uri start true)
    return if suffix = [] then ⟨[], front⟩ else ⟨utf8 "!", suffix⟩

def tagName : Scan TagName := do
  let start := (← get).mark
  need 2
  let name ← if (← get).is (· == '<') 1 then verbatimTag start else shorthandTag start
  need 1
  if (← get).blankOrEnds 0 then return name else Scan.fail start .tagEnd

def versionDigits (start : Mark) (value count : Nat) : Nat → Scan (Nat × Nat)
  | 0 => return (value, count)
  | fuel + 1 => do
    need 1
    match (← get).at? 0 with
    | some ch =>
      if !ch.isDigit then return (value, count)
      else if 2 ≤ count then Scan.fail start .versionLong
      else
        skip
        versionDigits start (value * 10 + (ch.toNat - 0x30)) (count + 1) fuel
    | none => return (value, count)

def versionNumber (start : Mark) : Scan Nat := do
  let (value, count) ← versionDigits start 0 0 3
  if count = 0 then Scan.fail start .versionNumber else return value

def versionValue (start : Mark) : Scan TokenKind := do
  skipBlanks
  let major ← versionNumber start
  if !(← get).is (· == '.') 0 then Scan.fail start .versionDigit
  else
    skip
    return .version major (← versionNumber start)

def handleValue (start : Mark) : Scan TokenKind := do
  skipBlanks
  let name ← handle start true
  need 1
  if !(← get).is isBlank 0 then Scan.fail start .tagBlank
  else
    skipBlanks
    let replacement ← uri start false
    need 1
    if !(← get).blankOrEnds 0 then Scan.fail start .tagEnd
    else return .tagHandle name replacement

def directive : Scan TokenKind := do
  let start := (← get).mark
  skip
  let name ← word
  if name = [] then Scan.fail start .directiveName
  else if !(← get).blankOrEnds 0 then Scan.fail start .directiveNameEnd
  else
    let kind ←
      if name = utf8 "YAML" then versionValue start
      else if name = utf8 "TAG" then handleValue start
      else Scan.fail start .unknownDirective
    finishLine start
    return kind

end SvgAssist.Yaml

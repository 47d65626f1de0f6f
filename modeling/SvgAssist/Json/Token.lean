import SvgAssist.Json.Error

/-!
# JSON tokens

The lexical level: how far a string, a number or a word reaches, and the text that a string stands
for. Each scanner is given the bytes after the one it has recognised, counts from it, and answers
with the number of bytes the token takes.
-/

namespace SvgAssist.Json

def isSpace (b : UInt8) : Bool :=
  b == Byte.space || b == Byte.tab || b == Byte.carriageReturn || b == Byte.newline

/-- The error for the character at the head of `b :: rest`, which cannot stand where it does behind
`seen` bytes. -/
def unexpected {α : Type} (b : UInt8) (rest : Text) (place : Place) (seen : Nat) :
    Except SyntaxError α :=
  let width := (Text.decodeHead b rest).width
  .error ⟨.character ((b :: rest).take width) place, seen + width⟩

def cutShort {α : Type} (seen : Nat) : Except SyntaxError α := .error ⟨.endOfInput, seen⟩

def isEscape (b : UInt8) : Bool :=
  b == 0x62 || b == 0x66 || b == 0x6e || b == 0x72 || b == 0x74 || b == Byte.backslash ||
    b == Byte.slash || b == Byte.doubleQuote

def escapeSize (seen : Nat) (rest : Text) : Except SyntaxError Nat :=
  match rest with
  | [] => cutShort seen
  | b :: more =>
    if isEscape b then .ok 2
    else if b = 0x75 then
      let digits := more.take 4
      if !digits.all fun d => (Byte.hexValue? d).isSome then
        .error ⟨.escape (Byte.backslash :: b :: digits), seen + 2 + digits.length⟩
      else if digits.length < 4 then cutShort seen
      else .ok 6
    else .error ⟨.escape [Byte.backslash, b], seen + 2⟩

def stringSize (seen : Nat) : Text → Except SyntaxError Nat
  | [] => cutShort seen
  | b :: rest =>
    if b = Byte.doubleQuote then .ok (seen + 1)
    else if b = Byte.backslash then
      match escapeSize seen rest with
      | .error e => .error e
      | .ok size => stringSize (seen + size) (rest.drop (size - 1))
    else if b < 0x20 then unexpected b rest .string seen
    else if (rest.drop 2).isEmpty && Text.isCutShort (b :: rest) then cutShort seen
    else stringSize (seen + 1) rest
termination_by text => text.length
decreasing_by all_goals (simp only [List.length_drop, List.length_cons]; omega)

inductive NumberState where
  | sign
  | zero
  | whole
  | point
  | fraction
  | exponent
  | exponentSign
  | exponentDigits
deriving DecidableEq, Repr

def NumberState.isComplete : NumberState → Bool
  | .zero | .whole | .fraction | .exponentDigits => true
  | .sign | .point | .exponent | .exponentSign => false

def NumberState.next? (state : NumberState) (b : UInt8) : Option NumberState :=
  let digit (s : NumberState) : Option NumberState := if Byte.isDigit b then some s else none
  let exponent : Option NumberState := if b = 0x65 || b = 0x45 then some .exponent else none
  let point : Option NumberState := if b = Byte.dot then some .point else none
  match state with
  | .sign => if b = 0x30 then some .zero else digit .whole
  | .zero => point.or exponent
  | .whole => ((digit .whole).or point).or exponent
  | .point => digit .fraction
  | .fraction => (digit .fraction).or exponent
  | .exponent =>
    if b = 0x2b || b = Byte.hyphen then some .exponentSign else digit .exponentDigits
  | .exponentSign | .exponentDigits => digit .exponentDigits

/-- The size of a number whose bytes so far are `seen`. One that the input cuts short counts for
nothing. -/
def numberSize (state : NumberState) (seen : Nat) : Text → Except SyntaxError Nat
  | [] => if state.isComplete then .ok seen else cutShort 0
  | b :: rest =>
    match state.next? b with
    | some state => numberSize state (seen + 1) rest
    | none => if state.isComplete then .ok seen else unexpected b rest .number seen

/-- The size of the word `name`, of which `seen` bytes are read and `left` must follow. -/
def wordSize (name : Text) (seen : Nat) : Text → Text → Except SyntaxError Nat
  | [], _ => .ok seen
  | _ :: _, [] => cutShort seen
  | expected :: left, b :: rest =>
    if b = expected then wordSize name (seen + 1) left rest
    else unexpected b rest (.word name expected) seen

def hex4? : Text → Option Nat
  | a :: b :: c :: d :: _ => do
    let a ← Byte.hexValue? a
    let b ← Byte.hexValue? b
    let c ← Byte.hexValue? c
    let d ← Byte.hexValue? d
    return ((a * 16 + b) * 16 + c) * 16 + d
  | _ => none

def numericEscape? : Text → Option Nat
  | 0x5c :: 0x75 :: rest => hex4? rest
  | _ => none

def isHighSurrogate (n : Nat) : Bool := 0xd800 ≤ n && n < 0xdc00

def isLowSurrogate (n : Nat) : Bool := 0xdc00 ≤ n && n < 0xe000

/-- The character of a numeric escape with value `n`, and how many bytes it takes when `rest`
follows its digits. Two escapes may form a surrogate pair; a surrogate on its own stands for the
replacement character. -/
def escapedChar (n : Nat) (rest : Text) : Char × Nat :=
  if isHighSurrogate n then
    match numericEscape? rest with
    | some low =>
      if isLowSurrogate low then
        (Char.ofNat (0x10000 + (n - 0xd800) * 0x400 + (low - 0xdc00)), 12)
      else (Char.ofNat 0xfffd, 6)
    | none => (Char.ofNat 0xfffd, 6)
  else if isLowSurrogate n then (Char.ofNat 0xfffd, 6)
  else (Char.ofNat n, 6)

def escapedByte (b : UInt8) : UInt8 :=
  match b with
  | 0x62 => 0x08
  | 0x66 => 0x0c
  | 0x6e => 0x0a
  | 0x72 => 0x0d
  | 0x74 => 0x09
  | _ => b

def stringPiece (b : UInt8) (rest : Text) : Text × Nat :=
  if b = Byte.backslash then
    match rest with
    | 0x75 :: digits =>
      match hex4? digits with
      | some n => let (c, size) := escapedChar n (digits.drop 4); (Text.ofChar c, size)
      | none => ([], 2)
    | letter :: _ => ([escapedByte letter], 2)
    | [] => ([], 1)
  else
    let d := Text.decodeHead b rest
    (Text.ofChar d.char, d.width)

/-- The text that the contents of a string stand for, after the pieces in `done`, which are in
reverse. Bytes that are not UTF-8 become replacement characters. -/
def unescapeFrom (done : List Text) : Text → Text
  | [] => done.reverse.flatten
  | b :: rest =>
    let (piece, size) := stringPiece b rest
    unescapeFrom (piece :: done) (rest.drop (size - 1))
termination_by text => text.length
decreasing_by simp only [List.length_drop, List.length_cons]; omega

def unescape (contents : Text) : Text := unescapeFrom [] contents

end SvgAssist.Json

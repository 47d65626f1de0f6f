/-!
# Texts

Documents, grammar files and everything printed are byte strings: an editor may hand over bytes that
are not UTF-8, and every offset counts bytes. This module has the type and the searches on it;
`SvgAssist.Text.Char` reads characters out of it.
-/

namespace SvgAssist

/-- A byte string. It need not be valid UTF-8. -/
abbrev Text := List UInt8

def total (ns : List Nat) : Nat := ns.foldr (· + ·) 0

def utf8 (s : String) : Text := s.toUTF8.data.toList

namespace Byte

@[match_pattern] abbrev tab : UInt8 := 0x09
@[match_pattern] abbrev newline : UInt8 := 0x0a
@[match_pattern] abbrev formFeed : UInt8 := 0x0c
@[match_pattern] abbrev carriageReturn : UInt8 := 0x0d
@[match_pattern] abbrev space : UInt8 := 0x20
@[match_pattern] abbrev bang : UInt8 := 0x21
@[match_pattern] abbrev doubleQuote : UInt8 := 0x22
@[match_pattern] abbrev singleQuote : UInt8 := 0x27
@[match_pattern] abbrev hyphen : UInt8 := 0x2d
@[match_pattern] abbrev dot : UInt8 := 0x2e
@[match_pattern] abbrev slash : UInt8 := 0x2f
@[match_pattern] abbrev colon : UInt8 := 0x3a
@[match_pattern] abbrev less : UInt8 := 0x3c
@[match_pattern] abbrev equals : UInt8 := 0x3d
@[match_pattern] abbrev greater : UInt8 := 0x3e
@[match_pattern] abbrev question : UInt8 := 0x3f
@[match_pattern] abbrev backslash : UInt8 := 0x5c
@[match_pattern] abbrev underscore : UInt8 := 0x5f

def isDigit (b : UInt8) : Bool := 0x30 ≤ b && b ≤ 0x39

def isLetter (b : UInt8) : Bool := (0x61 ≤ b && b ≤ 0x7a) || (0x41 ≤ b && b ≤ 0x5a)

def toLower (b : UInt8) : UInt8 := if 0x41 ≤ b && b ≤ 0x5a then b + 0x20 else b

def hexValue? (b : UInt8) : Option Nat :=
  if isDigit b then some (b.toNat - 0x30)
  else if 0x61 ≤ b && b ≤ 0x66 then some (b.toNat - 0x61 + 10)
  else if 0x41 ≤ b && b ≤ 0x46 then some (b.toNat - 0x41 + 10)
  else none

def hexDigit (n : Nat) : UInt8 := if n < 10 then (0x30 + n).toUInt8 else (0x61 + (n - 10)).toUInt8

end Byte

namespace Text

def indexFrom (pattern : Text) (offset : Nat) : Text → Option Nat
  | [] => if pattern = [] then some offset else none
  | b :: rest =>
    if pattern.isPrefixOf (b :: rest) then some offset else indexFrom pattern (offset + 1) rest

def indexOf (pattern text : Text) : Option Nat := indexFrom pattern 0 text

def holds (text pattern : Text) : Bool := (indexOf pattern text).isSome

/-- The text without `tail` at its end, or as it is when it does not end so. -/
def withoutTail (tail text : Text) : Text :=
  if tail.isSuffixOf text then text.take (text.length - tail.length) else text

def withoutReturn (line : Text) : Text := withoutTail [Byte.carriageReturn] line

/-- The pieces between the bytes that separate them. There is always at least one, and none holds
such a byte. -/
def pieces (separates : UInt8 → Bool) (text : Text) : List Text :=
  text.foldr
    (fun b found =>
      if separates b then [] :: found
      else match found with
        | [] => [[b]]
        | piece :: more => (b :: piece) :: more)
    [[]]

def lines (text : Text) : List Text := pieces (· == Byte.newline) text

def ofNat (n : Nat) : Text := (Nat.toDigits 10 n).map (·.val.toUInt8)

def ofInt : Int → Text
  | .ofNat n => ofNat n
  | .negSucc n => Byte.hyphen :: ofNat (n + 1)

def replicate (n : Nat) (b : UInt8) : Text := List.replicate n b

def spaces (n : Nat) : Text := replicate n Byte.space

def lowerAscii (text : Text) : Text := text.map Byte.toLower

end Text

end SvgAssist

import SvgAssist.Text.Printable

/-!
# Quoted texts

How a text is shown inside a message: between quotes, with the characters that do not print spelled
out. Control characters with a name of their own take a one-letter escape, other control bytes and
bytes that are not UTF-8 two hexadecimal digits, other characters that do not print four or eight.
-/

namespace SvgAssist.Text

def hexDigits : Nat → Nat → Text
  | 0, _ => []
  | digits + 1, n => hexDigits digits (n / 16) ++ [Byte.hexDigit (n % 16)]

def escapeLetter? (c : Char) : Option UInt8 :=
  match c.toNat with
  | 0x07 => some 0x61
  | 0x08 => some 0x62
  | 0x0c => some 0x66
  | 0x0a => some 0x6e
  | 0x0d => some 0x72
  | 0x09 => some 0x74
  | 0x0b => some 0x76
  | _ => none

def quotedChar (quote : Char) (c : Char) : Text :=
  let n := c.toNat
  if c = quote || c = '\\' then Byte.backslash :: ofChar c
  else if isPrintable c then ofChar c
  else match escapeLetter? c with
    | some letter => [Byte.backslash, letter]
    | none =>
      if n < 0x20 || n = 0x7f then utf8 "\\x" ++ hexDigits 2 n
      else if n < 0x10000 then utf8 "\\u" ++ hexDigits 4 n
      else utf8 "\\U" ++ hexDigits 8 n

def quoteChar (c : Char) : Text := utf8 "'" ++ quotedChar '\'' c ++ utf8 "'"

def quotedFrom (done : List Text) : Text → Text
  | [] => done.reverse.flatten
  | b :: rest =>
    let d := decodeHead b rest
    let piece := if d.isBad then utf8 "\\x" ++ hexDigits 2 b.toNat else quotedChar '"' d.char
    quotedFrom (piece :: done) (rest.drop (d.width - 1))
termination_by text => text.length
decreasing_by simp only [List.length_drop, List.length_cons]; omega

def quote (text : Text) : Text := utf8 "\"" ++ quotedFrom [] text ++ utf8 "\""

end SvgAssist.Text

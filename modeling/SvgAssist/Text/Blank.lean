import SvgAssist.Text.Char

/-!
# White space

The characters with the Unicode property White_Space, and trimming by it.
-/

namespace SvgAssist

namespace Text

def isBlank (c : Char) : Bool :=
  let n := c.toNat
  (0x09 ≤ n && n ≤ 0x0d) || n == 0x20 || n == 0x85 || n == 0xa0 || n == 0x1680 ||
    (0x2000 ≤ n && n ≤ 0x200a) || n == 0x2028 || n == 0x2029 || n == 0x202f || n == 0x205f ||
    n == 0x3000

def trimStart (text : Text) : Text :=
  let blanks := (chars text).takeWhile fun d => isBlank d.char
  text.drop (total (blanks.map (·.width)))

def trimEnd (text : Text) : Text :=
  let blanks := (chars text).reverse.takeWhile fun d => isBlank d.char
  text.take (text.length - total (blanks.map (·.width)))

def trim (text : Text) : Text := trimEnd (trimStart text)

end Text

end SvgAssist

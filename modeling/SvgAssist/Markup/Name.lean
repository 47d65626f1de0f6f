import SvgAssist.Text.Basic

/-!
# Names in markup

Tag and attribute names: an ASCII letter, an underscore or a colon, and after it also digits,
hyphens and dots. `takeName` reads the longest name at the head of a text, `nameAt` finds the name
that touches a column of a line.
-/

namespace SvgAssist.Markup

def isNameStart (b : UInt8) : Bool :=
  Byte.isLetter b || b == Byte.underscore || b == Byte.colon

def isNameByte (b : UInt8) : Bool :=
  isNameStart b || Byte.isDigit b || b == Byte.hyphen || b == Byte.dot

def takeName : Text → Text
  | [] => []
  | b :: rest => if isNameStart b then b :: rest.takeWhile isNameByte else []

/-- The bounds of the name in `line` that touches `column`. They are equal when there is none. The
name bytes around the column are gathered first, and then those in front that cannot begin a name
are given up. -/
def nameAt (line : Text) (column : Int) : Int × Int :=
  if column < 0 || (line.length : Int) < column then (column, column)
  else
    let left := ((line.take column.toNat).reverse.takeWhile isNameByte).reverse
    let right := (line.drop column.toNat).takeWhile isNameByte
    let given := ((left ++ right).takeWhile (!isNameStart ·)).length
    (column - left.length + given, column + right.length)

end SvgAssist.Markup

import SvgAssist.Text.Basic

/-!
# Characters of a text

Reading UTF-8 out of arbitrary bytes. A byte that does not begin a well-formed sequence counts as
one replacement character, one byte wide, so every text splits into characters without loss. The
widths add up to the length of the text, and the split decides columns, display widths and quoting.
-/

namespace SvgAssist

structure Decoded where
  char : Char
  width : Nat
deriving DecidableEq, Repr, Inhabited

namespace Decoded

/-- What stands for a byte that belongs to no character. -/
def bad : Decoded := ⟨Char.ofNat 0xFFFD, 1⟩

def isBad (d : Decoded) : Bool := d.char = Char.ofNat 0xFFFD && d.width = 1

end Decoded

namespace Text

def isTail (b : UInt8) : Bool := 0x80 ≤ b && b ≤ 0xbf

/-- The bytes that may follow the leading byte of a three- or four-byte character. -/
def secondBounds (lead : UInt8) : UInt8 × UInt8 :=
  if lead = 0xe0 then (0xa0, 0xbf)
  else if lead = 0xed then (0x80, 0x9f)
  else if lead = 0xf0 then (0x90, 0xbf)
  else if lead = 0xf4 then (0x80, 0x8f)
  else (0x80, 0xbf)

def isSecond (lead b : UInt8) : Bool := (secondBounds lead).1 ≤ b && b ≤ (secondBounds lead).2

def tailBits (b : UInt8) : Nat := b.toNat % 64

def decodeHead (lead : UInt8) (rest : Text) : Decoded :=
  if lead < 0x80 then ⟨Char.ofNat lead.toNat, 1⟩
  else if 0xc2 ≤ lead && lead ≤ 0xdf then
    match rest with
    | b :: _ =>
      if isTail b then ⟨Char.ofNat (lead.toNat % 32 * 64 + tailBits b), 2⟩ else .bad
    | [] => .bad
  else if 0xe0 ≤ lead && lead ≤ 0xef then
    match rest with
    | b :: c :: _ =>
      if isSecond lead b && isTail c then
        ⟨Char.ofNat (lead.toNat % 16 * 4096 + tailBits b * 64 + tailBits c), 3⟩
      else .bad
    | _ => .bad
  else if 0xf0 ≤ lead && lead ≤ 0xf4 then
    match rest with
    | b :: c :: d :: _ =>
      if isSecond lead b && isTail c && isTail d then
        ⟨Char.ofNat (lead.toNat % 8 * 262144 + tailBits b * 4096 + tailBits c * 64 + tailBits d), 4⟩
      else .bad
    | _ => .bad
  else .bad

def leadWidth (lead : UInt8) : Nat :=
  if lead < 0x80 then 1
  else if 0xc2 ≤ lead && lead ≤ 0xdf then 2
  else if 0xe0 ≤ lead && lead ≤ 0xef then 3
  else if 0xf0 ≤ lead && lead ≤ 0xf4 then 4
  else 0

def isCutShort : Text → Bool
  | [] => false
  | lead :: tail =>
    tail.length + 1 < leadWidth lead &&
      (match tail with
      | [] => true
      | b :: more => isSecond lead b && more.all isTail)

def firstChar? : Text → Option Decoded
  | [] => none
  | b :: rest => some (decodeHead b rest)

def firstCharBytes (text : Text) : Text :=
  match firstChar? text with
  | none => []
  | some d => text.take d.width

def isLead (b : UInt8) : Bool := !isTail b

/-- How many bytes the last character takes. It is looked for at the nearest leading byte among the
last four; a sequence that does not reach exactly to the end leaves the last byte on its own. -/
def lastCharWidth (text : Text) : Nat :=
  let size := text.length
  match text.getLast? with
  | none => 0
  | some b =>
    if b < 0x80 then 1
    else
      match [2, 3, 4].find? fun n => n ≤ size && (text.drop (size - n)).head?.any isLead with
      | none => 1
      | some n =>
        match firstChar? (text.drop (size - n)) with
        | some d => if d.width = n then n else 1
        | none => 1

def lastCharBytes (text : Text) : Text := text.drop (text.length - lastCharWidth text)

def charsFrom (found : List Decoded) : Text → List Decoded
  | [] => found.reverse
  | b :: rest => charsFrom (decodeHead b rest :: found) (rest.drop ((decodeHead b rest).width - 1))
termination_by text => text.length
decreasing_by simp only [List.length_drop, List.length_cons]; omega

def chars (text : Text) : List Decoded := charsFrom [] text

def charCount (text : Text) : Nat := (chars text).length

def ofChar (c : Char) : Text :=
  let n := c.toNat
  if n < 0x80 then [n.toUInt8]
  else if n < 0x800 then [(0xc0 + n / 64).toUInt8, (0x80 + n % 64).toUInt8]
  else if n < 0x10000 then
    [(0xe0 + n / 4096).toUInt8, (0x80 + n / 64 % 64).toUInt8, (0x80 + n % 64).toUInt8]
  else
    [(0xf0 + n / 262144).toUInt8, (0x80 + n / 4096 % 64).toUInt8, (0x80 + n / 64 % 64).toUInt8,
      (0x80 + n % 64).toUInt8]

def ofChars (cs : List Char) : Text := cs.flatMap ofChar

def isValid (text : Text) : Bool := (chars text).all (!·.isBad)

def repaired (text : Text) : Text := (chars text).flatMap fun d => ofChar d.char

end Text

end SvgAssist

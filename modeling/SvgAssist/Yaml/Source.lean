import SvgAssist.Yaml.Problem

/-!
# Characters of a YAML text

The encoding of a YAML text is told by its byte order mark, UTF-8 when it has none. Control
characters other than tabs and line ends are refused.

A text is read in blocks, and trouble with its characters shows when the block that has it is read.
So the ends of the blocks are kept beside the characters.
-/

namespace SvgAssist.Yaml

def octetWidth (b : UInt8) : Nat :=
  if b < 0x80 then 1
  else if b &&& 0xe0 == 0xc0 then 2
  else if b &&& 0xf0 == 0xe0 then 3
  else if b &&& 0xf8 == 0xf0 then 4
  else 0

def leadingBits (b : UInt8) : Nat → Nat
  | 1 => b.toNat
  | 2 => b.toNat % 32
  | 3 => b.toNat % 16
  | _ => b.toNat % 8

def fitsWidth (value : Nat) : Nat → Bool
  | 2 => 0x80 ≤ value
  | 3 => 0x800 ≤ value
  | 4 => 0x10000 ≤ value
  | _ => true

def isAllowed (n : Nat) : Bool :=
  n == 0x09 || n == 0x0a || n == 0x0d || (0x20 ≤ n && n ≤ 0x7e) || n == 0x85 ||
    (0xa0 ≤ n && n ≤ 0xd7ff) || (0xe000 ≤ n && n ≤ 0xfffd) || (0x10000 ≤ n && n ≤ 0x10ffff)

/-- What stands at the head of some bytes: a character of a width, fewer bytes than a character
takes, or something that is no character. -/
inductive Decoded where
  | char (c : Char) (width : Nat)
  | short (problem : Problem)
  | bad (problem : Problem)

def allowed (value width : Nat) : Decoded :=
  if isAllowed value then .char (Char.ofNat value) width else .bad .controlCharacter

/-- The UTF-8 character that begins with `lead` and goes on in `rest`, of which only `known` bytes
are known, the first one included. -/
def decodeOctets (known : Nat) (lead : UInt8) (rest : Text) : Decoded :=
  let width := octetWidth lead
  let tail := rest.take (width - 1)
  if width = 0 then .bad .leadingOctet
  else if known < width then .short .incompleteOctets
  else if tail.any (· &&& 0xc0 != 0x80) then .bad .trailingOctet
  else
    let value := tail.foldl (fun n b => n * 64 + b.toNat % 64) (leadingBits lead width)
    if !fitsWidth value width then .bad .sequenceLength
    else if (0xd800 ≤ value && value ≤ 0xdfff) || 0x10ffff < value then .bad .invalidCharacter
    else allowed value width

def decodeUnits (bigEndian : Bool) (known : Nat) (lead : UInt8) (rest : Text) : Decoded :=
  let join (a b : UInt8) :=
    if bigEndian then a.toNat * 256 + b.toNat else b.toNat * 256 + a.toNat
  match rest with
  | [] => .short .incompleteUnit
  | b :: rest =>
    let unit := join lead b
    if known < 2 then .short .incompleteUnit
    else if 0xdc00 ≤ unit && unit < 0xe000 then .bad .lowSurrogate
    else if 0xd800 ≤ unit && unit < 0xdc00 then
      match rest with
      | c :: d :: _ =>
        let low := join c d
        if known < 4 then .short .incompletePair
        else if 0xdc00 ≤ low && low < 0xe000 then
          allowed (0x10000 + (unit - 0xd800) * 0x400 + (low - 0xdc00)) 4
        else .bad .expectedLowSurrogate
      | _ => .short .incompletePair
    else allowed unit 2

def blockSize : Nat := 512

/-- A decoded text: the characters up to the first trouble, the number of characters up to the end
of each block before that, and the trouble. -/
structure Source where
  chars : List Char
  blocks : List Nat
  trouble : Option Problem

/-- The part of a text that has been decoded, latest first: the characters, their number, and the
ends of the blocks. The block that is being read ends after `left` more bytes, and `total` are left
of the text. -/
structure Loading where
  found : List Char
  count : Nat
  blocks : List Nat
  left : Nat
  total : Nat

namespace Loading

def nextBlock (l : Loading) : Loading :=
  { l with blocks := l.count :: l.blocks, left := min blockSize l.total }

def push (l : Loading) (c : Char) (width : Nat) : Loading :=
  { l with
    found := c :: l.found
    count := l.count + 1
    left := l.left - width
    total := l.total - width }

def finish (l : Loading) (trouble : Option Problem) : Source :=
  ⟨l.found.reverse, (l.count :: l.blocks).reverse, trouble⟩

def stop (l : Loading) (trouble : Problem) : Source :=
  ⟨l.found.reverse, l.blocks.reverse, some trouble⟩

end Loading

/-- Decodes a text. A character that the end of a block cuts in two is the first one of the next
block. -/
def decodeFrom (head : Nat → UInt8 → Text → Decoded) (l : Loading) : Text → Source
  | [] => l.finish none
  | b :: rest =>
    let first := if l.left = 0 then .short .incompleteOctets else head l.left b rest
    let cut : Bool := match first with
      | .short _ => l.left < l.total
      | _ => false
    let l := if cut then l.nextBlock else l
    match if cut then head l.left b rest else first with
    | .char c width => decodeFrom head (l.push c width) (rest.drop (width - 1))
    | .short problem => l.finish (some problem)
    | .bad problem => l.stop problem
termination_by text => text.length
decreasing_by simp only [List.length_drop, List.length_cons]; omega

def decodeBehind (mark : Nat) (head : Nat → UInt8 → Text → Decoded) (text : Text) : Source :=
  let size := text.length
  decodeFrom head ⟨[], 0, [], min blockSize size - mark, size - mark⟩ (text.drop mark)

def decode (text : Text) : Source :=
  match text with
  | 0xff :: 0xfe :: _ => decodeBehind 2 (decodeUnits false) text
  | 0xfe :: 0xff :: _ => decodeBehind 2 (decodeUnits true) text
  | 0xef :: 0xbb :: 0xbf :: _ => decodeBehind 3 decodeOctets text
  | _ => decodeBehind 0 decodeOctets text

end SvgAssist.Yaml

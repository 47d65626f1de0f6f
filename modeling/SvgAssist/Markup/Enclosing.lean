import SvgAssist.Markup.Event

/-!
# What encloses a cursor

The markup around the end of a text, the text before a cursor: the start tag that is still open
there (`enclosingTag`), the attribute whose value begins there (`enclosingAttribute`), the innermost
open element (`parentElement`) and the last tag (`precedingTag`).

The first two look backwards from the cursor and know nothing of quotes or comments; the third
follows the forward scan of `SvgAssist.Markup.Event`.
-/

namespace SvgAssist.Markup

structure EnclosingTag where
  name : Text
  rest : Text
deriving DecidableEq, Repr

/-- Walks back to the nearest angle bracket. `after` is the text behind the walk, which must be a
start tag if the bracket opens. -/
def enclosingTagBack (after : Text) : List UInt8 → Option EnclosingTag
  | [] => none
  | b :: earlier =>
    if b = Byte.greater then none
    else if b = Byte.less then
      let name := takeName after
      if name = [] then none else some ⟨name, after.drop name.length⟩
    else enclosingTagBack (b :: after) earlier

def enclosingTag (text : Text) : Option EnclosingTag := enclosingTagBack [] text.reverse

structure EnclosingAttribute where
  tag : Text
  name : Text
deriving DecidableEq, Repr

def isAttributeSpace (b : UInt8) : Bool :=
  b == Byte.tab || b == Byte.newline || b == Byte.formFeed || b == Byte.carriageReturn ||
    b == Byte.space

/-- An attribute list that ends in a name, an equals sign and at most an opening quote: what comes
before the name, and the name. White space may stand around the equals sign. In front of the name is
white space or the start of the list. -/
def openValue (attributes : Text) : Option (Text × Text) :=
  let backwards := match attributes.reverse with
    | Byte.doubleQuote :: earlier => earlier
    | all => all
  match backwards.dropWhile isAttributeSpace with
  | Byte.equals :: earlier =>
    let earlier := earlier.dropWhile isAttributeSpace
    let name := (earlier.takeWhile isNameByte).reverse
    let front := earlier.dropWhile isNameByte
    match name, front with
    | [], _ => none
    | first :: _, [] => if isNameStart first then some ([], name) else none
    | first :: _, b :: _ =>
      if isNameStart first && isAttributeSpace b then some (front.reverse, name) else none
  | _ => none

/-- The attribute whose value begins at the end of a text. An odd number of double quotes before its
name means that the name stands inside the value of another attribute. -/
def enclosingAttribute (text : Text) : Option EnclosingAttribute := do
  let tag ← enclosingTag text
  let (front, name) ← openValue tag.rest
  if front.count Byte.doubleQuote % 2 = 0 then some ⟨tag.name, name⟩ else none

/-- The open elements after a tag event, innermost first. An end tag closes the nearest element of
its name and all inside of it; one that matches nothing is ignored. -/
def nest (stack : List Text) (e : Event) : List Text :=
  match e.kind with
  | .opened => e.name :: stack
  | .closed =>
    match stack.findIdx? (· == e.name) with
    | none => stack
    | some inner => stack.drop (inner + 1)
  | .selfClosed | .comment => stack

def parentElement (budget : Budget) (text : Text) : Except Interrupted (Option Text) :=
  (scan budget text).map fun events => (events.foldl nest []).head?

def precedingTagBack (after : Text) : List UInt8 → Option Text
  | [] => none
  | b :: earlier =>
    match b, after with
    | Byte.less, c :: rest =>
      if c = Byte.slash || c = Byte.bang || c = Byte.question then some (c :: takeName rest)
      else if isNameStart c then some (takeName (c :: rest))
      else precedingTagBack (b :: after) earlier
    | _, _ => precedingTagBack (b :: after) earlier

/-- The last tag of a text, not counting a `<` that was just typed at its end. The name of an end
tag, declaration or instruction has its mark in front. -/
def precedingTag (text : Text) : Option Text :=
  precedingTagBack [] (Text.withoutTail [Byte.less] text).reverse

end SvgAssist.Markup

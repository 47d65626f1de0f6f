import SvgAssist.Markup.Enclosing
import SvgAssist.Markup.Outline

/-!
# Well-formed documents

A document is a list of nodes: texts, comments, character data sections, processing instructions,
declarations and elements, each with what its syntax demands of its parts. `Node.renderAll` writes
it. Where its elements and comments then stand is told by `Node.elementsAll` and `Node.commentsAll`,
and what is written there by `Node.writtenElements` and `Node.writtenComments`.
-/

namespace SvgAssist.Markup

/-! ## Tags -/

structure Space where
  bytes : Text
  isSpace : ∀ b ∈ bytes, isAttributeSpace b

theorem not_isNameByte_of_isAttributeSpace {b : UInt8} (h : isAttributeSpace b) :
    ¬ isNameByte b := by
  simp only [isAttributeSpace, Bool.or_eq_true, beq_iff_eq] at h
  rcases h with (((rfl | rfl) | rfl) | rfl) | rfl <;> decide

structure TagName where
  bytes : Text
  whole : takeName bytes = bytes
  ne_nil : bytes ≠ []

/-- A byte in the name of an attribute: no white space, no quote, no equals sign, no slash and no
angle bracket. -/
def isAttributeNameByte (b : UInt8) : Bool :=
  !isAttributeSpace b && b != Byte.doubleQuote && b != Byte.singleQuote && b != Byte.equals &&
    b != Byte.slash && b != Byte.less && b != Byte.greater

/-- An attribute with the white space in front of it. Its value holds any byte but its quote. -/
structure Attribute where
  space : Space
  name : Text
  beforeEquals : Space
  afterEquals : Space
  quote : UInt8
  value : Text
  space_ne_nil : space.bytes ≠ []
  name_ne_nil : name ≠ []
  isName : ∀ b ∈ name, isAttributeNameByte b
  isQuote : quote = Byte.doubleQuote ∨ quote = Byte.singleQuote
  quote_notMem : quote ∉ value

def Attribute.front (a : Attribute) : Text :=
  a.space.bytes ++ a.name ++ a.beforeEquals.bytes ++ [Byte.equals] ++ a.afterEquals.bytes

def Attribute.render (a : Attribute) : Text := a.front ++ a.quote :: (a.value ++ [a.quote])

structure Attributes where
  list : List Attribute
  space : Space

def Attributes.render (as : Attributes) : Text := as.list.flatMap Attribute.render ++ as.space.bytes

/-! ## Nodes -/

inductive Node where
  | text (bytes : Text) (hfree : Byte.less ∉ bytes)
  | comment (body : Text) (hfree : ¬ utf8 "-->" <:+: body)
  | data (body : Text) (hfree : ¬ utf8 "]]>" <:+: body)
  | instruction (body : Text) (hfree : ¬ utf8 "?>" <:+: body)
  | declaration (body : Text) (hfree : Byte.greater ∉ body) (hcomment : ¬ utf8 "--" <+: body)
      (hdata : ¬ utf8 "[CDATA[" <+: body)
  | empty (name : TagName) (attributes : Attributes)
  | element (name : TagName) (attributes : Attributes) (children : List Node) (space : Space)

namespace Node

def opener (name : TagName) (attributes : Attributes) : Text :=
  Byte.less :: (name.bytes ++ (attributes.render ++ utf8 ">"))

def closer (name : TagName) (space : Space) : Text :=
  Byte.less :: Byte.slash :: (name.bytes ++ (space.bytes ++ utf8 ">"))

mutual

def render : Node → Text
  | text bytes _ => bytes
  | comment body _ => utf8 "<!--" ++ (body ++ utf8 "-->")
  | data body _ => utf8 "<![CDATA[" ++ (body ++ utf8 "]]>")
  | instruction body _ => utf8 "<?" ++ (body ++ utf8 "?>")
  | declaration body _ _ _ => utf8 "<!" ++ (body ++ utf8 ">")
  | empty name attributes => Byte.less :: (name.bytes ++ (attributes.render ++ utf8 "/>"))
  | element name attributes children space =>
    opener name attributes ++ (renderAll children ++ closer name space)

def renderAll : List Node → Text
  | [] => []
  | n :: ns => render n ++ renderAll ns

end

/-- A quoted `/>`, a tag in a comment, and a section that ends in one bracket more. -/
example :
    renderAll
      [.element ⟨utf8 "a", rfl, by decide⟩
        ⟨[⟨⟨utf8 " ", List.forall_mem_singleton.mpr rfl⟩, utf8 "b", ⟨[], List.forall_mem_nil _⟩,
          ⟨[], List.forall_mem_nil _⟩, Byte.singleQuote, utf8 "/>", by decide, by decide,
          List.forall_mem_singleton.mpr rfl, .inr rfl, by decide⟩], ⟨[], List.forall_mem_nil _⟩⟩
        [.comment (utf8 "<c>") (by decide), .data (utf8 "]") (by decide)]
        ⟨utf8 " ", List.forall_mem_singleton.mpr rfl⟩] =
      utf8 "<a b='/>'><!--<c>--><![CDATA[]]]></a >" := by
  rfl

/-! ## Where things stand -/

mutual

/-- The elements of a node that is written at `offset`: an element covers its tags and all between
them. -/
def elements (offset : Nat) : Node → List Element
  | .empty name attributes =>
    [.mk name.bytes ⟨offset, offset + (render (.empty name attributes)).length⟩ []]
  | .element name attributes children space =>
    [.mk name.bytes ⟨offset, offset + (render (.element name attributes children space)).length⟩
      (elementsAll (offset + (opener name attributes).length) children)]
  | .text _ _ | .comment _ _ | .data _ _ | .instruction _ _ | .declaration _ _ _ _ => []

def elementsAll (offset : Nat) : List Node → List Element
  | [] => []
  | n :: ns => elements offset n ++ elementsAll (offset + (render n).length) ns

end

mutual

def comments (offset : Nat) : Node → List Span
  | .comment body hfree => [⟨offset, offset + (render (.comment body hfree)).length⟩]
  | .element name attributes children _ =>
    commentsAll (offset + (opener name attributes).length) children
  | .text _ _ | .data _ _ | .instruction _ _ | .declaration _ _ _ _ | .empty _ _ => []

def commentsAll (offset : Nat) : List Node → List Span
  | [] => []
  | n :: ns => comments offset n ++ commentsAll (offset + (render n).length) ns

end

/-! ## What is written there -/

mutual

def writtenElements : Node → List Text
  | .empty name attributes => [render (.empty name attributes)]
  | .element name attributes children space =>
    render (.element name attributes children space) :: writtenElementsAll children
  | .text _ _ | .comment _ _ | .data _ _ | .instruction _ _ | .declaration _ _ _ _ => []

def writtenElementsAll : List Node → List Text
  | [] => []
  | n :: ns => writtenElements n ++ writtenElementsAll ns

end

mutual

def writtenComments : Node → List Text
  | .comment body hfree => [render (.comment body hfree)]
  | .element _ _ children _ => writtenCommentsAll children
  | .text _ _ | .data _ _ | .instruction _ _ | .declaration _ _ _ _ | .empty _ _ => []

def writtenCommentsAll : List Node → List Text
  | [] => []
  | n :: ns => writtenComments n ++ writtenCommentsAll ns

end

end Node

def Span.bytes (text : Text) (s : Span) : Text := (text.drop s.start).take (s.stop - s.start)

-- A span is told by the bytes in front of it and its own.
theorem Span.bytes_append (front covered behind : Text) :
    Span.bytes (front ++ (covered ++ behind))
      ⟨front.length, front.length + covered.length⟩ = covered := by
  rw [Span.bytes, List.drop_left, Nat.add_sub_cancel_left, List.take_left]

namespace Node

/-! ## Spans cover what is written -/

theorem walkAll_append (depth : Nat) (es more : List Element) :
    Element.walkAll depth (es ++ more) =
      Element.walkAll depth es ++ Element.walkAll depth more := by
  induction es with
  | nil => rw [List.nil_append, Element.walkAll, List.nil_append]
  | cons e es ih =>
    rw [List.cons_append, Element.walkAll, Element.walkAll, ih, List.append_assoc]

mutual

-- The span of each element of a node covers the element as it is written.
theorem map_bytes_elements (front behind : Text) (depth : Nat) (n : Node) :
    (Element.walkAll depth (elements front.length n)).map
        (fun e => e.2.2.bytes (front ++ (render n ++ behind))) = writtenElements n := by
  cases n with
  | empty name attributes =>
    simp only [elements, Element.walkAll, Element.walk, List.map_cons, List.append_nil,
      List.map_nil, Span.bytes_append, writtenElements]
  | element name attributes children space =>
    -- For the children the start tag is part of what is in front, the end tag of what is behind.
    have hinner := map_bytes_elementsAll (front ++ opener name attributes)
      (closer name space ++ behind) (depth + 1) children
    have hsplit : front ++ opener name attributes ++
          (renderAll children ++ (closer name space ++ behind)) =
        front ++ (render (.element name attributes children space) ++ behind) := by
      simp only [render, List.append_assoc]
    rw [List.length_append, hsplit] at hinner
    simp only [elements, Element.walkAll, Element.walk, List.append_nil, List.map_cons,
      Span.bytes_append, hinner, writtenElements]
  | _ => simp only [elements, Element.walkAll, List.map_nil, writtenElements]

-- The elements of a list lie in its text one behind the other, each at the offset where the one in
-- front ends.
theorem map_bytes_elementsAll (front behind : Text) (depth : Nat) (ns : List Node) :
    (Element.walkAll depth (elementsAll front.length ns)).map
        (fun e => e.2.2.bytes (front ++ (renderAll ns ++ behind))) = writtenElementsAll ns := by
  cases ns with
  | nil => simp only [elementsAll, Element.walkAll, List.map_nil, writtenElementsAll]
  | cons n ns =>
    have hhead := map_bytes_elements front (renderAll ns ++ behind) depth n
    have htail := map_bytes_elementsAll (front ++ render n) behind depth ns
    rw [List.length_append, List.append_assoc] at htail
    simp only [elementsAll, renderAll, walkAll_append, List.map_append, List.append_assoc, hhead,
      htail, writtenElementsAll]

end

mutual

-- The span of each comment of a node covers the comment as it is written.
theorem map_bytes_comments (front behind : Text) (n : Node) :
    (comments front.length n).map (fun s => s.bytes (front ++ (render n ++ behind))) =
      writtenComments n := by
  cases n with
  | comment body hfree =>
    simp only [comments, List.map_cons, List.map_nil, Span.bytes_append, writtenComments]
  | element name attributes children space =>
    have hinner := map_bytes_commentsAll (front ++ opener name attributes)
      (closer name space ++ behind) children
    have hsplit : front ++ opener name attributes ++
          (renderAll children ++ (closer name space ++ behind)) =
        front ++ (render (.element name attributes children space) ++ behind) := by
      simp only [render, List.append_assoc]
    rw [List.length_append, hsplit] at hinner
    simp only [comments, hinner, writtenComments]
  | _ => simp only [comments, List.map_nil, writtenComments]

theorem map_bytes_commentsAll (front behind : Text) (ns : List Node) :
    (commentsAll front.length ns).map (fun s => s.bytes (front ++ (renderAll ns ++ behind))) =
      writtenCommentsAll ns := by
  cases ns with
  | nil => simp only [commentsAll, List.map_nil, writtenCommentsAll]
  | cons n ns =>
    have hhead := map_bytes_comments front (renderAll ns ++ behind) n
    have htail := map_bytes_commentsAll (front ++ render n) behind ns
    rw [List.length_append, List.append_assoc] at htail
    simp only [commentsAll, renderAll, List.map_append, List.append_assoc, hhead, htail,
      writtenCommentsAll]

end

end Node

end SvgAssist.Markup

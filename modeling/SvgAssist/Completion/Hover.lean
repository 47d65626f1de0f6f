import SvgAssist.Completion.Offer
import SvgAssist.Markup.Enclosing

/-!
# Hovers

The documentation of the name under a cursor. The name of an element is told by the `<` or `</` in
front of it, the name of an attribute by the `=` that follows it inside of a start tag.
-/

namespace SvgAssist.Completion

open Grammar Markup

structure Hover where
  range : Range
  contents : Text
deriving DecidableEq, Repr

def hoverContents (title type documentation : Text) (deprecated : Bool) : Text :=
  let shown := (describe documentation deprecated).2
  utf8 "\x60" ++ title ++ utf8 "\x60" ++
    (if type = [] then [] else utf8 " \x60" ++ type ++ utf8 "\x60") ++
    (if shown ≠ [] then utf8 "\n\n" ++ shown
      else if deprecated then utf8 "\n\n**DEPRECATED**"
      else [])

/-- The columns of a line up to which names are looked for. -/
def farColumn : Int := 0x7fffffff

def hover (c : Catalog) (text : Text) (pos : Position) : Option Hover := do
  let line := Text.slice text ⟨⟨pos.line, 0⟩, ⟨pos.line, farColumn⟩⟩
  let (start, stop) := nameAt line pos.column
  if start = stop then none
  else
    let name := (line.drop start.toNat).take (stop - start).toNat
    let range : Range := ⟨⟨pos.line, start⟩, ⟨pos.line, stop⟩⟩
    let before := line.take start.toNat
    if (utf8 "<").isSuffixOf before || (utf8 "</").isSuffixOf before then
      let e ← c.element? name
      some ⟨range, hoverContents (utf8 "<" ++ name ++ utf8 ">") [] e.documentation e.deprecated⟩
    else
      let after := (line.drop stop.toNat).dropWhile fun b => b == Byte.space || b == Byte.tab
      if after.head? ≠ some Byte.equals then none
      else
        let tag ← enclosingTag (Text.before text range.start)
        let a ← c.resolve tag.name name
        some ⟨range, hoverContents name a.type a.documentation a.deprecated⟩

end SvgAssist.Completion

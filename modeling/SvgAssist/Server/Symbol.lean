import SvgAssist.Grammar.Catalog
import SvgAssist.Markup.Outline
import SvgAssist.Server.Position

/-!
# Symbols and folds

What a client shows of a document's outline: the tree of its elements, and the parts that it can
fold away.
-/

namespace SvgAssist.Server

open Grammar Markup

/-- An element for a client: its whole range, and the range of its name in the start tag. -/
inductive Symbol where
  | mk (name detail : Text) (range selection : ClientRange) (children : List Symbol)

namespace Symbol

def name : Symbol → Text
  | mk name _ _ _ _ => name

def detail : Symbol → Text
  | mk _ detail _ _ _ => detail

def range : Symbol → ClientRange
  | mk _ _ range _ _ => range

def selection : Symbol → ClientRange
  | mk _ _ _ selection _ => selection

def children : Symbol → List Symbol
  | mk _ _ _ _ children => children

end Symbol

def elementRemark (c : Catalog) (name : Text) : Text :=
  match c.element? name with
  | none => utf8 "unknown element"
  | some e => if e.deprecated then utf8 "deprecated" else []

mutual

def Symbol.ofElement (c : Catalog) (places : Places) : Markup.Element → Symbol
  | .mk name span children =>
    .mk name (elementRemark c name) (places.span span.start span.stop)
      (places.span (span.start + 1) (span.start + 1 + name.length))
      (Symbol.ofElements c places children)

def Symbol.ofElements (c : Catalog) (places : Places) : List Markup.Element → List Symbol
  | [] => []
  | e :: es => Symbol.ofElement c places e :: Symbol.ofElements c places es

end

inductive FoldKind where
  | region
  | comment
deriving DecidableEq, Repr

def FoldKind.label : FoldKind → Text
  | .region => utf8 "region"
  | .comment => utf8 "comment"

structure Fold where
  startLine : UInt32
  endLine : UInt32
  kind : FoldKind
deriving DecidableEq, Repr

/-- The fold of a span that goes over more than one line. The lines are compared before they are cut
to what the client can count. -/
def Fold.ofSpan? (places : Places) (kind : FoldKind) (span : Span) : Option Fold :=
  if span.stop ≤ span.start then none
  else
    let startLine := places.line span.start
    let endLine := places.line (span.stop - 1)
    if endLine ≤ startLine then none else some ⟨word startLine, word endLine, kind⟩

/-- The folds of a document: its elements, parents first, and then its comments. -/
def Fold.ofOutline (places : Places) (o : Outline) : List Fold :=
  (o.walk.filterMap fun (_, _, span) => ofSpan? places .region span) ++
    o.comments.filterMap (ofSpan? places .comment)

end SvgAssist.Server

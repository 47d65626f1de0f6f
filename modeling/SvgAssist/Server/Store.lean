import SvgAssist.Server.Position

/-!
# Open documents

The documents that a client has open, by their addresses, and the edits that it sends for them.
-/

namespace SvgAssist.Server

structure Document where
  uri : Text
  version : Int
  text : Text
deriving DecidableEq, Repr, Inhabited

/-- The open documents. Every address stands there at most once. -/
structure Store where
  documents : List Document
deriving DecidableEq, Repr, Inhabited

namespace Store

def empty : Store := ⟨[]⟩

def get? (s : Store) (uri : Text) : Option Document := s.documents.find? (·.uri == uri)

def close (s : Store) (uri : Text) : Store := ⟨s.documents.filter (·.uri != uri)⟩

/-- With a document, in the place of an earlier one at its address. A change of a document that was
never opened opens it. -/
def put (s : Store) (d : Document) : Store := ⟨d :: (s.close d.uri).documents⟩

end Store

/-- A change of a document: a new text for a range of it, or for all of it. -/
structure Change where
  range : Option ClientRange
  text : Text
deriving DecidableEq, Repr, Inhabited

namespace Change

/-- A text after a change. The ends of the range may come in either order. -/
def apply (content : Text) (c : Change) : Text :=
  match c.range with
  | none => c.text
  | some range =>
    let a := Text.offset content (Text.ofClient content range.start)
    let b := Text.offset content (Text.ofClient content range.stop)
    content.take (min a b) ++ c.text ++ content.drop (max a b)

def applyAll (content : Text) (changes : List Change) : Text := changes.foldl apply content

end Change

end SvgAssist.Server

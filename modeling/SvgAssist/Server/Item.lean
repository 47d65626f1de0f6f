import SvgAssist.Completion.Candidate
import SvgAssist.Json.Basic
import SvgAssist.Server.Position

/-!
# Completion items

A candidate in the form in which a client takes it. The kind is one of the numbers that the protocol
has for kinds of items, and the cursor is moved by a command that the client runs after inserting.
-/

namespace SvgAssist.Server

open Completion

structure ClientCommand where
  title : Text
  command : Text
  arguments : List Json

inductive Insertion where
  | atCursor (text : Text)
  | replace (range : ClientRange) (text : Text)
deriving DecidableEq, Repr

structure Item where
  label : Text
  kind : Nat
  detail : Text
  documentation : Text
  insertion : Insertion
  command : Option ClientCommand

/-- The protocol's number for the kind of an item: class, property, enumeration, or plain text. -/
def itemKind : Kind → Nat
  | .element => 7
  | .attribute => 10
  | .value => 13
  | .unknown => 1

def moveCursor : Text := utf8 "_svg.moveCursor"

/-- The command for a movement. An attribute also tells whether its values can be completed. -/
def clientCommand (c : Candidate) : Option ClientCommand :=
  let offset := c.command.offset
  match c.command.movement with
  | .left =>
    if c.kind = .attribute then
      some ⟨utf8 "Cursor Left", moveCursor,
        [.ofInt (wrap64 (-offset)), .bool c.command.valuesFollow]⟩
    else some ⟨utf8 "Cursor To Inside", moveCursor, [.ofInt (wrap64 (-offset))]⟩
  | .up => some ⟨utf8 "Cursor Up", utf8 "cursorUp", []⟩
  | .right => some ⟨utf8 "Cursor Out Attribute", moveCursor, [.ofInt offset]⟩
  | .none | .unknown => none

def Item.ofCandidate (text : Text) (c : Candidate) : Item where
  label := c.label
  kind := itemKind c.kind
  detail := c.detail
  documentation := c.documentation
  insertion := match c.edit with
    | some edit => .replace (Text.toClientRange text edit.range) edit.text
    | none => .atCursor c.insertion
  command := clientCommand c

end SvgAssist.Server

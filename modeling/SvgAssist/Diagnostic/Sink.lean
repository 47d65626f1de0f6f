import SvgAssist.Diagnostic.Snippet

/-!
# Writing reports

Reports are written to a sink that may fill up. A sink decides how much of a text it takes, and a
write of which it does not take everything fails. The pieces of one report are printed into a
buffer, so the sink sees few and large writes. The buffer and the printer in front of it remember a
failure and drop what comes later.
-/

namespace SvgAssist.Diagnostic

structure Delivery where
  text : Text
  taken : Nat
deriving DecidableEq, Repr

def received (writes : List Delivery) : Text := writes.flatMap fun w => w.text.take w.taken

/-- What is written to: how many bytes it takes of the next text when it has seen some writes, and
the writes that it has seen. -/
structure Sink where
  takes : List Delivery → Text → Nat
  writes : List Delivery

namespace Sink

/-- A sink that takes a text as a whole if there is room for all of it, and else nothing. -/
def empty (limit : Option Nat) : Sink where
  takes writes text :=
    if limit.any (· < (received writes).length + text.length) then 0 else text.length
  writes := []

def written (s : Sink) : Text := received s.writes

/-- Writes a text. It is a failure when not all of it is taken; both ways tell what the sink has
seen. -/
def write (s : Sink) (text : Text) : Except Sink Sink :=
  let taken := min (s.takes s.writes text) text.length
  let after := { s with writes := s.writes ++ [⟨text, taken⟩] }
  if taken < text.length then .error after else .ok after

end Sink

def bufferSize : Nat := 4096

structure Buffered where
  sink : Sink
  held : Text
  failed : Bool

namespace Buffered

def start (s : Sink) : Buffered := ⟨s, [], false⟩

def direct (b : Buffered) (text : Text) : Buffered :=
  match b.sink.write text with
  | .ok s => ⟨s, [], false⟩
  | .error s => { b with sink := s, failed := true }

def flush (b : Buffered) : Buffered :=
  if b.failed || b.held = [] then b else b.direct b.held

/-- Writes a text. A buffer that overflows is filled up and written out; what is left is held, or
written at once when it is larger than the buffer. -/
def write (b : Buffered) (text : Text) : Buffered :=
  let room := bufferSize - b.held.length
  if b.failed then b
  else if text.length ≤ room then { b with held := b.held ++ text }
  else if b.held = [] then b.direct text
  else
    let b := { b with held := b.held ++ text.take room }.flush
    let rest := text.drop room
    if b.failed then b
    else if rest.length ≤ bufferSize then { b with held := rest }
    else b.direct rest

def close (b : Buffered) : Except Sink Sink := if b.failed then .error b.sink else .ok b.sink

end Buffered

/-- What the pieces of a report are printed into: it is told by every write whether that failed, and
drops the pieces after one that did. -/
structure Printer where
  out : Buffered
  failed : Bool

namespace Printer

def start (s : Sink) : Printer := ⟨.start s, false⟩

def print (p : Printer) (text : Text) : Printer :=
  if p.failed then p
  else
    let out := p.out.write text
    ⟨out, out.failed⟩

end Printer

def render (p : Palette) (read : Text → Option Text) (s : Sink) (r : Report) : Except Sink Sink :=
  let printer := (pieces p read r).foldl Printer.print (.start s)
  if printer.failed then .error printer.out.sink else printer.out.flush.close

def renderAll (p : Palette) (read : Text → Option Text) (s : Sink) : List Report → Except Sink Sink
  | [] => .ok s
  | [r] => render p read s r
  | r :: rs => do
    let s ← render p read s r
    let s ← s.write [Byte.newline]
    renderAll p read s rs

end SvgAssist.Diagnostic

import SvgAssist.Proofs.Command.SyntaxError
import SvgAssist.Proofs.Diagnostic.Stream
import SvgAssist.Proofs.Text.Index

/-!
# Places in a source

The place of a byte in a grammar file is told by counting newlines, that of a cursor by the index of
its document, and the line that is quoted comes from reading the file line by line. They tell the
same place and the same line (`source_places_agree`).
-/

namespace SvgAssist.Command

open Diagnostic Grammar Text

/-- The place that is counted for byte `k` of a source is the position that a search of the index
finds, counted from one, and the line that is read there is the one that the index cuts out, as long
as no line of the source is too long to be read. The same holds without an index and a buffer. -/
theorem source_places_agree {read : Text → Option Text} {file d : Text} {k : Nat}
    (hread : read file = some d) (hfile : file ≠ [])
    (hshort : ∀ l ∈ lines d, l.length < maxLineSize) (hpos : 1 ≤ k) (hle : k ≤ d.length) :
    let place := offsetPosition d k
    let pos := soughtPosition d (k - 1 : Nat)
    (place.1 : Int) = pos.line + 1 ∧ (place.2 : Int) = pos.column + 1 ∧
      streamedLine? read file place.1 = some (indexedLine d (place.1 - 1)) ∧
      positionAt d (k - 1 : Nat) = pos ∧
      sourceLine? read file place.1 = some (line d (place.1 - 1)) := by
  intro place pos
  set n := (d.take (k - 1)).count Byte.newline with hn
  have hplace : place = (n + 1, (lineBefore d (k - 1)).length + 1) := offsetPosition_eq hle
  have hposition : positionAt d (k - 1 : Nat) = ⟨n, (lineBefore d (k - 1)).length⟩ :=
    positionAt_natCast d (k - 1)
  have hsought : positionAt d (k - 1 : Nat) = pos := (soughtPosition_eq d _).symm
  have hline : sourceLine? read file place.1 = some (line d (place.1 - 1)) := by
    have hquoted := sourceLine?_of_read hread hfile (show k - 1 < d.length by omega) hshort
    rw [hplace]
    simpa using hquoted
  refine ⟨?_, ?_, ?_, hsought, hline⟩
  · rw [← hsought, hposition, hplace]
    exact Int.natCast_add n 1
  · rw [← hsought, hposition, hplace]
    exact Int.natCast_add _ 1
  · rw [streamedLine?_eq, indexedLine_eq, hline]

/-- The newline behind a carriage return, the newline of an empty line, and a carriage return at the
end of the text. -/
theorem source_places_agree_returns :
    let d := utf8 "a\r\n\n\tb\r"
    let file := utf8 "g.json"
    let read (_ : Text) := some d
    (offsetPosition d 3 = (1, 3) ∧ soughtPosition d (2 : Nat) = ⟨0, 2⟩ ∧
      streamedLine? read file 1 = some (utf8 "a")) ∧
    (offsetPosition d 4 = (2, 1) ∧ soughtPosition d (3 : Nat) = ⟨1, 0⟩ ∧
      streamedLine? read file 2 = some []) ∧
    (offsetPosition d 7 = (3, 3) ∧ soughtPosition d (6 : Nat) = ⟨2, 2⟩ ∧
      streamedLine? read file 3 = some (utf8 "\tb")) := by
  intro d file read
  have hfound (k : Nat) (hpos : 1 ≤ k) (hle : k ≤ d.length) :
      positionAt d (k - 1 : Nat) = soughtPosition d (k - 1 : Nat) ∧
        streamedLine? read file (offsetPosition d k).1 =
          some (indexedLine d ((offsetPosition d k).1 - 1)) := by
    obtain ⟨-, -, hstream, hposition, -⟩ :=
      @source_places_agree read file d k rfl (by decide) (by decide) hpos hle
    exact ⟨hposition, hstream⟩
  obtain ⟨hreturn, hreturn'⟩ := hfound 3 (by decide) (by decide)
  obtain ⟨hempty, hempty'⟩ := hfound 4 (by decide) (by decide)
  obtain ⟨hlast, hlast'⟩ := hfound 7 (by decide) (by decide)
  exact ⟨⟨by decide, hreturn.symm.trans (by decide), hreturn'.trans (by decide)⟩,
    ⟨by decide, hempty.symm.trans (by decide), hempty'.trans (by decide)⟩,
    by decide, hlast.symm.trans (by decide), hlast'.trans (by decide)⟩

end SvgAssist.Command

import Mathlib
import SvgAssist.Command.Run
import SvgAssist.Proofs.Diagnostic.Snippet

/-!
# Reported syntax errors

A grammar file with a JSON syntax error is reported at the last byte that was read: the line that
has this byte is quoted, and the first caret stands under it (`syntax_error_shown`). A carriage
return at the end of a line is no part of what is quoted. A caret for it, or for the newline of a
line that ends in a newline alone, stands behind the line; the newline behind a carriage return is
too far from the line to be marked there (`carriage_return_not_shown`).
-/

namespace SvgAssist.Command

open Grammar Text

def heading (f : LoadError) : Text :=
  utf8 "error: loading schema: " ++ f.fault.message ++ utf8 "\n  --> " ++ f.path ++ utf8 ":" ++
    ofNat f.line ++ utf8 ":" ++ ofNat f.column ++ utf8 "\n"

-- The fault is told by the line and the column of the last byte that was read.
theorem offsetPosition_eq {d : Text} {count : Nat} (hle : count ≤ d.length) :
    offsetPosition d count =
      ((d.take (count - 1)).count Byte.newline + 1, (lineBefore d (count - 1)).length + 1) := by
  rw [offsetPosition, Nat.min_eq_left hle, lineBefore, List.length_reverse]

-- A fault of a text is reported where its position is.
theorem exists_of_load {format : Format} {d : Text} {f : LoadError}
    (h : load format d = .error (.decode f)) :
    ∃ fault, f = ⟨[], (fault.position d).1, (fault.position d).2, fault⟩ := by
  unfold load at h
  extract_lets decoded at h
  rcases decoded with _ | fault | document
  · cases h
  · cases h
    exact ⟨fault, rfl⟩
  · simp only at h
    cases hdocument : document.toCatalog with
    | error fault =>
      rw [hdocument] at h
      cases h
    | ok catalog =>
      rw [hdocument] at h
      cases h

-- A fault of a file is that of its text, under the name of the file.
theorem eq_of_loadFile {read : Text → Except FileFault Text} {path d : Text} {f : LoadError}
    (hread : read path = .ok d) (hfile : loadFile read path = .error (.decode f)) :
    path ≠ [] ∧ f = ⟨path, (f.fault.position d).1, (f.fault.position d).2, f.fault⟩ := by
  have hformat : ∃ format, Format.ofPath path = .ok format := by
    cases h : Format.ofPath path with
    | ok format => exact ⟨format, rfl⟩
    | error failure =>
      have hunsupported : failure = .unsupported (Path.extension path) := by
        unfold Format.ofPath at h
        split at h
        · cases h
        · cases h
          rfl
      unfold loadFile at hfile
      rw [h, hunsupported] at hfile
      cases hfile
  obtain ⟨format, hformat⟩ := hformat
  have hpath : path ≠ [] := by
    rintro rfl
    cases hformat
  unfold loadFile at hfile
  rw [hformat] at hfile
  simp only [bind, Except.bind, hread] at hfile
  split at hfile
  · rename_i g hload
    obtain ⟨fault, rfl⟩ := exists_of_load hload
    cases hfile
    exact ⟨hpath, rfl⟩
  · cases hfile
  · rename_i hother _
    exact absurd hfile (hother f)

-- No byte is behind the line that it is on, as it is quoted, unless it is the newline behind a
-- carriage return.
theorem length_lineBefore_le_line {d : Text} {o : Nat} (ho : o < d.length)
    (hend : ¬ (d[o]? = some Byte.newline ∧ d[o - 1]? = some Byte.carriageReturn)) :
    (lineBefore d o).length ≤ (line d ((d.take o).count Byte.newline : Nat)).length := by
  have hreturn : ¬ AfterReturn d o := by
    rw [afterReturn_iff ho.le]
    rintro ⟨-, hbefore, hlast | hnewline⟩
    · exact ho.ne hlast
    · exact hend ⟨hnewline, hbefore⟩
  rw [line_at]
  exact (lineBefore_prefix_line hreturn).length_le

/-- The byte that a syntax error was found at is on the quoted line, and what stands before it takes
as many columns as there are blanks before the first caret. -/
theorem syntax_error_shown {read : Text → Except FileFault Text} {path d : Text} {f : LoadError}
    {e : Json.SyntaxError} (hread : read path = .ok d)
    (hshort : ∀ l ∈ lines d, l.length < Diagnostic.maxLineSize)
    (hfile : loadFile read path = .error (.decode f)) (hfault : f.fault = .jsonSyntax e)
    (hpos : 1 ≤ e.count) (hle : e.count ≤ d.length) :
    let o := e.count - 1
    let n := (d.take o).count Byte.newline
    let j := (lineBefore d o).length
    let l := line d n
    f.line = n + 1 ∧ f.column = j + 1 ∧
      ∃ indent width, 0 < width ∧
        Failing.report (.grammar (.decode f) (some d)) =
          heading f ++ Diagnostic.quoted (ofNat (n + 1)) (Diagnostic.expandTabs l) indent width ∧
        (¬ (d[o]? = some Byte.newline ∧ d[o - 1]? = some Byte.carriageReturn) →
          indent = Diagnostic.displayWidth (l.take (min j l.length))) := by
  intro o n j l
  obtain ⟨hpath, hf⟩ := eq_of_loadFile hread hfile
  rw [hfault] at hf
  have ho : o < d.length := by omega
  have hposition : DecodeFault.position d (.jsonSyntax e) = (n + 1, j + 1) := offsetPosition_eq hle
  rw [hposition] at hf
  subst hf
  let place : Diagnostic.Location := ⟨path, (n + 1 : Nat), (j + 1 : Nat), 0, []⟩
  have hline : Diagnostic.sourceLine? (fun _ => some d) place.file place.line = some l :=
    Diagnostic.sourceLine?_line hpath ho hshort
  have hplace : Diagnostic.place place =
      path ++ utf8 ":" ++ ofNat (n + 1) ++ utf8 ":" ++ ofNat (j + 1) :=
    Diagnostic.place_of_pos (Int.natCast_pos.mpr n.succ_pos) (Int.natCast_pos.mpr j.succ_pos)
  refine ⟨rfl, rfl, (Diagnostic.underline place l).1, (Diagnostic.underline place l).2,
    Diagnostic.underline_pos _ _, ?_, fun hend => ?_⟩
  · have hlabel : utf8 "error: loading schema: " =
        Diagnostic.Severity.error.label ++ utf8 ": " ++ utf8 "loading schema: " := rfl
    have hrendered := Diagnostic.rendered_plain hline rfl .error
      (utf8 "loading schema: " ++ (DecodeFault.jsonSyntax e).message)
    rw [hplace] at hrendered
    simp only [heading, hlabel, List.append_assoc] at hrendered ⊢
    exact hrendered
  · have hcolumn : place.column = (j : Int) + 1 := rfl
    have hreach : j ≤ l.length := length_lineBefore_le_line ho hend
    rw [Diagnostic.underline_column hcolumn hreach, Nat.min_eq_left hreach]

-- The byte in question is the second one of the second line, and the caret stands under the column
-- behind four blanks.
theorem syntax_error_shown_behind_tab :
    let d := utf8 "\r\n\t,"
    let f : LoadError := ⟨utf8 "g.json", 2, 2, .jsonSyntax ⟨.character (utf8 ",") .value, 4⟩⟩
    loadFile (fun _ => .ok d) (utf8 "g.json") = .error (.decode f) ∧
      ∃ width, 0 < width ∧
        Failing.report (.grammar (.decode f) (some d)) =
          heading f ++ Diagnostic.quoted (utf8 "2") (utf8 "    ,") 4 width := by
  have hfile : loadFile (fun _ => .ok (utf8 "\r\n\t,")) (utf8 "g.json") = .error (.decode
      ⟨utf8 "g.json", 2, 2, .jsonSyntax ⟨.character (utf8 ",") .value, 4⟩⟩) := by cbv
  intro d f
  have hcount : (d.take 3).count Byte.newline = 1 := by decide
  have hbefore : lineBefore d 3 = [Byte.tab] := by decide
  have hline : line d (1 : Nat) = utf8 "\t," := by cbv
  have hexpand : Diagnostic.expandTabs (utf8 "\t,") = utf8 "    ," := by decide
  have hcolumn : Diagnostic.displayWidth [Byte.tab] = 4 := by cbv
  obtain ⟨-, -, indent, width, hwidth, hreport, hindent⟩ :=
    @syntax_error_shown (fun _ => .ok d) _ _ _ _ rfl (by decide) hfile rfl (by decide) (by decide)
  have hnumber : ofNat (1 + 1) = utf8 "2" := by decide
  simp only [Nat.add_one_sub_one, hcount, hline, hexpand, hnumber] at hreport
  have hblank : indent = 4 := by
    have hwide := hindent (by decide)
    simp only [Nat.add_one_sub_one, hcount, hbefore, hline] at hwide
    exact hwide.trans hcolumn
  exact ⟨hfile, width, hwidth, hblank ▸ hreport⟩

-- Neither is a carriage return at the end of the file quoted, nor does the caret for the newline of
-- a line that ends in a carriage return and a newline stand behind the line.
theorem carriage_return_not_shown :
    (let d := utf8 "\x7b\r"
      let f : LoadError := ⟨utf8 "g.json", 1, 2, .jsonSyntax ⟨.endOfInput, 2⟩⟩
      loadFile (fun _ => .ok d) (utf8 "g.json") = .error (.decode f) ∧
        ∀ indent width, Failing.report (.grammar (.decode f) (some d)) ≠
          heading f ++ Diagnostic.quoted (utf8 "1") (utf8 "\x7b\r") indent width) ∧
    (let d := utf8 "\x7b\r\n"
      let f : LoadError := ⟨utf8 "g.json", 1, 3, .jsonSyntax ⟨.endOfInput, 3⟩⟩
      loadFile (fun _ => .ok d) (utf8 "g.json") = .error (.decode f) ∧
        ∀ width, Failing.report (.grammar (.decode f) (some d)) ≠
          heading f ++ Diagnostic.quoted (utf8 "1") (utf8 "\x7b")
            (Diagnostic.displayWidth (utf8 "\x7b")) width) := by
  refine ⟨⟨by cbv, fun indent width hquoted => ?_⟩, ⟨by cbv, fun width hquoted => ?_⟩⟩
  · have hreport : Failing.report (.grammar (.decode ⟨utf8 "g.json", 1, 2,
        .jsonSyntax ⟨.endOfInput, 2⟩⟩) (some (utf8 "\x7b\r"))) =
        heading ⟨utf8 "g.json", 1, 2, .jsonSyntax ⟨.endOfInput, 2⟩⟩ ++
          Diagnostic.quoted (utf8 "1") (utf8 "\x7b") 1 1 := by cbv
    rw [hreport] at hquoted
    have hbehind := congrArg (·[12]?) (List.append_cancel_left hquoted)
    change some Byte.newline = some Byte.carriageReturn at hbehind
    cases hbehind
  · have hreport : Failing.report (.grammar (.decode ⟨utf8 "g.json", 1, 3,
        .jsonSyntax ⟨.endOfInput, 3⟩⟩) (some (utf8 "\x7b\r\n"))) =
        heading ⟨utf8 "g.json", 1, 3, .jsonSyntax ⟨.endOfInput, 3⟩⟩ ++
          Diagnostic.quoted (utf8 "1") (utf8 "\x7b") 0 1 := by cbv
    have hwidth : Diagnostic.displayWidth (utf8 "\x7b") = 1 := by cbv
    rw [hreport, hwidth] at hquoted
    have hcaret := congrArg (·[19]?) (List.append_cancel_left hquoted)
    change some (0x5e : UInt8) = some 0x20 at hcaret
    cases hcaret

end SvgAssist.Command

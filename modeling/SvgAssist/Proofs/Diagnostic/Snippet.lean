import SvgAssist.Diagnostic.Snippet
import SvgAssist.Proofs.Text.Positions

/-!
# Source lines and carets

The line of a source file that is quoted is the line of the text, as long as no line of the file is
too long to be read (`sourceLine?_line`). A report without colours that is about one place shows
that line with its tabs expanded, and under it, behind a margin as wide as that of the line, the
carets (`rendered_plain`). The blanks before them reach as far as what stands before the column on
the line (`underline_column`).
-/

namespace SvgAssist.Diagnostic

open Text

/-! ## Source lines -/

-- A byte is on a line that has it, or ends a line behind which another one begins.
theorem lineAfter_ne_nil_or {source : Text} {o : Nat} (ho : o < source.length) :
    lineAfter source o ≠ [] ∨ (source.take o).count Byte.newline + 1 < (lines source).length := by
  have hdrop : source.drop o = source[o] :: source.drop (o + 1) := List.drop_eq_getElem_cons ho
  by_cases hb : source[o] = Byte.newline
  · right
    have hcount : (source.take (o + 1)).count Byte.newline =
        (source.take o).count Byte.newline + 1 := by
      rw [take_add_one_of_getElem? (List.getElem?_eq_getElem ho), hb, List.count_append,
        List.count_singleton_self]
    have hle := (List.take_sublist (o + 1) source).count_le Byte.newline
    have hlines : (lines source).length = source.count Byte.newline + 1 := lineCount_eq source
    omega
  · left
    rw [lineAfter, hdrop, List.takeWhile_cons_of_pos (by simpa using hb)]
    exact List.cons_ne_nil _ _

-- The line of a byte is none of those that a newline at the end of the text would begin.
theorem getElem?_sourceLines {source : Text} {o : Nat} (ho : o < source.length)
    (hshort : ∀ l ∈ lines source, l.length < maxLineSize) :
    (sourceLines source)[(source.take o).count Byte.newline]? =
      some (line source ((source.take o).count Byte.newline : Nat)) := by
  set n := (source.take o).count Byte.newline with hn
  have hline : (lines source)[n]? = some (lineBefore source o ++ lineAfter source o) := by
    have h := getElem?_lines (endsLine_linesBefore source o) (lineBefore source o ++ source.drop o)
    rwa [split_at_line, takeWhile_lineBefore, count_linesBefore] at h
  have hshown (ls : List Text) (hls : ls[n]? = some (lineBefore source o ++ lineAfter source o))
      (hsub : ls ⊆ lines source) :
      ((ls.takeWhile fun l => l.length < maxLineSize).map withoutReturn)[n]? =
        some (line source (n : Nat)) := by
    have hall : ls.takeWhile (fun l => l.length < maxLineSize) = ls :=
      List.takeWhile_eq_self_iff.mpr fun l hl => decide_eq_true (hshort l (hsub hl))
    rw [hall, List.getElem?_map, hls, hn, line_at]
    rfl
  unfold sourceLines
  extract_lets pieces shown
  refine hshown shown ?_ ?_
  · change (if pieces.getLast? = some [] then pieces.dropLast else pieces)[n]? = _
    split_ifs with hlast
    · have hbelow : n < pieces.length - 1 := by
        rw [List.getLast?_eq_getElem?] at hlast
        have hlt : n < pieces.length := (List.getElem?_eq_some_iff.mp hline).1
        rcases lineAfter_ne_nil_or ho with hafter | hnext
        · by_contra hge
          have heq : n = pieces.length - 1 := by omega
          rw [← heq, hline, Option.some.injEq] at hlast
          exact hafter (List.append_eq_nil_iff.mp hlast).2
        · exact Nat.lt_sub_of_add_lt hnext
      rw [List.getElem?_dropLast, if_pos hbelow, hline]
    · exact hline
  · change (if pieces.getLast? = some [] then pieces.dropLast else pieces) ⊆ _
    split_ifs
    · exact List.dropLast_subset pieces
    · exact List.Subset.refl pieces

-- The line of an offset is shown by its number, which counts from one.
theorem sourceLine?_of_read {read : Text → Option Text} {source file : Text} {o : Nat}
    (hread : read file = some source) (hfile : file ≠ []) (ho : o < source.length)
    (hshort : ∀ l ∈ lines source, l.length < maxLineSize) :
    sourceLine? read file ((source.take o).count Byte.newline + 1 : Nat) =
      some (line source ((source.take o).count Byte.newline : Nat)) := by
  set n := (source.take o).count Byte.newline with hn
  have hguard : (decide (((n + 1 : Nat) : Int) ≤ 0) || decide (file = [])) = false := by
    rw [decide_eq_false hfile, decide_eq_false (by omega), Bool.or_false]
  unfold sourceLine?
  rw [hguard, hread]
  exact getElem?_sourceLines ho hshort

theorem sourceLine?_line {source file : Text} {o : Nat} (hfile : file ≠ [])
    (ho : o < source.length) (hshort : ∀ l ∈ lines source, l.length < maxLineSize) :
    sourceLine? (fun _ => some source) file ((source.take o).count Byte.newline + 1 : Nat) =
      some (line source ((source.take o).count Byte.newline : Nat)) :=
  sourceLine?_of_read rfl hfile ho hshort

theorem place_of_pos {l : Location} (hline : 0 < l.line) (hcolumn : 0 < l.column) :
    place l = l.file ++ utf8 ":" ++ ofInt l.line ++ utf8 ":" ++ ofInt l.column := by
  unfold place
  rw [if_pos]
  rw [decide_eq_true hline, decide_eq_true hcolumn, Bool.and_self]

/-! ## Carets -/

/-- A line as it is quoted without colours, with some carets under it. The margins of both are of
the same width, so the first caret stands under the column of the line that the blanks before it
reach to. -/
def quoted (number line : Text) (indent width : Nat) : Text :=
  let blank := spaces number.length
  utf8 " " ++ blank ++ utf8 " |\n" ++
    utf8 " " ++ number ++ utf8 " |  " ++ line ++ utf8 "\n" ++
    utf8 " " ++ blank ++ utf8 " |  " ++ spaces indent ++ Text.replicate width 0x5e ++ utf8 "\n" ++
    utf8 " " ++ blank ++ utf8 " |\n"

/-- A report about one place, without colours. -/
theorem rendered_plain {read : Text → Option Text} {l : Location} {line : Text}
    (hline : sourceLine? read l.file l.line = some line) (hlabel : l.label = [])
    (severity : Severity) (message : Text) :
    rendered .plain read ⟨severity, message, [l], []⟩ =
      severity.label ++ utf8 ": " ++ message ++ utf8 "\n  --> " ++ place l ++ utf8 "\n" ++
        quoted (ofInt l.line) (expandTabs line) (underline l line).1 (underline l line).2 := by
  have hseverity : Palette.ofSeverity .plain severity = [] := by cases severity <;> rfl
  have harrow : utf8 "\n  --> " = utf8 "\n" ++ utf8 "  " ++ utf8 "-->" ++ utf8 " " := rfl
  have hbar : utf8 " |\n" = utf8 " |" ++ utf8 "\n" := rfl
  have hgap : utf8 " |  " = utf8 " |" ++ utf8 "  " := rfl
  unfold rendered pieces
  rw [List.flatMap_singleton, locationPieces, hline, hseverity]
  simp only [snippet, hlabel, if_true, Palette.plain, quoted, harrow, hbar, hgap, List.nil_append,
    List.append_nil, List.map_nil, List.flatten_cons, List.flatten_nil, List.append_assoc,
    List.cons_append]

-- At least one caret is shown.
theorem underline_pos (l : Location) (line : Text) : 0 < (underline l line).2 := Nat.succ_pos _

-- The carets of a column that the line reaches begin behind what stands before it on the line.
theorem underline_column {l : Location} {line : Text} {column : Nat}
    (hcolumn : l.column = column + 1) (hle : column ≤ line.length) :
    (underline l line).1 = displayWidth (line.take column) := by
  have hfirst : (max l.column 1).toNat = column + 1 := by omega
  unfold underline
  extract_lets first last
  simp only [first, hfirst, Nat.add_sub_cancel, if_pos hle]

end SvgAssist.Diagnostic

import SvgAssist.Completion.Hover
import SvgAssist.Proofs.Markup.StartTag

/-!
# Hovers over the names of elements

A position in the name of a start tag, or at one of its ends, is shown the element of that name, if
the catalog has one (`hover_at_name`). A line is not read to its end but up to a column, and nothing
is shown for what stands behind that (`hover_far`).
-/

namespace SvgAssist.Completion

open Grammar Markup Text

def tagHover (text : Text) (start : Nat) (name : Text) (e : Grammar.Element) : Hover :=
  ⟨⟨positionAt text (start + 1 : Nat), positionAt text (start + 1 + name.length : Nat)⟩,
    hoverContents (utf8 "<" ++ name ++ utf8 ">") [] e.documentation e.deprecated⟩

-- What is shown begins with the title.
theorem isPrefix_hoverContents (title type documentation : Text) (deprecated : Bool) :
    utf8 "\x60" ++ title ++ utf8 "\x60" <+: hoverContents title type documentation deprecated := by
  simp only [hoverContents, List.append_assoc, List.prefix_append_right_inj]
  exact List.prefix_append _ _

theorem isPrefix_contents_tagHover (text : Text) (start : Nat) (name : Text)
    (e : Grammar.Element) :
    utf8 "\x60<" ++ name ++ utf8 ">\x60" <+: (tagHover text start name e).contents := by
  have hopen : utf8 "\x60<" = utf8 "\x60" ++ utf8 "<" := by decide
  have hclose : utf8 ">\x60" = utf8 ">" ++ utf8 "\x60" := by decide
  have htitle :=
    isPrefix_hoverContents (utf8 "<" ++ name ++ utf8 ">") [] e.documentation e.deprecated
  rw [hopen, hclose, ← List.append_assoc, List.append_assoc (utf8 "\x60"),
    List.append_assoc (utf8 "\x60")]
  exact htitle

/-- The name of a start tag has its element shown, wherever it is touched. -/
theorem hover_at_name (catalog : Catalog) {text : Text} {start j : Nat} {name : TagName}
    (h : StartsTag text start name) (hj : j ≤ name.bytes.length)
    (hfar : (positionAt text (start + 1 + name.bytes.length : Nat)).column ≤ farColumn) :
    hover catalog text (positionAt text (start + 1 + j : Nat)) =
      (catalog.element? name.bytes).map (tagHover text start name.bytes) := by
  have hcursor := h.positionAt_name hj
  have hwhole := h.positionAt_name (le_refl name.bytes.length)
  have hempty := h.positionAt_name (Nat.zero_le name.bytes.length)
  have hpos := List.length_pos_iff.mpr name.ne_nil
  rw [hwhole] at hfar
  obtain ⟨tail, hslice, htail⟩ := h.exists_slice hfar
  set front := lineBefore text start
  have hstart : (((front.length + 1 : Nat) : Int)).toNat = front.length + 1 := Int.toNat_natCast _
  have hsize : (((front.length + 1 + name.bytes.length : Nat) : Int) -
      ((front.length + 1 : Nat) : Int)).toNat = name.bytes.length := by omega
  have hne : ¬ ((front.length + 1 : Nat) : Int) =
      ((front.length + 1 + name.bytes.length : Nat) : Int) := by omega
  have htake : (front ++ Byte.less :: (name.bytes ++ tail)).take (front.length + 1) =
      front ++ [Byte.less] := take_in_name (Nat.zero_le name.bytes.length)
  have hdrop : (front ++ Byte.less :: (name.bytes ++ tail)).drop (front.length + 1) =
      name.bytes ++ tail := drop_in_name (Nat.zero_le name.bytes.length)
  have hless : (utf8 "<").isSuffixOf (front ++ [Byte.less]) = true :=
    List.isSuffixOf_iff_suffix.mpr (List.suffix_append _ _)
  rw [hcursor, hover]
  simp only [hslice, nameAt_inside name htail hj, if_neg hne, hstart, hsize, htake, hdrop, hless,
    Bool.true_or, if_true, List.take_left]
  cases catalog.element? name.bytes with
  | none => rfl
  | some e =>
    simp only [Option.bind_eq_bind, Option.bind_some, Option.map_some, tagHover, hwhole]
    rw [← hempty]

/-- Nothing is shown for a place behind the columns that are read. -/
theorem hover_far (catalog : Catalog) {text : Text} {o : Nat}
    (h : farColumn < (lineBefore text o).length) :
    hover catalog text (positionAt text o) = none := by
  set shown := (line text ((text.take o).count Byte.newline : Nat)).take farColumn.toNat with hshown
  have hread : shown.length ≤ farColumn.toNat := List.length_take_le _ _
  have hbehind : (((lineBefore text o).length : Int) < 0 ||
      (shown.length : Int) < (lineBefore text o).length) = true := by
    have hpos : 0 ≤ farColumn := by decide
    rw [Bool.or_eq_true, decide_eq_true_eq, decide_eq_true_eq]
    omega
  rw [positionAt_natCast, hover]
  simp only [slice_at]
  rw [← hshown, nameAt, if_pos hbehind]
  exact if_pos rfl

end SvgAssist.Completion

import SvgAssist.Proofs.Completion.Hover
import SvgAssist.Proofs.Markup.NameAt
import SvgAssist.Proofs.Text.Window

/-!
# The name that a hover is about

A hover is shown for a name of the line of its position, and titled with that name. The name ends at
the position or behind it, and it begins behind the position when no name touches that
(`hover_describes_name`).
-/

namespace SvgAssist.Completion

open Grammar Markup Text

/-- What is shown for a name: an element of that name, or an attribute that it means on some
element, titled with the name. -/
def Describes (c : Catalog) (name contents : Text) : Prop :=
  (∃ e, c.element? name = some e ∧
    contents = hoverContents (utf8 "<" ++ name ++ utf8 ">") [] e.documentation e.deprecated) ∨
  ∃ tag a, c.resolve tag name = some a ∧
    contents = hoverContents name a.type a.documentation a.deprecated

-- Whether an element or an attribute is described, the contents begin with the name between
-- backquotes.
theorem Describes.titled {c : Catalog} {name contents : Text} (h : Describes c name contents) :
    utf8 "\x60" ++ (utf8 "<" ++ name ++ utf8 ">") ++ utf8 "\x60" <+: contents ∨
      utf8 "\x60" ++ name ++ utf8 "\x60" <+: contents := by
  rcases h with ⟨e, -, rfl⟩ | ⟨tag, a, -, rfl⟩
  · exact .inl (isPrefix_hoverContents _ _ _ _)
  · exact .inr (isPrefix_hoverContents _ _ _ _)

/-- A hover has the bounds of the name that is found at its column. -/
theorem exists_of_hover {c : Catalog} {text line : Text} {pos : Position} {shown : Hover}
    (h : hover c text pos = some shown)
    (hline : slice text ⟨⟨pos.line, 0⟩, ⟨pos.line, farColumn⟩⟩ = line) :
    ∃ start stop, nameAt line pos.column = (start, stop) ∧ start ≠ stop ∧
      shown.range = ⟨⟨pos.line, start⟩, ⟨pos.line, stop⟩⟩ ∧
      Describes c ((line.drop start.toNat).take (stop - start).toNat) shown.contents := by
  unfold hover at h
  simp only [hline] at h
  rcases hbounds : nameAt line pos.column with ⟨start, stop⟩
  rw [hbounds] at h
  simp only at h
  split_ifs at h with hne htag hequals
  · obtain ⟨e, he, hshown⟩ := Option.bind_eq_some_iff.mp h
    obtain rfl := Option.some.inj hshown
    exact ⟨start, stop, rfl, hne, rfl, .inl ⟨e, he, rfl⟩⟩
  · obtain ⟨tag, -, hresolve⟩ := Option.bind_eq_some_iff.mp h
    obtain ⟨a, ha, hshown⟩ := Option.bind_eq_some_iff.mp hresolve
    obtain rfl := Option.some.inj hshown
    exact ⟨start, stop, rfl, hne, rfl, .inr ⟨tag.name, a, ha, rfl⟩⟩

/-- The range of a hover is on the line of its position, and holds a name that goes on no farther,
as far as the line is read. The range does not end in front of the position, and it begins behind
the position just when no name touches that. What is shown is about the name, and titled with it. -/
theorem hover_describes_name {c : Catalog} {text : Text} {pos : Position} {shown : Hover}
    (h : hover c text pos = some shown) :
    shown.range.start.line = pos.line ∧ shown.range.stop.line = pos.line ∧
      0 ≤ shown.range.start.column ∧ shown.range.stop.column ≤ (line text pos.line).length ∧
      pos.column ≤ shown.range.stop.column ∧
      (shown.range.start.column ≤ pos.column ↔ Touches (line text pos.line) pos.column.toNat) ∧
      ∃ name : TagName, slice text shown.range = name.bytes ∧
        (shown.range.stop.column < farColumn →
          ∀ b, (line text pos.line)[shown.range.stop.column.toNat]? = some b → ¬ isNameByte b) ∧
        Describes c name.bytes shown.contents ∧
        (utf8 "\x60" ++ (utf8 "<" ++ name.bytes ++ utf8 ">") ++ utf8 "\x60" <+: shown.contents ∨
          utf8 "\x60" ++ name.bytes ++ utf8 "\x60" <+: shown.contents) := by
  obtain ⟨start, stop, hbounds, hne, hrange, hdescribes⟩ := exists_of_hover h rfl
  obtain ⟨hlow, hline⟩ : 0 ≤ pos.line ∧ pos.line < lineCount text := by
    refine line_bounds_of_slice (a := 0) (b := farColumn) fun hnil => hne ?_
    rw [hnil, nameAt_nil] at hbounds
    exact (Prod.mk.inj hbounds).1.symm.trans (Prod.mk.inj hbounds).2
  have hread : slice text ⟨⟨pos.line, 0⟩, ⟨pos.line, farColumn⟩⟩ =
      (line text pos.line).take farColumn.toNat := slice_on_line hlow hline 0 farColumn
  rw [hread] at hbounds hdescribes
  obtain ⟨n, front, tail, name, hcolumn, hsplit, rfl, rfl, hlimit, hstops, hreach, htouches⟩ :=
    exists_of_nameAt_take hbounds hne
  have hlen : (line text pos.line).length = front.length + (name.bytes.length + tail.length) := by
    rw [hsplit, List.length_append, List.length_append]
  have htext : slice text ⟨⟨pos.line, front.length⟩,
      ⟨pos.line, (front.length + name.bytes.length : Nat)⟩⟩ = name.bytes := by
    rw [slice_on_line hlow hline, hsplit, Int.toNat_natCast, Int.toNat_natCast,
      List.take_length_add_append, List.take_left, List.drop_left]
  have hsize : (((front.length + name.bytes.length : Nat) : Int) -
      (front.length : Int)).toNat = name.bytes.length := by omega
  rw [hsize, Int.toNat_natCast, List.drop_take, List.take_take, Nat.min_eq_left (by omega), hsplit,
    List.drop_left, List.take_left] at hdescribes
  rw [hrange, hcolumn]
  refine ⟨rfl, rfl, ?_⟩
  simp only [Int.toNat_natCast]
  refine ⟨by omega, by omega, by omega, Int.ofNat_le.trans htouches, name, htext,
    fun hfar b hb => hstops (by omega) b ?_, hdescribes, hdescribes.titled⟩
  rw [hsplit, List.getElem?_append_right (Nat.le_add_right _ _), Nat.add_sub_cancel_left,
    List.getElem?_append_right le_rfl, Nat.sub_self, ← List.head?_eq_getElem?] at hb
  exact hb

/-- The digits in front of an attribute show what is behind them, and its last byte shows it too. -/
theorem hover_describes_name_behind_digits :
    let x : Grammar.Attribute := ⟨utf8 "x", [], false, [], none⟩
    let c : Catalog := ⟨[⟨utf8 "svg", [], false, false, false, none, none⟩], [(utf8 "x", x)]⟩
    let text := utf8 "<svg 12x="
    hover c text ⟨0, 5⟩ = some ⟨⟨⟨0, 7⟩, ⟨0, 8⟩⟩, utf8 "\x60x\x60"⟩ ∧
      ¬ Touches (line text 0) 5 ∧
      hover c text ⟨0, 8⟩ = some ⟨⟨⟨0, 7⟩, ⟨0, 8⟩⟩, utf8 "\x60x\x60"⟩ ∧
      Touches (line text 0) 8 := by
  intro x c text
  have hfront : hover c text ⟨0, 5⟩ = some ⟨⟨⟨0, 7⟩, ⟨0, 8⟩⟩, utf8 "\x60x\x60"⟩ := by decide
  have hend : hover c text ⟨0, 8⟩ = some ⟨⟨⟨0, 7⟩, ⟨0, 8⟩⟩, utf8 "\x60x\x60"⟩ := by decide
  obtain ⟨-, -, -, -, -, hbehind, -⟩ := hover_describes_name hfront
  obtain ⟨-, -, -, -, -, htouched, -⟩ := hover_describes_name hend
  exact ⟨hfront, mt hbehind.mpr (by decide), hend, htouched.mp (by decide)⟩

/-- What is shown for a position in front of `12x` is about the name behind it. -/
theorem hover_begins_behind_position :
    let x : Grammar.Attribute := ⟨utf8 "x", [], false, [], none⟩
    let c : Catalog := ⟨[⟨utf8 "svg", [], false, false, false, none, none⟩], [(utf8 "x", x)]⟩
    let pos : Position := ⟨0, 5⟩
    ∃ shown, hover c (utf8 "<svg 12x=") pos = some shown ∧
      ¬ shown.range.start.column ≤ pos.column :=
  ⟨⟨⟨⟨0, 7⟩, ⟨0, 8⟩⟩, utf8 "\x60x\x60"⟩, by decide, by decide⟩

end SvgAssist.Completion

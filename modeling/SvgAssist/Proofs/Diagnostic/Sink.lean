import SvgAssist.Diagnostic.Sink
import Mathlib.Data.List.Infix

/-!
# Writing reports

A sink that is given a text by several writes has taken all of it (`Took`), or it has failed at one
of them and was not asked again (`Broke`). A buffer stands between the two: what it holds is what
the sink has not been given yet, and once a write has failed it changes no more (`Given`). Every
piece keeps this (`Printed.print`), so that reports are written as a whole or broken off at the
first write that fails (`reports_written_in_order`).
-/

namespace SvgAssist.Diagnostic

-- What several writes have brought is joined in their order.
theorem received_append (a b : List Delivery) : received (a ++ b) = received a ++ received b :=
  List.flatMap_append

def Delivery.IsWhole (w : Delivery) : Prop := w.taken = w.text.length

theorem Delivery.IsWhole.received {w : Delivery} (h : w.IsWhole) : received [w] = w.text := by
  rw [Diagnostic.received, List.flatMap_singleton, h, List.take_length]

namespace Sink

/-! ## Sinks -/

/-- Behind more writes, all of which were taken as a whole and which bring `text`. -/
structure Took (s : Sink) (text : Text) (after : Sink) : Prop where
  takes : after.takes = s.takes
  writes : ∃ new, after.writes = s.writes ++ new ∧ (∀ w ∈ new, w.IsWhole) ∧ received new = text

/-- Behind more writes, of which the last failed and all others were taken as a whole. Together they
were to bring the front of `text`. -/
structure Broke (s : Sink) (text : Text) (after : Sink) : Prop where
  last : ∃ middle front w, s.Took front middle ∧ after.writes = middle.writes ++ [w] ∧
    w.taken = s.takes middle.writes w.text ∧ w.taken < w.text.length ∧ front ++ w.text <+: text

theorem Took.refl (s : Sink) : s.Took [] s := ⟨rfl, [], by simp [received]⟩

-- Writes that went well can be followed by others that do.
theorem Took.trans {s middle after : Sink} {a b : Text} (h : s.Took a middle)
    (h' : middle.Took b after) : s.Took (a ++ b) after := by
  obtain ⟨htakes, first, hfirst, hwhole, rfl⟩ := h
  obtain ⟨htakes', second, hsecond, hwhole', rfl⟩ := h'
  refine ⟨htakes'.trans htakes, first ++ second, ?_, ?_, received_append first second⟩
  · rw [hsecond, hfirst, List.append_assoc]
  · intro w hw
    rcases List.mem_append.mp hw with hw | hw
    · exact hwhole w hw
    · exact hwhole' w hw

-- Writes that went well can be followed by some of which the last fails.
theorem Took.broke {s middle after : Sink} {a b : Text} (h : s.Took a middle)
    (h' : middle.Broke b after) : s.Broke (a ++ b) after := by
  obtain ⟨last, front, w, hfront, hwrites, htaken, hlt, hprefix⟩ := h'
  rw [h.takes] at htaken
  refine ⟨last, a ++ front, w, h.trans hfront, hwrites, htaken, hlt, ?_⟩
  rw [List.append_assoc]
  exact List.prefix_append_right_inj a |>.mpr hprefix

-- A failed write leaves less than was to be written, also of a longer text.
theorem Broke.mono {s after : Sink} {a b : Text} (h : s.Broke a after) (hab : a <+: b) :
    s.Broke b after := by
  obtain ⟨last, front, w, hfront, hwrites, htaken, hlt, hprefix⟩ := h
  exact ⟨last, front, w, hfront, hwrites, htaken, hlt, hprefix.trans hab⟩

/-- How the writing of a text may end. -/
def Ends (s : Sink) (text : Text) : Except Sink Sink → Prop
  | .ok after => s.Took text after
  | .error after => s.Broke text after

-- One action after another: the second is only taken when the first went well.
theorem Ends.bind {s : Sink} {a b : Text} {result : Except Sink Sink}
    {more : Sink → Except Sink Sink} (h : s.Ends a result)
    (hmore : ∀ middle : Sink, middle.Ends b (more middle)) : s.Ends (a ++ b) (result >>= more) := by
  cases result with
  | error after => exact Broke.mono h (List.prefix_append a b)
  | ok middle =>
    change s.Ends (a ++ b) (more middle)
    have hends := hmore middle
    cases hresult : more middle with
    | ok after =>
      rw [hresult] at hends
      exact Took.trans h hends
    | error after =>
      rw [hresult] at hends
      exact Took.broke h hends

-- A single write brings its text, or is the last.
theorem ends_write (s : Sink) (text : Text) : s.Ends text (s.write text) := by
  unfold write
  extract_lets taken after
  split_ifs with hlt
  · have htaken : taken = s.takes s.writes text := by omega
    exact ⟨s, [], ⟨text, taken⟩, .refl s, rfl, htaken, hlt, List.prefix_refl text⟩
  · have hwhole : Delivery.IsWhole ⟨text, taken⟩ := by
      change taken = text.length
      omega
    exact ⟨rfl, [⟨text, taken⟩], rfl, by simpa using hwhole, hwhole.received⟩

end Sink

/-! ## The buffer -/

/-- What has become of a buffer in front of the sink `s` that was given `text`. -/
inductive Given (s : Sink) : Text → Buffered → Prop where
  | going {front held : Text} {sink : Sink} (h : s.Took front sink) :
      Given s (front ++ held) ⟨sink, held, false⟩
  | broken {text held : Text} {sink : Sink} (h : s.Broke text sink) :
      Given s text ⟨sink, held, true⟩

namespace Given

variable {s : Sink} {text : Text} {b : Buffered}

theorem start (s : Sink) : Given s [] (.start s) := .going (.refl s)

-- Once a write has failed, the buffer takes nothing more, so the text that it was given does not
-- matter.
theorem broke (h : Given s text b) (hfailed : b.failed = true) : s.Broke text b.sink := by
  cases h with
  | going h => cases hfailed
  | broken h => exact h

theorem append_of_failed (h : Given s text b) (hfailed : b.failed = true) (more : Text) :
    Given s (text ++ more) b := by
  obtain ⟨sink, held, failed⟩ := b
  subst hfailed
  exact .broken ((h.broke rfl).mono (List.prefix_append text more))

-- With nothing left in the buffer, all that it was given has reached the sink.
theorem took (h : Given s text b) (hfailed : b.failed = false) (hheld : b.held = []) :
    s.Took text b.sink := by
  cases h with
  | going h =>
    subst hheld
    rwa [List.append_nil]
  | broken h => cases hfailed

-- What is written past the buffer comes behind what the sink has.
theorem direct {front : Text} (h : s.Took front b.sink) (more : Text) :
    Given s (front ++ more) (b.direct more) := by
  have hends := b.sink.ends_write more
  rw [Buffered.direct]
  cases hwrite : b.sink.write more with
  | ok after =>
    rw [hwrite] at hends
    have hgoing : Given s ((front ++ more) ++ []) ⟨after, [], false⟩ := .going (h.trans hends)
    rwa [List.append_nil] at hgoing
  | error after =>
    rw [hwrite] at hends
    exact .broken (h.broke hends)

theorem flush (h : Given s text b) : Given s text b.flush := by
  cases h with
  | @going front held sink h =>
    rw [Buffered.flush]
    split_ifs
    · exact .going h
    · exact .direct h held
  | broken h => exact .broken h

theorem held_flush (hfailed : b.flush.failed = false) : b.flush.held = [] := by
  unfold Buffered.flush at hfailed ⊢
  split_ifs at hfailed ⊢ with hidle
  · rw [hfailed, Bool.false_or, decide_eq_true_iff] at hidle
    exact hidle
  · unfold Buffered.direct at hfailed ⊢
    cases hwrite : b.sink.write b.held with
    | ok after => rfl
    | error after =>
      rw [hwrite] at hfailed
      cases hfailed

-- Flushing brings what was held to the sink, or fails.
theorem took_flush (h : Given s text b) (hfailed : b.flush.failed = false) :
    s.Took text b.flush.sink :=
  h.flush.took hfailed (held_flush hfailed)

theorem hold (h : Given s text b) (more : Text) :
    Given s (text ++ more) { b with held := b.held ++ more } := by
  cases h with
  | going h =>
    rw [List.append_assoc]
    exact .going h
  | broken h => exact .broken (h.mono (List.prefix_append text more))

-- A text is held, or passes the empty buffer, or fills the buffer up and what is left of it does
-- one of the two.
theorem write (h : Given s text b) (more : Text) : Given s (text ++ more) (b.write more) := by
  unfold Buffered.write
  extract_lets room full rest
  have hsplit : text ++ more = text ++ more.take room ++ rest := by
    rw [List.append_assoc, List.take_append_drop]
  have hfull : Given s (text ++ more.take room) full := (h.hold _).flush
  split_ifs with hfailed hroom hheld hbroken hrest
  · exact h.append_of_failed hfailed more
  · exact h.hold more
  · exact .direct (h.took (by simpa using hfailed) hheld) more
  · rw [hsplit]
    exact hfull.append_of_failed hbroken rest
  all_goals
    have hsent : s.Took (text ++ more.take room) full.sink :=
      (h.hold _).took_flush (by simpa using hbroken)
    rw [hsplit]
  · have hgoing : Given s _ ⟨_, rest, _⟩ := .going hsent
    rwa [← Bool.eq_false_iff.mpr hbroken] at hgoing
  · exact .direct hsent rest

end Given

/-! ## Reports -/

/-- What has become of a printer in front of the sink `s` that was given `text`. It knows whether a
write has failed. -/
structure Printed (s : Sink) (text : Text) (p : Printer) : Prop where
  given : Given s text p.out
  failed : p.failed = p.out.failed

-- A printer that has failed drops the piece, any other hands it to its buffer.
theorem Printed.print {s : Sink} {text : Text} {p : Printer} (h : Printed s text p)
    (piece : Text) : Printed s (text ++ piece) (p.print piece) := by
  unfold Printer.print
  split_ifs with hfailed
  · exact ⟨h.given.append_of_failed (h.failed ▸ hfailed) piece, h.failed⟩
  · exact ⟨h.given.write piece, rfl⟩

-- So do all pieces of a report, one after the other.
theorem Printed.foldl {s : Sink} {text : Text} {p : Printer} (h : Printed s text p)
    (pieces : List Text) : Printed s (text ++ pieces.flatten) (pieces.foldl Printer.print p) := by
  induction pieces generalizing text p with
  | nil => simpa using h
  | cons piece pieces ih =>
    rw [List.flatten_cons, ← List.append_assoc]
    exact ih (h.print piece)

theorem Given.close {s : Sink} {text : Text} {b : Buffered} (h : Given s text b) :
    s.Ends text b.flush.close := by
  unfold Buffered.close
  split_ifs with hfailed
  · exact h.flush.broke hfailed
  · exact h.took_flush (by simpa using hfailed)

variable (p : Palette) (read : Text → Option Text)

-- The pieces of a report joined are the report.
theorem ends_render (s : Sink) (r : Report) : s.Ends (rendered p read r) (render p read s r) := by
  have hprinted := Printed.foldl (p := .start s) ⟨.start s, rfl⟩ (pieces p read r)
  rw [List.nil_append] at hprinted
  unfold render
  extract_lets printer
  split_ifs with hfailed
  · exact hprinted.given.broke (hprinted.failed ▸ hfailed)
  · exact hprinted.given.close

def renderedAll (reports : List Report) : Text :=
  [Byte.newline].intercalate (reports.map (rendered p read))

theorem ends_renderAll (s : Sink) (reports : List Report) :
    s.Ends (renderedAll p read reports) (renderAll p read s reports) := by
  fun_induction renderAll p read s reports with
  | case1 s => exact .refl s
  | case2 s r =>
    rw [renderedAll, List.map_singleton, List.intercalate_singleton]
    exact ends_render p read s r
  | case3 s r rs hrs ih =>
    obtain ⟨r', rs, rfl⟩ := List.exists_cons_of_ne_nil hrs
    have hsplit : renderedAll p read (r :: r' :: rs) =
        rendered p read r ++ ([Byte.newline] ++ renderedAll p read (r' :: rs)) := by
      rw [renderedAll, renderedAll, List.map_cons, List.map_cons, List.intercalate_cons_cons,
        List.append_assoc]
    rw [hsplit]
    exact (ends_render p read s r).bind fun s => (s.ends_write _).bind ih

/-- What a new sink has seen of `text` when the writing of it is over: as a success all of it, and
as a failure a part of it up to the one write that failed, which was the last. -/
def Sink.Shows (text : Text) : Except Sink Sink → Prop
  | .ok s => s.written = text ∧ ∀ w ∈ s.writes, w.IsWhole
  | .error s => s.written <+: text ∧ s.written ≠ text ∧
      ∃ earlier last, s.writes = earlier ++ [last] ∧ (∀ w ∈ earlier, w.IsWhole) ∧ ¬ last.IsWhole

-- A sink that starts empty has seen only what this run wrote.
theorem Sink.Ends.shows {takes : List Delivery → Text → Nat} {text : Text}
    {result : Except Sink Sink} (h : Sink.Ends ⟨takes, []⟩ text result) :
    Sink.Shows text result := by
  cases result with
  | ok s =>
    obtain ⟨-, new, hwrites, hwhole, htext⟩ := h
    rw [List.nil_append] at hwrites
    exact ⟨by rw [Sink.written, hwrites, htext], hwrites ▸ hwhole⟩
  | error s =>
    obtain ⟨middle, front, last, ⟨-, new, hmiddle, hwhole, hfront⟩, hwrites, -, hlt, hprefix⟩ := h
    rw [hmiddle, List.nil_append] at hwrites
    have hwritten : s.written = front ++ last.text.take last.taken := by
      rw [Sink.written, hwrites, received_append, hfront, received, List.flatMap_singleton]
    have hlength : s.written.length < text.length := by
      have hle := hprefix.length_le
      rw [hwritten, List.length_append, List.length_take]
      rw [List.length_append] at hle
      omega
    refine ⟨?_, fun heq => ?_, new, last, hwrites, hwhole, Nat.ne_of_lt hlt⟩
    · rw [hwritten]
      exact ((List.prefix_append_right_inj front).mpr (List.take_prefix _ _)).trans hprefix
    · rw [heq] at hlength
      exact Nat.lt_irrefl _ hlength

-- Without a limit no write fails.
theorem Sink.Ends.ok_of_empty {text : Text} {result : Except Sink Sink}
    (h : (Sink.empty none).Ends text result) : ∃ s, result = .ok s := by
  cases result with
  | ok s => exact ⟨s, rfl⟩
  | error s =>
    obtain ⟨middle, front, last, -, -, htaken, hlt, -⟩ := h
    -- A sink without a limit takes every text as it is.
    have hwhole : last.taken = last.text.length := htaken
    omega

/-- Whatever a sink takes of each write, and so also when it has a limit and cuts or refuses what
goes over it: reports, and a single one, are written as what a sink without a limit gets, or the
writing fails, and then the sink has a part of that from its start, and is not written to after the
first write that it does not take as a whole. -/
theorem reports_written_in_order (takes : List Delivery → Text → Nat) (reports : List Report)
    (r : Report) :
    ((renderAll p read (.empty none) reports).map (·.written) =
        .ok (renderedAll p read reports) ∧
      Sink.Shows (renderedAll p read reports) (renderAll p read ⟨takes, []⟩ reports)) ∧
    (render p read (.empty none) r).map (·.written) = .ok (rendered p read r) ∧
      Sink.Shows (rendered p read r) (render p read ⟨takes, []⟩ r) := by
  have hunlimited {text : Text} {result : Except Sink Sink}
      (h : (Sink.empty none).Ends text result) : result.map (·.written) = .ok text := by
    obtain ⟨s, rfl⟩ := h.ok_of_empty
    exact congrArg Except.ok h.shows.1
  exact ⟨⟨hunlimited (ends_renderAll p read _ reports), (ends_renderAll p read _ reports).shows⟩,
    hunlimited (ends_render p read _ r), (ends_render p read _ r).shows⟩

-- There is room for the first report, and none for the line behind it.
example :
    let report : Report := ⟨.error, utf8 "a", [], []⟩
    (match renderAll .plain (fun _ => none) (.empty (some 9)) [report, report] with
      | .ok _ => none
      | .error s => some s.written) = some (utf8 "error: a\n") := by decide

end SvgAssist.Diagnostic

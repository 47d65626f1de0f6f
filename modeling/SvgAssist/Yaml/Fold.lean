import SvgAssist.Yaml.Cursor

/-!
# Folded text

The text of a plain or quoted scalar while it is read. Blanks between words are kept, blanks around
line ends are not: one line end becomes a space, and of several all but the first are kept.
-/

namespace SvgAssist.Yaml

/-- A scalar's text so far, in reverse, and what stands between it and the next word: blanks of the
same line, in reverse, or, once a line has ended, that line end and those after it, in reverse. -/
structure Fold where
  done : List Char
  blanks : List Char
  ended : Bool
  firstBreak : List Char
  moreBreaks : List Char
deriving Inhabited

namespace Fold

def empty : Fold := ⟨[], [], false, [], []⟩

def blank (f : Fold) (ch : Char) : Fold :=
  if f.ended then f else { f with blanks := ch :: f.blanks }

def lineEnd (f : Fold) (ch : Char) : Fold :=
  if f.ended then { f with moreBreaks := breakText ch :: f.moreBreaks }
  else { f with blanks := [], ended := true, firstBreak := [breakText ch] }

def silentEnd (f : Fold) : Fold := { f with ended := true }

def join (f : Fold) : Fold :=
  if f.ended then
    let between :=
      if f.firstBreak = ['\n'] then (if f.moreBreaks = [] then [' '] else f.moreBreaks)
      else f.moreBreaks ++ f.firstBreak
    ⟨between ++ f.done, [], false, [], []⟩
  else ⟨f.blanks ++ f.done, [], false, [], []⟩

def push (f : Fold) (ch : Char) : Fold := { f with done := ch :: f.done }

def text (f : Fold) : Text := Text.ofChars f.done.reverse

end Fold

end SvgAssist.Yaml

import SvgAssist.Text.Char

/-!
# Diagnostics

A problem that is reported to the user, with the places in source files that it is about.
-/

namespace SvgAssist.Diagnostic

inductive Severity where
  | error
  | warning
  | note
  | unknown
deriving DecidableEq, Repr, Inhabited

def Severity.label : Severity → Text
  | .error => utf8 "error"
  | .warning => utf8 "warning"
  | .note => utf8 "note"
  | .unknown => utf8 "unknown"

/-- A place in a source file. Lines and columns count from one, columns in bytes; a line that is not
positive stands for the whole file. `lastColumn` is the last column underlined; when it is not
positive the token at `column` is underlined. -/
structure Location where
  file : Text
  line : Int
  column : Int
  lastColumn : Int
  label : Text
deriving DecidableEq, Repr, Inhabited

structure Report where
  severity : Severity
  message : Text
  locations : List Location
  notes : List Text
deriving DecidableEq, Repr, Inhabited

/-- The escape sequences for the parts of a report; all empty when it is not coloured. -/
structure Palette where
  bold : Text
  warning : Text
  strong : Text
  gutter : Text
  note : Text
  reset : Text
deriving DecidableEq, Repr

def escapeSequence (code : String) : Text := 0x1b :: utf8 "[" ++ utf8 code ++ utf8 "m"

namespace Palette

def plain : Palette := ⟨[], [], [], [], [], []⟩

def colored : Palette where
  bold := escapeSequence "1"
  warning := escapeSequence "33"
  strong := escapeSequence "1;31"
  gutter := escapeSequence "1;34"
  note := escapeSequence "1;36"
  reset := escapeSequence "0"

def ofSeverity (p : Palette) : Severity → Text
  | .warning => p.warning
  | .note => p.note
  | .error | .unknown => p.strong

end Palette

end SvgAssist.Diagnostic

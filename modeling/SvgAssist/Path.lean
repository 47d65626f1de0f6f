import SvgAssist.Text.Basic

/-!
# Paths

The names of files, with slashes between their components, and why a file cannot be opened.
-/

namespace SvgAssist.Path

/-- The extension of a path: its last component from the last dot on. -/
def extension (path : Text) : Text :=
  let back := path.reverse.takeWhile (· ≠ Byte.slash)
  let tail := back.takeWhile (· ≠ Byte.dot)
  if tail.length < back.length then Byte.dot :: tail.reverse else []

def join (directory name : Text) : Text := directory ++ utf8 "/" ++ name

end SvgAssist.Path

namespace SvgAssist

inductive FileFault where
  | missing
  | notDirectory
  | isDirectory
  | badName
  | longName
deriving DecidableEq, Repr

namespace FileFault

def reason : FileFault → Text
  | .missing => utf8 "no such file or directory"
  | .notDirectory => utf8 "not a directory"
  | .isDirectory => utf8 "is a directory"
  | .badName => utf8 "invalid argument"
  | .longName => utf8 "file name too long"

def openMessage (path : Text) (fault : FileFault) : Text :=
  utf8 "open " ++ path ++ utf8 ": " ++ fault.reason

/-- What is said about a file that cannot be read. A directory can be opened all the same. -/
def message (path : Text) (fault : FileFault) : Text :=
  match fault with
  | .isDirectory => utf8 "read " ++ path ++ utf8 ": " ++ fault.reason
  | fault => fault.openMessage path

end FileFault

end SvgAssist

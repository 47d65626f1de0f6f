import SvgAssist.Config.Dotenv
import SvgAssist.Config.FromJson
import SvgAssist.Config.FromYaml
import SvgAssist.Config.Hcl
import SvgAssist.Config.Ini
import SvgAssist.Config.Toml
import SvgAssist.Path

/-!
# Configuration files

The format of a configuration file shows in its extension, in lower case. A file of another format
has no settings, and neither has one that its format does not allow.
-/

namespace SvgAssist.Config

inductive Format where
  | json
  | yaml
  | toml
  | properties
  | hcl
  | dotenv
  | ini
deriving DecidableEq, Repr

/-- The formats by the extensions of their files, in the order in which they are looked for. -/
def extensions : List (Text × Format) :=
  [("json", .json), ("toml", .toml), ("yaml", .yaml), ("yml", .yaml), ("properties", .properties),
    ("props", .properties), ("prop", .properties), ("hcl", .hcl), ("tfvars", .hcl),
    ("dotenv", .dotenv), ("env", .dotenv), ("ini", .ini)].map fun (ending, format) =>
      (utf8 "." ++ utf8 ending, format)

def Format.ofPath? (path : Text) : Option Format := extensions.lookup (Path.extension path)

variable {m : Type → Type} [Monad m]

def entries? (getVar? : Text → m (Option Text)) (format : Format) (text : Text) :
    OptionT m Entries :=
  match format with
  | .json => OptionT.mk (return FromJson.table? text)
  | .yaml => OptionT.mk (return FromYaml.table? text)
  | .toml => OptionT.mk (return Toml.table? text)
  | .properties => Properties.table? getVar? text
  | .hcl => OptionT.mk (return Hcl.table? text)
  | .dotenv => Dotenv.table? getVar? text
  | .ini => OptionT.mk (return Ini.table? text)

/-- The table of a configuration file, with its keys in lower case. -/
def table? (getVar? : Text → m (Option Text)) (path text : Text) : OptionT m Setting := do
  let format ← OptionT.mk (return Format.ofPath? path)
  return Setting.folded (.table (← entries? getVar? format text))

end SvgAssist.Config

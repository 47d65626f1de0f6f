import SvgAssist.Grammar.Catalog
import SvgAssist.Text.Table
import SvgAssist.Text.Wrap

/-!
# Grammars on the command line

The elements of a grammar as a table, and the description of a single one.
-/

namespace SvgAssist.Command

open Grammar

/-- What is special about an element. An element that is simple is not also called inline. -/
def elementFlags (e : Element) : List Text :=
  (if e.simple then [utf8 "simple"] else if e.inline then [utf8 "inline"] else []) ++
    (if e.deprecated then [utf8 "deprecated"] else [])

def columnGap : Nat := 2

/-- All elements in two columns, which marks within their names may divide further. -/
def elementTable (c : Catalog) : Text :=
  Text.aligned columnGap (c.elements.flatMap fun e =>
    e.name ++ utf8 "\t" ++ (utf8 ",").intercalate (elementFlags e) ++ utf8 "\n")

def childrenText (e : Element) : Text :=
  match e.children with
  | none => utf8 "any element"
  | some [] => utf8 "none"
  | some names => (utf8 ", ").intercalate names

def attributeText (c : Catalog) (element : Text) (entry : AttributeEntry) : Text :=
  match c.resolve element entry.name with
  | none => utf8 "  " ++ entry.name ++ utf8 " (undefined)\n"
  | some a =>
    utf8 "  " ++ a.name ++ (if a.type = [] then [] else utf8 " " ++ a.type) ++
      (if a.deprecated then utf8 " DEPRECATED" else []) ++ utf8 "\n" ++
      (if a.hasValues then
        let names := (a.values.getD []).map (·.name)
        Text.paragraph 4 (utf8 "values: " ++ (utf8 " | ").intercalate names) ++ utf8 "\n"
      else [])

def attributesText (c : Catalog) (e : Element) : Text :=
  match e.attributes.getD [] with
  | [] => []
  | entries => utf8 "\nAttributes:\n" ++ entries.flatMap (attributeText c e.name)

def elementText (c : Catalog) (e : Element) : Text :=
  let flags := elementFlags e
  utf8 "<" ++ e.name ++ utf8 ">" ++
    (if flags = [] then [] else utf8 " (" ++ (utf8 ", ").intercalate flags ++ utf8 ")") ++
    utf8 "\n" ++
    (if e.documentation = [] then [] else Text.paragraph 2 e.documentation ++ utf8 "\n") ++
    utf8 "\nChildren: " ++ childrenText e ++ utf8 "\n" ++ attributesText c e

end SvgAssist.Command

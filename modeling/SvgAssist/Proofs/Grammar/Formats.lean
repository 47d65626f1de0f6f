import Mathlib
import SvgAssist.Grammar.Load
import SvgAssist.Proofs.Grammar.FromJson
import SvgAssist.Proofs.Grammar.FromYaml

/-!
# Two formats

A grammar document loads to the same catalog from JSON and from YAML, or is refused for the same
reason (`formats_agree`).
-/

namespace SvgAssist

-- A document that was read allows one level of nesting at least.
theorem Yaml.nesting_of_read {text : Text} {tree : Yaml.Document} (h : Yaml.read text = .ok tree) :
    0 < tree.nesting := by
  simp only [Yaml.read, bind, Except.bind] at h
  split at h
  · cases h
  · split at h
    · cases h
    · cases h
      exact Nat.succ_pos _

namespace Grammar

-- The catalog is that of the document, and its faults are those of the document.
theorem load_json {text : Text} {v : Json} {d : Document} (hread : Json.read text = .ok v)
    (hdocument : FromJson.document v = .ok d) :
    load .json text = d.toCatalog.mapError .document := by
  have hdecode : decodeJson text = .ok d := by
    simp only [decodeJson, hread, Except.mapError, bind, Except.bind, hdocument]
  unfold load
  simp only [hdecode]

theorem load_yaml {text : Text} {tree : Yaml.Document} {d : Document}
    (hread : Yaml.read text = .ok tree) (hdocument : FromYaml.document tree = .ok d) :
    load .yaml text = d.toCatalog.mapError .document := by
  have hdecode : decodeYaml text = .ok d := by
    simp only [decodeYaml, hread, Except.mapError, bind, Except.bind, hdocument]
  unfold load
  simp only [hdecode]

/-- A document that is written in JSON and in YAML means the same in both. -/
theorem formats_agree (d : Written.Document) {json yaml : Text} (tree : Yaml.Document)
    (root : Yaml.Node) (hjson : Json.read json = .ok d.toJson) (hyaml : Yaml.read yaml = .ok tree)
    (hroot : tree.root = some root) (hshows : Yaml.Shows root d.toJson) :
    load .json json = load .yaml yaml ∧
      load .json json = d.meaning.toCatalog.mapError .document := by
  have hloadJson := load_json hjson (FromJson.document_toJson d)
  have hdocument := FromYaml.document_of_shows (Yaml.nesting_of_read hyaml) d hroot hshows
  have hloadYaml := load_yaml hyaml hdocument
  exact ⟨hloadJson.trans hloadYaml.symm, hloadJson⟩

def Written.twice : Written.Document where
  all := [.elements [
    (utf8 "a", ⟨[.simple true], by decide⟩),
    (utf8 "a", ⟨[.attributes [.bare (utf8 "x"), .inline ⟨[.values [.bare (utf8 "u")]], by decide⟩],
      .children []], by decide⟩)]]
  distinct := by decide

def Written.twiceJson : Text :=
  utf8 "\x7b\"elements\": \x7b\"a\": \x7b\"simple\": true\x7d, \"a\": \x7b\"attributes\": " ++
    utf8 "[\"x\", \x7b\"enum\": [\"u\"]\x7d], \"subElements\": []\x7d\x7d\x7d"

def Written.twiceYaml : Text :=
  utf8 "elements:\n a: \x7bsimple: true\x7d\n" ++
    utf8 " a:\n  attributes: [x, \x7benum: [u]\x7d]\n  subElements: []"

def Written.twiceNode : Yaml.Node :=
  let text (s : String) (line : Nat) : Yaml.Node := .scalar Yaml.strTag (utf8 s) line
  .mapping Yaml.mapTag [(text "elements" 1, .mapping Yaml.mapTag [
    (text "a" 2, .mapping Yaml.mapTag [
      (text "simple" 2, .scalar Yaml.boolTag (utf8 "true") 2)] 2),
    (text "a" 3, .mapping Yaml.mapTag [
      (text "attributes" 4, .sequence Yaml.seqTag [text "x" 4, .mapping Yaml.mapTag [
        (text "enum" 4, .sequence Yaml.seqTag [text "u" 4] 4)] 4] 4),
      (text "subElements" 5, .sequence Yaml.seqTag [] 5)] 4)] 2)] 1

-- A tree that shows the document of the example.
theorem Written.twiceNode_shows : Yaml.Shows twiceNode twice.toJson := by
  refine .object 1 (.cons _ 1 (.object 2 (.cons _ 2 (.object 2 (.cons _ 2 (.bool 2 rfl) .nil))
    (.cons _ 3 (.object 4 (.cons _ 4 (.array 4 ?_) (.cons _ 5 (.array 5 .nil) .nil))) .nil))) .nil)
  exact .cons (.string _ 4)
    (.cons (.object 4 (.cons _ 4 (.array 4 (.cons (.string _ 4) .nil)) .nil)) .nil)

set_option maxRecDepth 4000 in
theorem formats_agree_twice :
    let e : Element := { Element.empty with
      name := utf8 "a"
      children := some []
      attributes := some [.ref (utf8 "x"), .own { Attribute.empty with
        values := some [⟨utf8 "u", []⟩] }] }
    load .json Written.twiceJson = .ok ⟨[e], []⟩ ∧
      load .yaml Written.twiceYaml = .ok ⟨[e], []⟩ := by
  have hjson : Json.read Written.twiceJson = .ok Written.twice.toJson := by cbv
  have hyaml : Yaml.read Written.twiceYaml = .ok (.ofRoot (some Written.twiceNode) []) := by cbv
  obtain ⟨hsame, hmeaning⟩ :=
    formats_agree Written.twice _ Written.twiceNode hjson hyaml rfl Written.twiceNode_shows
  exact ⟨hmeaning, hsame.symm.trans hmeaning⟩

end Grammar

end SvgAssist

import DeviceTree.Document.Basic
import DeviceTree.Yaml.Reader

/-!
# Documents in YAML
-/

namespace DeviceTree.Document

/-- The document written in YAML by `text`; where nothing is written the document is empty. -/
def parseYaml? (text : String) : Option Document :=
  match Yaml.parse? text with
  | some (.scalar (some "") (some .null)) => some {}
  | some outline => ofOutline? outline
  | none => none

end DeviceTree.Document

import DeviceTree.Document.Basic
import DeviceTree.Json.Reader

/-!
# Documents in JSON
-/

namespace DeviceTree.Document

/-- The document written in JSON by `text`. -/
def parseJson? (text : String) : Option Document :=
  (Json.parseRaw? text).bind fun tree => ofOutline? (Outline.ofJson tree)

end DeviceTree.Document

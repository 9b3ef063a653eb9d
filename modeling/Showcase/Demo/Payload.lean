import Showcase.Demo.EmptyAttribute
import Showcase.Text.HexReference
import Showcase.Demo.TagBlock
import Showcase.Text.Escape

/-!
# Payloads

The payload of a demo is its source, split into live markup, script and style. A widget element
carries it in an attribute, as JSON with HTML references.
-/

namespace Showcase

/-- The source of a demo, split. -/
structure Payload where
  /-- the live markup -/
  html : Text
  /-- the contents of the script blocks -/
  script : Text
  /-- the contents of the style blocks -/
  style : Text
  deriving DecidableEq

namespace Payload

/-- The name of script blocks. -/
def scriptTag : Text := "script".toList

/-- The name of style blocks. -/
def styleTag : Text := "style".toList

/-- Splits the source of a demo. The markup gets its characters and bare attributes back. -/
def ofBody (body : Text) : Payload where
  html := EmptyAttribute.drop (HexReference.restore (TagBlock.stripAll [scriptTag, styleTag] body))
  script := TagBlock.fetch scriptTag body
  style := TagBlock.fetch styleTag body

/-- The payload as a JSON object. -/
def json (p : Payload) : Text :=
  "\x7b\"html\":".toList ++ Text.jsonString p.html ++ ",\"script\":".toList
    ++ Text.jsonString p.script ++ ",\"style\":".toList ++ Text.jsonString p.style ++ ['\x7d']

/-- The payload as the text of a quoted attribute. -/
def attributeText (p : Payload) : Text := Text.escapeQuotes p.json

end Payload

end Showcase

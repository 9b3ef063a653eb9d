import Showcase.Demo.Event
import Showcase.Proofs.Text.Basic
import Showcase.Proofs.Text.Escape

/-!
# Payloads in attributes

A payload is written twice over, as JSON and then with HTML references, and what reads it has to
undo both: the references in one pass, and then the JSON. Nothing is lost on the way, whatever the
three texts of the payload have in them (`parse_attributeText`).

In the markup of a demo the payload stands between double quotes, and none of its own quotes is
left. So it ends where the next double quote is, and a reader who has found the attribute needs no
more than that (`opening_eq`).
-/

namespace Showcase

open Text

/-! ## Records of strings -/

namespace Text.Json

theorem value?_jsonString (n : Nat) (t r : Text) :
    value? (n + 1) (jsonString t ++ r) = some (text t, r) := by
  have h : skip (jsonString t ++ r) = '"' :: (t.flatMap jsonChar ++ '"' :: r) := by
    rw [jsonString, List.cons_append, List.append_assoc]
    rfl
  rw [value?, h]
  simp only [string?_jsonString, Option.map_some]

theorem key?_jsonString (key r : Text) :
    key? (jsonString key ++ ':' :: r) = some (key, r) := by
  have h : skip (jsonString key ++ ':' :: r) =
      '"' :: (key.flatMap jsonChar ++ '"' :: ':' :: r) := by
    rw [jsonString, List.cons_append, List.append_assoc]
    rfl
  rw [key?, h]
  simp only [string?_jsonString, Option.bind_some]
  rfl

/-- A record that is not empty. -/
theorem value?_brace (n : Nat) {t r : Text} (h : skip t = '"' :: r) :
    value? (n + 1) ('\x7b' :: t) = (entries? n t).map fun x => (record x.1, x.2) := by
  have hs : skip ('\x7b' :: t) = '\x7b' :: t := rfl
  rw [value?, hs]
  simp only [h]
  rfl

/-- An entry with more entries after it. -/
theorem entries?_comma (n : Nat) (key t r : Text) :
    entries? (n + 2) (jsonString key ++ ':' :: (jsonString t ++ ',' :: r)) =
      (entries? (n + 1) r).map fun x => ((key, text t) :: x.1, x.2) := by
  rw [entries?, key?_jsonString]
  simp only [value?_jsonString]
  rfl

/-- The last entry. -/
theorem entries?_brace (n : Nat) (key t r : Text) :
    entries? (n + 2) (jsonString key ++ ':' :: (jsonString t ++ '\x7d' :: r)) =
      some ([(key, text t)], r) := by
  rw [entries?, key?_jsonString]
  simp only [value?_jsonString]
  rfl

end Text.Json

/-! ## Payloads -/

namespace Payload

/-- The payload as a JSON value. -/
def toJson (p : Payload) : Json :=
  .record [("html".toList, .text p.html), ("script".toList, .text p.script),
    ("style".toList, .text p.style)]

theorem json_eq (p : Payload) :
    p.json = '\x7b' :: (jsonString "html".toList ++ ':' :: (jsonString p.html ++ ',' ::
      (jsonString "script".toList ++ ':' :: (jsonString p.script ++ ',' ::
        (jsonString "style".toList ++ ':' :: (jsonString p.style ++ ['\x7d'])))))) := by
  have h₁ : "\x7b\"html\":".toList = '\x7b' :: (jsonString "html".toList ++ [':']) := by decide
  have h₂ : ",\"script\":".toList = ',' :: (jsonString "script".toList ++ [':']) := by decide
  have h₃ : ",\"style\":".toList = ',' :: (jsonString "style".toList ++ [':']) := by decide
  unfold json
  rw [h₁, h₂, h₃]
  simp only [List.append_assoc, List.cons_append, List.nil_append]

theorem parse_json (p : Payload) : Json.parse p.json = some p.toJson := by
  obtain ⟨n, hn⟩ : ∃ n, 2 * p.json.length + 1 = n + 6 := by
    refine ⟨2 * p.json.length + 1 - 6, ?_⟩
    rw [json_eq]
    simp only [List.length_cons, List.length_append]
    omega
  rw [Json.parse, hn, json_eq, Json.value?_brace _ rfl, Json.entries?_comma, Json.entries?_comma,
    Json.entries?_brace]
  rfl

/-- **A payload is read back from the text of its attribute.** -/
theorem parse_attributeText (p : Payload) :
    Json.parse (unescapeQuotes p.attributeText) = some p.toJson := by
  rw [attributeText, unescapeQuotes_escapeQuotes, parse_json]

end Payload

namespace Widget

/-- The settings of the element, none of which is missing. -/
def settings (w : Widget) : WidgetSettings := ⟨some w.element, some w.boxClass, some w.property⟩

/-- What stands before the payload's attribute in the opening half. -/
def beforeAttribute (w : Widget) : Text :=
  '<' :: (w.element ++ " class=\"".toList ++ w.boxClass ++ "\" ".toList)

/-- How the payload's attribute begins. -/
def attributeStart (w : Widget) : Text := ':' :: (w.property ++ "=\"".toList)

/-- The opening half, cut where the text of the attribute begins and where it ends. -/
theorem opening_eq (w : Widget) (p : Payload) (description : Text) :
    ∃ after, w.opening p description =
      w.beforeAttribute ++ w.attributeStart ++ (p.attributeText ++ '"' :: after) := by
  have h : "\" :".toList = "\" ".toList ++ [':'] := by decide
  have h' : "\">\n".toList = '"' :: ['>', '\n'] := by decide
  refine ⟨'>' :: '\n' :: ("<div class=\"source\" slot=\"source\">".toList ++ (p.html ++
    ("</div>\n".toList ++ ((if description = [] then [] else Description.html description) ++
      "<div class=\"highlight\" slot=\"highlight\">".toList)))), ?_⟩
  rw [opening, h, h', beforeAttribute, attributeStart]
  simp only [List.append_assoc, List.cons_append, List.nil_append]

end Widget

namespace Payload

/-- The text of the attribute ends where the next double quote is. -/
theorem takeWhile_attributeText (p : Payload) (after : Text) :
    (p.attributeText ++ '"' :: after).takeWhile (· != '"') = p.attributeText := by
  have h : ∀ c ∈ p.attributeText, (c != '"') = true := fun c hc =>
    bne_iff_ne.2 ((isEscaped_escapeQuotes p.json).plain c hc).2.2.1
  exact takeWhile_run h (by decide) after

/-- **A payload survives its attribute.** Its text there is read back as the payload, has no
character that markup needs, and has `&` only where one of the five references begins. And in the
opening half of a demo, what stands between the beginning of the attribute and the next double quote
is read back as the payload that the demo records. If no colon stands before it, that beginning is
the first place where the markup has a colon, the name of the attribute, and `="`. -/
theorem attribute_reads_back :
    (∀ p : Payload, Json.parse (unescapeQuotes p.attributeText) = some p.toJson ∧
      IsEscaped p.attributeText) ∧
    ∀ (w : Widget) (description body : Text), ∃ payload markup rest,
      Event.payload? w.settings (.opening description body) = some payload ∧
      Event.markup w.settings (.opening description body) = .ok markup ∧
      markup = w.beforeAttribute ++ w.attributeStart ++ rest ∧
      (':' ∉ w.beforeAttribute → cut? w.attributeStart markup = some (w.beforeAttribute, rest)) ∧
      '"' ∈ rest ∧
      Json.parse (unescapeQuotes (rest.takeWhile (· != '"'))) = some payload.toJson := by
  constructor
  · intro p
    exact ⟨parse_attributeText p, isEscaped_escapeQuotes p.json⟩
  · intro w description body
    obtain ⟨after, hmarkup⟩ := w.opening_eq (ofBody body) description
    refine ⟨ofBody body, _, (ofBody body).attributeText ++ '"' :: after, rfl, rfl, hmarkup,
      ?_, ?_, ?_⟩
    · intro hcolon
      rw [hmarkup, List.append_assoc]
      exact cut?_append hcolon _ _
    · exact List.mem_append_right _ (List.mem_cons_self ..)
    · rw [takeWhile_attributeText, parse_attributeText]

end Payload

end Showcase

import Showcase.Demo.Marker
import Showcase.Demo.Payload
import Showcase.Markup.Block.Reader
import Showcase.Markup.Html
import Showcase.Page.Config
import Showcase.Page.Source

/-!
# Demo events

On a page, a demo is a widget element around its listing. The element is written in two halves, at
the opening and at the closing marker. The opening half has the live markup and the description in
it, and the payload in an attribute.

A description is markup of the standard dialect, without raw HTML, tables and containers. Its
headings have no anchors, and its links are plain (`Description.html`).

The names of the element, its class and its attribute are settings, each of which may be missing.
A setting is looked up only when it is needed: a payload is recorded before the class is looked up,
so it is recorded even if the class is missing (`Event.write`). What an event says and what it
records are also told apart (`Event.markup`, `Event.payload?`).
-/

namespace Showcase

namespace Description

/-- What is read in a description. -/
def grammar : Grammar := ⟨Dialect.description, false, false, []⟩

/-- How a description is written. -/
def look (definitions : Definitions) (standIn : Nat → Char := Torn.replacement) : Html.Look where
  context := ⟨Dialect.description, definitions, standIn⟩
  isExternal := fun _ => false
  anchors := none
  tableStart := "<table>".toList
  wrappers := []
  demoStart := fun _ _ => []
  demoEnd := []

/-- A description as HTML. -/
def html (description : Text) (standIn : Nat → Char := Torn.replacement) : Text :=
  let (blocks, definitions) := Block.readPage grammar (Source.readable description)
  Html.page (look definitions standIn) blocks

end Description

/-- How the widget element of demos is written. -/
structure Widget where
  /-- the name of the element -/
  element : Text
  /-- its class -/
  boxClass : Text
  /-- the attribute that holds the payload -/
  property : Text
  deriving DecidableEq

namespace Widget

/-- The opening half around a payload. -/
def opening (w : Widget) (payload : Payload) (description : Text)
    (standIn : Nat → Char := Torn.replacement) : Text :=
  '<' :: (w.element ++ " class=\"".toList ++ w.boxClass ++ "\" :".toList ++ w.property
    ++ "=\"".toList ++ payload.attributeText ++ "\">\n".toList
    ++ "<div class=\"source\" slot=\"source\">".toList ++ payload.html ++ "</div>\n".toList
    ++ (if description = [] then [] else Description.html description standIn)
    ++ "<div class=\"highlight\" slot=\"highlight\">".toList)

/-- The closing half. -/
def closing (element : Text) : Text := "</div></".toList ++ element ++ ['>', '\n']

end Widget

/-- The settings of the widget element. -/
structure WidgetSettings where
  /-- the name of the element -/
  element : Option Text
  /-- its class -/
  boxClass : Option Text
  /-- the attribute that holds the payload -/
  property : Option Text

namespace WidgetSettings

/-- The key of the element's name. -/
def elementKey : Text := "element".toList

/-- The key of the class. -/
def classKey : Text := "class".toList

/-- The key of the attribute's name. -/
def propertyKey : Text := "prop".toList

/-- The settings in a record. -/
def ofRecord (r : Setting.Record) : WidgetSettings where
  element := (Setting.Record.find? r elementKey).map Setting.display
  boxClass := (Setting.Record.find? r classKey).map Setting.display
  property := (Setting.Record.find? r propertyKey).map Setting.display

/-- A setting that is needed. -/
def need (key : Text) : Option Text → Except Failure Text
  | some value => .ok value
  | none => .error (.missing key)

/-- The widget element, if no setting is missing. -/
def widget (s : WidgetSettings) : Except Failure Widget := do
  let element ← need elementKey s.element
  let boxClass ← need classKey s.boxClass
  let property ← need propertyKey s.property
  return ⟨element, boxClass, property⟩

end WidgetSettings

/-- What happens at a marker of a demo. -/
inductive Event
  | opening (description body : Text)
  | closing
  deriving DecidableEq

/-- Where payloads are recorded: the payloads so far. They need not be recorded anywhere. -/
abbrev Register := Option (List Payload)

/-- What records payloads and may fail. After a failure, what was recorded by then stays. -/
abbrev Recording := ExceptT Failure (StateM Register)

/-- A token of a page, as far as it matters to demos. -/
structure Mark where
  /-- 1 if the token opens something -/
  nesting : Int
  /-- what stands on a marker's line -/
  info : Text
  /-- the listing, if the token is one -/
  content : Text

/-- The token at a position. Positions below zero count from the end. -/
def Mark.at? (marks : List Mark) (position : Int) : Option Mark :=
  let position := if position < 0 then position + marks.length else position
  if position < 0 then none else marks[position.toNat]?

namespace Event

/-- The event at a position of a page. The source of a demo is the token right after its opening
marker, whatever that is. -/
def ofMarks? (marks : List Mark) (position : Int) : Option Event :=
  (Mark.at? marks position).map fun m =>
    if m.nesting = 1 then
      let body := if position + 1 < marks.length then Mark.at? marks (position + 1) else none
      .opening (Marker.description m.info) ((body.map Mark.content).getD [])
    else .closing

/-- The markup for an event. -/
def markup (s : WidgetSettings) : Event → Except Failure Text
  | opening description body => do
    return (← s.widget).opening (Payload.ofBody body) description
  | closing => do return Widget.closing (← WidgetSettings.need WidgetSettings.elementKey s.element)

/-- The payload that an event records: an opening one does if the name of the element is there. -/
def payload? (s : WidgetSettings) : Event → Option Payload
  | opening _ body => s.element.map fun _ => Payload.ofBody body
  | closing => none

/-! ## Writing events -/

/-- Writes an event. The payload is recorded between the lookups, in which writing may fail. -/
def write (s : WidgetSettings) : Event → Recording Text
  | opening description body => do
    let element ← WidgetSettings.need WidgetSettings.elementKey s.element
    let payload := Payload.ofBody body
    modify (Option.map (· ++ [payload]))
    let boxClass ← WidgetSettings.need WidgetSettings.classKey s.boxClass
    let property ← WidgetSettings.need WidgetSettings.propertyKey s.property
    return Widget.opening ⟨element, boxClass, property⟩ payload description
  | closing => do
    return Widget.closing (← WidgetSettings.need WidgetSettings.elementKey s.element)

/-- The markup for an event, and the register by then. -/
def render (s : WidgetSettings) (register : Register) (e : Event) :
    Except Failure Text × Register :=
  ((write s e).run.run register).run

/-- Writes several events with one register. After a failure the next event is written all the
same. -/
def renders (s : WidgetSettings) : Register → List Event → List (Except Failure Text × Register)
  | _, [] => []
  | register, e :: es =>
    let written := render s register e
    written :: renders s written.2 es

/-- The markup for each of several events, with the number of payloads recorded by then; so many
were recorded before. -/
def run (s : WidgetSettings) (recorded : Nat) (es : List Event) :
    List (Except Failure Text × Nat) :=
  (renders s (some []) es).map fun x => (x.1, recorded + (x.2.getD []).length)

end Event

end Showcase

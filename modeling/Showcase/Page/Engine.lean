import Showcase.Demo.Event
import Showcase.Markup.Block.Reader
import Showcase.Markup.Html
import Showcase.Page.Config

/-!
# Engines

An engine is a configuration made ready for reading and writing pages: the dialect is looked up and
adjusted, and every setting has the type in which it is used (`Engine.ofConfig`). One of them is the
domain of the site: a link leads away from the site if it names another host
(`ExternalLink.leadsAway`). Only links with the scheme of web pages count, and the host is what
stands before the first slash.

`Engine.render` makes a page. The definitions of earlier pages may be handed to it, and come before
its own; whatever is defined first counts. What a page shows may be torn (`Torn`), so the stand-ins
for halves of surrogate pairs may be chosen.
-/

namespace Showcase

namespace ExternalLink

/-- What follows the scheme of web pages. -/
def afterScheme? (href : Text) : Option Text :=
  Text.after? "http://".toList href <|> Text.after? "https://".toList href

/-- What stands between the scheme and the first slash. -/
def host (t : Text) : Text := t.takeWhile (· != '/')

/-- The link leads away from the site with the given domain, which is empty if there is none. -/
def leadsAway (domain href : Text) : Bool :=
  match afterScheme? href with
  | some t => domain.isEmpty || host t != domain
  | none => false

end ExternalLink

/-- Everything that pages are made with. -/
structure Engine where
  /-- what is read on a page -/
  grammar : Grammar
  /-- the anchors of headings -/
  anchors : Html.Anchors
  /-- the class of tables -/
  tableClass : Text
  /-- the domain of the site; empty if there is none -/
  domain : Text
  /-- the widget element of demos -/
  widget : WidgetSettings

namespace Engine

open Setting

/-- A setting of a configuration. -/
def need (c : Config) (key : String) : Except Failure Setting :=
  match Record.find? c key.toList with
  | some value => .ok value
  | none => .error (.missing key.toList)

/-- The dialect with the given options. -/
def adjust (d : Dialect) (options : Record) : Dialect :=
  let isOn (key : String) (now : Bool) := ((Record.find? options key.toList).map isSet).getD now
  { d with
    html := isOn "html" d.html
    slashes := isOn "xhtmlOut" d.slashes
    breaks := isOn "breaks" d.breaks
    languageMark := ((Record.find? options "langPrefix".toList).map display).getD d.languageMark
    depth := ((Record.find? options "maxNesting".toList).map fun s => s.toInt.toNat).getD d.depth }

/-- The permalink of headings. -/
def permalink (shown before : Setting) (symbol : Setting) : Html.Permalink :=
  if !shown.isSet then .none
  else if before.isSet then .before symbol.display
  else .after symbol.display

/-- The engine for a configuration. An empty configuration has none; where one is given for a page,
that of the project is in effect instead. -/
def ofConfig (spelling : Slug.Transliteration) (c : Config) : Except Failure Engine := do
  let preset := (← need c "preset").display
  let options := (← need c "options").entries
  let dialect ← match Dialect.named? preset with
    | some d => .ok (adjust d options)
    | none => .error (.unknownDialect preset)
  let least := (← need c "anchor_level").toInt
  let shown ← need c "permalink"
  let symbol ← need c "permalink_symbol"
  let before ← need c "permalink_before"
  let demo := (← need c "demo").entries
  let notices := (← need c "notice_containers").items.map display
  let tableClass := (← need c "table_class").display
  let domain := match ← need c "site_domain" with
    | text t => t
    | _ => []
  return {
    grammar := ⟨dialect, true, true, notices⟩
    anchors := ⟨least, permalink shown before symbol, spelling⟩
    tableClass := tableClass
    domain := domain
    widget := WidgetSettings.ofRecord demo }

/-! ## Demos on a page -/

mutual

/-- The sources of the demos in a block, in their order on the page. -/
def bodies : Block → List Text
  | .quote content => allBodies content
  | .list _ _ items => itemBodies items
  | .demo _ content => Html.body content :: allBodies content
  | .notice _ content => allBodies content
  | _ => []

/-- The sources of the demos in several blocks. -/
def allBodies : List Block → List Text
  | [] => []
  | b :: bs => bodies b ++ allBodies bs

/-- The sources of the demos in the items of a list. -/
def itemBodies : List (List Block) → List Text
  | [] => []
  | i :: is => allBodies i ++ itemBodies is

end

/-- The payloads of the demos in several blocks. -/
def payloads (bs : List Block) : List Payload := (allBodies bs).map Payload.ofBody

/-! ## Pages -/

/-- A page as it was made. -/
structure Rendered where
  /-- the HTML of the page -/
  html : Text
  /-- the payloads of its demos -/
  payloads : List Payload
  /-- the definitions known by then -/
  definitions : Definitions

/-- How pages are written, given the widget element and the definitions. -/
def look (e : Engine) (w : Widget) (definitions : Definitions)
    (standIn : Nat → Char := Torn.replacement) : Html.Look where
  context := ⟨e.grammar.dialect, definitions, standIn⟩
  isExternal := ExternalLink.leadsAway e.domain
  anchors := some e.anchors
  tableStart := "<table class=\"".toList ++ e.tableClass ++ ['"', '>']
  wrappers := [.markRaw, .highlight]
  demoStart := fun info body =>
    w.opening (Payload.ofBody body) (Marker.description info) standIn
  demoEnd := Widget.closing w.element

/-- Makes a page. The widget element is needed only if there is a demo on it. -/
def render (e : Engine) (known : Definitions) (page : Text)
    (standIn : Nat → Char := Torn.replacement) : Except Failure Rendered := do
  let (blocks, own) := Block.readPage e.grammar (Source.readable page)
  let definitions := known ++ own
  let w ← if allBodies blocks = [] then .ok ⟨[], [], []⟩ else e.widget.widget
  return ⟨Html.page (e.look w definitions standIn) blocks, payloads blocks, definitions⟩

end Engine

end Showcase

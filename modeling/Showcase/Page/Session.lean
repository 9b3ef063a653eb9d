import Showcase.Page.Engine

/-!
# Sessions

Pages are made one after the other. A page by itself is made from its source and a configuration
(`page`). The site loads it as a component: its HTML, on lines of its own, inside of a section
inside of a template (`Component.wrap`).

A page may show halves of surrogate pairs, for which characters stand in; what is fixed of a page
besides its HTML does not depend on them (`map_payloads_page`).

The renders of a session share a context, into which each of them writes and from which
its later stages read (`Context.render`): whether a component is wanted, the configuration, and the
payloads. An *engine session* makes pages with one engine; payloads gather and definitions last
until the session starts afresh (`Memory`).
-/

namespace Showcase

namespace Component

/-- The HTML with a line feed at its end; an empty one needs none. -/
def lines (html : Text) : Text :=
  if html = [] ∨ Text.endsWith html ['\n'] then html else html ++ ['\n']

/-- The HTML as a component whose section has a class. -/
def wrap (sectionClass html : Text) : Text :=
  "<template>\n  <section class=\"".toList ++ sectionClass ++ "\">\n".toList ++ lines html
    ++ "  </section>\n</template>\n".toList

/-- A component is a section inside of a template. -/
theorem wrap_eq (sectionClass html : Text) :
    wrap sectionClass html =
      Html.element "template".toList [] ("\n  ".toList ++
        (Html.element "section".toList
          (' ' :: ("class".toList ++ '=' :: '"' :: (sectionClass ++ ['"'])))
          ('\n' :: (lines html ++ "  ".toList)) ++ ['\n'])) ++ ['\n'] := by
  have hstart : "<template>\n  <section class=\"".toList = '<' :: ("template".toList ++ '>' ::
      ("\n  ".toList ++ '<' :: ("section".toList ++ ' ' :: ("class".toList ++ ['=', '"'])))) := rfl
  have hmiddle : "\">\n".toList = ['"', '>', '\n'] := rfl
  have hend : "  </section>\n</template>\n".toList = "  ".toList ++ ("</".toList ++
      ("section".toList ++ '>' :: '\n' :: ("</".toList ++ ("template".toList ++ ['>', '\n'])))) :=
    rfl
  unfold wrap
  simp only [hstart, hmiddle, hend, Html.element, List.cons_append, List.append_assoc,
    List.nil_append]

/-- The class of the section where no other is set. -/
def defaultClass : Text := "content".toList

end Component

namespace Session

/-- A page as it was asked for. -/
structure Page where
  /-- the HTML, or the component -/
  html : Text
  /-- the payloads of its demos -/
  payloads : List Payload

/-- A page made with a configuration, as a component if one is wanted. The configuration is the one
in effect: whoever asks for a page with an empty one, or with none, gets that of the project. -/
def page (spelling : Slug.Transliteration) (c : Config) (asComponent : Bool) (source : Text)
    (standIn : Nat → Char := Torn.replacement) : Except Failure Page := do
  let engine ← Engine.ofConfig spelling c
  let made ← engine.render [] (Source.clean source) standIn
  let sectionClass ← Engine.need c "component_class"
  let html := if asComponent then Component.wrap sectionClass.display made.html else made.html
  return ⟨html, made.payloads⟩

/-- What stands in for halves of surrogate pairs is only shown: neither whether a page is made nor
its payloads depend on it. -/
theorem map_payloads_page (spelling : Slug.Transliteration) (c : Config) (asComponent : Bool)
    (source : Text) (standIn : Nat → Char) :
    (page spelling c asComponent source standIn).map Page.payloads =
      (page spelling c asComponent source).map Page.payloads := by
  simp only [page, Engine.render, bind, Except.bind]
  cases Engine.ofConfig spelling c with
  | error f => rfl
  | ok e =>
    -- the HTML is never compared: only the payloads of the blocks are left on both sides
    by_cases hnone : Engine.allBodies
        (Block.readPage e.grammar (Source.readable (Source.clean source))).1 = []
    · simp only [if_pos hnone]
      cases Engine.need c "component_class" <;> simp only [Except.map, pure, Except.pure]
    · simp only [if_neg hnone]
      cases e.widget.widget with
      | error f => rfl
      | ok w =>
        cases Engine.need c "component_class" <;> simp only [Except.map, pure, Except.pure]

/-- Why a value cannot be shown as a page. -/
inductive FragmentError
  /-- it is set and no text -/
  | notText (value : Setting)
  | failure (f : Failure)

/-- A value shown as a page inside another page. A value that is not set is an empty page. -/
def fragment (spelling : Slug.Transliteration) (c : Config) (value : Setting) :
    Except FragmentError Text :=
  let shown := fun source =>
    match page spelling c false source with
    | .ok p => .ok p.html
    | .error f => .error (.failure f)
  match value with
  | .text t => shown t
  | other => if other.isSet then .error (.notText other) else shown []

/-! ## Sessions with one context -/

/-- One page of a session. -/
structure Request where
  /-- the source of the page -/
  source : Text
  /-- the configuration in effect: that of the project, if the page was asked for with an empty
  one -/
  config : Config
  /-- a component is wanted from here on -/
  asComponent : Bool

/-- What the renders of a session share. -/
structure Context where
  /-- a component is wanted -/
  asComponent : Bool
  /-- the configuration of the last render, at first that of the project -/
  config : Config
  /-- the payloads of the last page that was made -/
  payloads : List Payload

namespace Context

/-- The context of a session of which nothing is known yet. -/
def fresh (project : Config) : Context := ⟨false, project, []⟩

/-- The context at the beginning of a render, which takes over the configuration in effect. -/
def begin (ctx : Context) (r : Request) : Context :=
  { ctx with asComponent := ctx.asComponent || r.asComponent, config := r.config }

/-- The page before it is finished. -/
def make (spelling : Slug.Transliteration) (r : Request) : Except Failure Engine.Rendered := do
  let engine ← Engine.ofConfig spelling r.config
  engine.render [] (Source.clean r.source)

/-- The page as it is handed out: as a component if one is wanted. The class of the component is
looked up in any case. -/
def finish (ctx : Context) (html : Text) : Except Failure Text := do
  let sectionClass ← Engine.need ctx.config "component_class"
  return if ctx.asComponent then Component.wrap sectionClass.display html else html

/-- Makes a page. A render that fails leaves the context as it is by then. -/
def render (spelling : Slug.Transliteration) (ctx : Context) (r : Request) :
    Except Failure Text × Context :=
  let ctx := ctx.begin r
  match make spelling r with
  | .error f => (.error f, ctx)
  | .ok made =>
    let ctx := { ctx with payloads := made.payloads }
    (ctx.finish made.html, ctx)

/-- Makes several pages, each with the context by then. -/
def renders (spelling : Slug.Transliteration) : Context → List Request →
    List (Except Failure Text × Context)
  | _, [] => []
  | ctx, r :: rs =>
    let answer := ctx.render spelling r
    answer :: renders spelling answer.2 rs

end Context

/-- The answers to several requests, each with whether components are wanted by then. -/
def run (spelling : Slug.Transliteration) (asComponent : Bool) (rs : List Request) :
    List (Except Failure Page × Bool) :=
  (Context.renders spelling { Context.fresh Config.default with asComponent } rs).map fun x =>
    (x.1.map fun html => ⟨html, x.2.payloads⟩, x.2.asComponent)

/-! ## Sessions with one engine -/

/-- What lasts from page to page. -/
structure Memory where
  /-- the payloads so far -/
  payloads : List Payload
  /-- the definitions so far -/
  definitions : Definitions

/-- The memory of a session that starts afresh. -/
def Memory.empty : Memory := ⟨[], []⟩

/-- The memory after a page was made. -/
def Memory.after (m : Memory) (made : Engine.Rendered) : Memory :=
  ⟨m.payloads ++ made.payloads, made.definitions⟩

/-- The memory after a page that could not be written: its definitions were read, and the payload of
its first demo was recorded, unless the name of the element is missing. -/
def Memory.afterFailure (e : Engine) (m : Memory) (source : Text) : Memory :=
  let (blocks, own) := Block.readPage e.grammar (Source.readable source)
  let first := (Engine.allBodies blocks).head?.bind fun body =>
    Event.payload? e.widget (.opening [] body)
  ⟨m.payloads ++ first.toList, m.definitions ++ own⟩

/-- One page of a session with one engine. -/
structure Sheet where
  /-- the source of the page -/
  source : Text
  /-- the session starts afresh -/
  fresh : Bool

/-- The pages of a session with one engine, each with the payloads so far. -/
def pages (e : Engine) : Memory → List Sheet → List (Except Failure Page)
  | _, [] => []
  | m, s :: ss =>
    let m := if s.fresh then Memory.empty else m
    match e.render m.definitions s.source with
    | .ok made => .ok ⟨made.html, (m.after made).payloads⟩ :: pages e (m.after made) ss
    | .error f => .error f :: pages e (m.afterFailure e s.source) ss

end Session

end Showcase

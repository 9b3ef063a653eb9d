import Showcase.Proofs.Outline.Inside
import Showcase.Proofs.Page.DemoPage
import Showcase.Proofs.Payload.Attribute
import Showcase.Proofs.Page.Widget

/-!
# Headings inside of widget elements

The widget element of demos is written with the name that is set for it, and the outline looks for
elements of that name. In between the page is read again, and with that the name is in lower case.
So what the outline leaves out depends on the letter case of the setting (`headings_inside`): with a
name in lower case no heading inside of a demo is in the outline, and with a capital letter in the
name all of them are.

This is about demos that stay open to their end. The source of a demo is on the page as it is, and
may close the widget element or an element around it.
-/

namespace Showcase

open Document Text

namespace Widget

open Outline

/-- **Headings inside of a widget element.** Every demo on a page is written with the element. If
what stands in the element leaves it open, then its headings are in the outline exactly if the name
is not in lower case; all else is listed as if the element were not there. -/
theorem headings_inside (spelling : Slug.Transliteration) {w : Widget} (hw : w.IsPlain) :
    (∀ (c : Config) (e : Engine), Engine.ofConfig spelling c = .ok e → e.widget.widget = .ok w →
      ∀ (asComponent : Bool) (source : Text) (made : Session.Page),
        Session.page spelling c asComponent source = .ok made →
        ∀ d ∈ Block.demosOf (e.blocks (Source.clean source)), ∃ before content after,
          made.html = before ++
            w.markup (Payload.ofBody (Html.body d.2)) (Marker.description d.1) content ++ after) ∧
    ∀ (before content after description : Text) (p : Payload) (ts us : List Token),
      IsRead before ts → IsRead (inside p description content) us →
      (Course.start.after (ts ++ [w.token p])).Keeps
        (Text.lower w.element :: (Course.start.after ts).stack) us →
      ∀ ns, Document.ofText (before ++ w.markup p description content ++ after) = .ok ns →
        ∃ (es : List Outline.Entry) (out within rest : List Placed),
          Outline.ofText spelling (isNamedBy (.text w.element))
            (before ++ w.markup p description content ++ after) = .ok es ∧
          Placed.ofDocument ns = out ++ within ++ rest ∧
          within.map Placed.opened =
            (Course.start.after (ts ++ [w.token p])).allOpened [documentName] us ∧
          (Outline.Entry.preorders es).map some =
            (Placed.listed (isNamedBy (.text w.element)) out ++
              (if Text.lower w.element = w.element then []
                else Placed.listed (fun _ => false) within) ++
              Placed.listed (isNamedBy (.text w.element)) rest).map (Placed.heading? spelling) := by
  constructor
  · intro c e hengine hwidget asComponent source made hpage d hd
    exact exists_demo_of_page hengine hwidget hpage hd
  · intro before content after description p ts us hbefore hinside hkeeps ns hns
    -- the document itself is the outermost place, and no element has its name
    have hname : w.element ≠ documentName := by
      obtain ⟨c, t, e, hc⟩ := hw.element.letter
      rw [e]
      intro h
      obtain rfl : c = '[' := (List.cons.inj h).1
      exact absurd hc (by decide)
    -- the widget in three parts: what comes before its content, the content, and the rest
    have hhtml : before ++ w.markup p description content ++ after =
        (before ++ w.startTag p) ++ inside p description content ++
          ('<' :: '/' :: (w.element ++ ['>', '\n']) ++ after) := by
      rw [markup_eq]
      simp only [List.append_assoc]
    have hstart := hbefore.append (isRead_startTag hw p)
    obtain ⟨out, within, rest, hsplit, hwithin, hlisted⟩ :=
      Placed.listed_around hstart hinside hname hkeeps (hhtml ▸ hns)
    refine ⟨Outline.Entry.ofHeadings
      (documentHeadings spelling (isNamedBy (.text w.element)) ns), out, within, rest, ?_, hsplit,
      hwithin, ?_⟩
    · rw [Outline.ofText, hns]
      rfl
    · rw [Outline.Entry.preorder_ofHeadings, ← Placed.map_heading?_listed_ofDocument, hlisted]

end Widget

namespace DemoSection

/-! ## Pages with an element of another name -/

/-- The default configuration with another name for the widget element. -/
def withElement (element : Text) : Config :=
  Config.default.adjust [(Config.demoKey, .record [(WidgetSettings.elementKey, .text element)])]

/-- The widget element of that configuration. -/
def widgetNamed (element : Text) : Widget := ⟨element, "demo-box".toList, "jsfiddle".toList⟩

theorem ofConfig_withElement (spelling : Slug.Transliteration) (element : Text) :
    Engine.ofConfig spelling (withElement element) =
      .ok { defaultEngine spelling with widget := (widgetNamed element).settings } := by
  rfl

theorem page_withElement (spelling : Slug.Transliteration) (element : Text)
    (ss : List DemoSection) :
    Session.page spelling (withElement element) true (page ss) =
      .ok ⟨Component.wrap "content".toList (ss.flatMap (htmlWith (widgetNamed element))),
        ss.map fun s => Payload.ofBody s.body⟩ := by
  have hwidget : (widgetNamed element).settings.widget = .ok (widgetNamed element) := rfl
  have hrender := render_with spelling hwidget ss (clean_page ss).2
  have hclass : Engine.need (withElement element) "component_class" =
      .ok (.text "content".toList) := rfl
  rw [Session.page, ofConfig_withElement, (clean_page ss).1]
  simp only [Except.bind, bind, hrender, hclass]
  rfl

theorem isRead_listing (s : DemoSection) :
    IsRead s.listing (IsRead.listingTokens [("v-pre".toList, [])]
      [("class".toList, "hljs language-html".toList)] s.body) := by
  have h := IsRead.wrap_listing (some "language-html".toList) s.body
  rwa [Option.elim_some, wrap_listing] at h

/-- The tokens of a demo without a description, given those of its source. -/
def markupTokens (element : Text) (s : DemoSection) (ts : List Token) : List Token :=
  (widgetNamed element).markupTokens (Payload.ofBody s.body) ts []
    (IsRead.listingTokens [("v-pre".toList, [])]
      [("class".toList, "hljs language-html".toList)] s.body)

theorem isRead_markup {element : Text} (hw : (widgetNamed element).IsPlain) {s : DemoSection}
    {ts : List Token} (h : IsRead (Payload.ofBody s.body).html ts) :
    IsRead ((widgetNamed element).markup (Payload.ofBody s.body) [] s.listing)
      (markupTokens element s ts) :=
  Widget.isRead_markup hw h IsRead.nil s.isRead_listing

/-- The component of a demo without a description is read if its source is. -/
theorem isRead_component {element : Text} (hw : (widgetNamed element).IsPlain) {s : DemoSection}
    (hdescription : strip s.description = []) {ts : List Token}
    (h : IsRead (Payload.ofBody s.body).html ts) :
    IsRead (Component.wrap "content".toList (htmlWith (widgetNamed element) s))
      (Component.tokens "content".toList (markupTokens element s ts)) := by
  have hhtml : htmlWith (widgetNamed element) s =
      (widgetNamed element).markup (Payload.ofBody s.body) [] s.listing := by
    rw [htmlWith, hdescription]
    rfl
  refine Component.isRead_wrap (by decide) ?_
  rw [hhtml, Component.lines_markup]
  exact isRead_markup hw h

/-- A demo with a heading in its source. -/
def headed : DemoSection where
  description := []
  body := "<h2>A</h2>\n".toList
  description_plain := forall_mem_of_all (by decide)
  body_plain := forall_mem_of_all (by decide)
  body_whole := Or.inr rfl
  body_colons := by
    rw [← has_iff]
    decide
  body_fences := by
    rw [← has_iff]
    decide

/-- The tokens of its source. -/
def headedTokens : List Token :=
  .opening "h2".toList [] false :: (letterTokens ['A'] ++ [.closing "h2".toList])
    ++ letterTokens ['\n']

theorem isRead_headed : IsRead (Payload.ofBody headed.body).html headedTokens := by
  have hpayload : (Payload.ofBody headed.body).html = headed.body := by decide +kernel
  have hordinary : isOrdinary "h2".toList = true := by decide
  have hletter : IsRead ['A'] (letterTokens ['A']) := IsRead.plain (by decide)
  have hfeed : IsRead ['\n'] (letterTokens ['\n']) := IsRead.plain (by decide)
  have hnone : ∀ q ∈ ([] : List Quoted), q.IsClosed := fun _ h => absurd h List.not_mem_nil
  rw [hpayload]
  exact (IsRead.element hordinary hnone hletter).append hfeed

theorem isPlain_capital : (widgetNamed "DemoBlock".toList).IsPlain where
  element := isTagName_of_forall (c := 'D') (by decide) (forall_mem_of_all (by decide))
  void := by decide
  verbatim := by decide
  boxClass := by decide
  property := forall_mem_of_all (by decide)

/-- **A name with a capital letter** lets a heading of a demo into the outline: the page has nothing
but a demo, whose source has no closing tag of the element. -/
theorem outline_of_capital :
    ∃ made es, Session.page Slug.spelling (withElement "DemoBlock".toList) true (page [headed]) =
        .ok made ∧
      Outline.ofText Slug.spelling (Outline.isNamedBy (.text "DemoBlock".toList)) made.html =
        .ok es ∧
      (Outline.Entry.preorders es).map (·.title) = ["A".toList] ∧
      ¬ "</demoblock".toList <:+: lower headed.body := by
  have hpage := page_withElement Slug.spelling "DemoBlock".toList [headed]
  have hread := (isRead_component isPlain_capital (s := headed) rfl isRead_headed).ofText_eq
  refine ⟨_, Outline.Entry.ofHeadings (Outline.documentHeadings Slug.spelling
    (Outline.isNamedBy (.text "DemoBlock".toList))
    (ofTokens (Component.tokens "content".toList
      (markupTokens "DemoBlock".toList headed headedTokens)))), hpage, ?_, ?_, ?_⟩
  · rw [List.flatMap_singleton, Outline.ofText, hread]
    rfl
  · rw [Outline.Entry.preorder_ofHeadings]
    decide +kernel
  · rw [← has_iff]
    decide +kernel

theorem isPlain_lower : (widgetNamed "demo-block".toList).IsPlain where
  element := isTagName_of_forall (c := 'd') (by decide) (forall_mem_of_all (by decide))
  void := by decide
  verbatim := by decide
  boxClass := by decide
  property := forall_mem_of_all (by decide)

/-- The same demo with a name in lower case: nothing of what stands in it is listed. -/
theorem headings_inside_lower :
    ∃ (es : List Outline.Entry) (out within rest : List Outline.Placed),
      Outline.ofText Slug.spelling (Outline.isNamedBy (.text "demo-block".toList))
        ([] ++ (widgetNamed "demo-block".toList).markup (Payload.ofBody headed.body) []
          headed.listing ++ []) = .ok es ∧
      within.map (fun x => x.opened.name) =
        ["div".toList, "h2".toList, "div".toList, "pre".toList, "code".toList] ∧
      (Outline.Entry.preorders es).map some =
        (Outline.Placed.listed (Outline.isNamedBy (.text "demo-block".toList)) out ++ [] ++
          Outline.Placed.listed (Outline.isNamedBy (.text "demo-block".toList)) rest).map
            (Outline.Placed.heading? Slug.spelling) := by
  have hinside := @Widget.isRead_inside (Payload.ofBody headed.body) [] _ _ _ _ isRead_headed
    IsRead.nil headed.isRead_listing
  -- nothing in the widget closes it: that is computed from its tokens
  have hkeeps : (Course.start.after ([] ++ [(widgetNamed "demo-block".toList).token
      (Payload.ofBody headed.body)])).Keeps ["demo-block".toList]
      (Widget.insideTokens headedTokens [] (IsRead.listingTokens [("v-pre".toList, [])]
        [("class".toList, "hljs language-html".toList)] headed.body)) := by
    decide +kernel
  have hns : Document.ofText ([] ++ (widgetNamed "demo-block".toList).markup
      (Payload.ofBody headed.body) [] headed.listing ++ []) =
        .ok (ofTokens (markupTokens "demo-block".toList headed headedTokens)) := by
    rw [List.nil_append, List.append_nil]
    exact (isRead_markup isPlain_lower isRead_headed).ofText_eq
  have hlower : lower "demo-block".toList = "demo-block".toList := by decide +kernel
  obtain ⟨es, out, within, rest, hes, -, hwithin, hlisted⟩ :=
    (Widget.headings_inside Slug.spelling isPlain_lower).2 [] headed.listing [] []
      (Payload.ofBody headed.body) [] _ IsRead.nil hinside (hlower.symm ▸ hkeeps) _ hns
  refine ⟨es, out, within, rest, hes, ?_, ?_⟩
  · have hnames := congrArg (List.map Opened.name) hwithin
    rw [List.map_map] at hnames
    refine hnames.trans ?_
    decide +kernel
  · have hname : lower (widgetNamed "demo-block".toList).element =
        (widgetNamed "demo-block".toList).element := hlower
    rwa [if_pos hname] at hlisted

end DemoSection

end Showcase

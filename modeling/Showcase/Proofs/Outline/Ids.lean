import Showcase.Proofs.Outline.DemoElement
import Showcase.Proofs.Outline.HeadingPage
import Showcase.Proofs.Page.Anchors

/-!
# The ids in an outline

With the default configuration, headings from the second level on have anchors, and those of the
first level do not: the outline gives them the slugs of their titles. Anchors are unique on a page
without raw HTML, so in its outline the ids of headings below the first level are different from
each other (`ids_of_page`). A heading of the first level may share its id with any other heading
(`ids_of_equal_titles`).
-/

namespace Showcase

open Document

namespace Outline

/-! ## From tags to ids -/

/-- The tag of an element, as far as it matters to outlines. -/
def Placed.tag (x : Placed) : HeadingTag := (x.name, attribute? x.attributes "id")

section

variable {spelling : Slug.Transliteration} {isDemo : Text → Bool} {ns : List Node}

theorem id_of_heading? {x : Placed} {y : Heading} (h : x.heading? spelling = some y) :
    (x.tag.2 = none → y.id = Slug.ofTitle spelling y.title) ∧
      ∀ id, x.tag.2 = some id → id ≠ [] → y.id = id := by
  have htitle := ((x.isSome_heading?_iff spelling).1 (h ▸ rfl)).2
  obtain ⟨y', hy', -, htitle', hnone, hsome⟩ :=
    @exists_heading? spelling _ _ (Placed.level_of_heading? spelling h) x.attributes _ htitle
  obtain rfl := Option.some.inj (hy'.symm.trans h)
  exact ⟨fun e => htitle' ▸ hnone e, hsome⟩

/-- The tags of the headings in the outline of a document. -/
def listedTags (isDemo : Text → Bool) (ns : List Node) : List HeadingTag :=
  (Placed.listed isDemo (Placed.ofDocument ns)).map Placed.tag

theorem exists_listed {y : Heading} (hy : y ∈ documentHeadings spelling isDemo ns) :
    ∃ x : Placed, x.tag ∈ listedTags isDemo ns ∧ x.heading? spelling = some y := by
  have hmem : some y ∈ (documentHeadings spelling isDemo ns).map some := List.mem_map_of_mem hy
  rw [← Placed.map_heading?_listed_ofDocument] at hmem
  obtain ⟨x, hx, hxy⟩ := List.mem_map.1 hmem
  exact ⟨x, List.mem_map_of_mem hx, hxy⟩

variable {least : Int} {taken taken' : List Text} {hs : List HeadingTag}
  (h : Html.Anchored least taken taken' hs) (hsub : (listedTags isDemo ns).Sublist hs)

include h hsub

/-- A heading of the outline, with the level from which headings are anchored. -/
theorem id_of_anchored {x : Placed} (hx : x.tag ∈ listedTags isDemo ns) {y : Heading}
    (hy : x.heading? spelling = some y) :
    x.tag.2 = (if least ≤ y.level then some y.id else none) ∧
      ((y.level : Int) < least → y.id = Slug.ofTitle spelling y.title) := by
  obtain ⟨hnone, hne⟩ := h.given x.tag (hsub.subset hx) _ (Placed.level_of_heading? spelling hy)
  refine ⟨?_, fun hlt => (id_of_heading? hy).1 (hnone.2 hlt)⟩
  cases hid : x.tag.2 with
  | none => rw [if_neg (Int.not_le.2 (hnone.1 hid))]
  | some id =>
    have hle : least ≤ y.level := Int.not_lt.1 fun hlt => by
      rw [hnone.2 hlt] at hid
      cases hid
    rw [if_pos hle, (id_of_heading? hy).2 id hid fun e => hne (e ▸ hid)]

/-- The ids of anchored headings are those of the tags. -/
theorem map_id_eq :
    ((documentHeadings spelling isDemo ns).filter fun y => least ≤ y.level).map (·.id) =
      (listedTags isDemo ns).filterMap (·.2) := by
  -- the anchor that a heading was given, if its level is deep enough for one
  let anchor (y : Heading) : Option Text := if least ≤ y.level then some y.id else none
  have hlisted := Placed.map_heading?_listed_ofDocument spelling isDemo ns
  -- both sides are compared heading by heading, before those without an anchor are left out
  have hanchor : ((listedTags isDemo ns).map (·.2)).map some =
      ((documentHeadings spelling isDemo ns).map anchor).map some := by
    have hmap := congrArg (List.map (Option.map anchor)) hlisted
    rw [List.map_map, List.map_map] at hmap
    rw [listedTags, List.map_map, List.map_map, List.map_map]
    refine Eq.trans (List.map_congr_left fun x hx => ?_) hmap
    have hmem : x.heading? spelling ∈ (documentHeadings spelling isDemo ns).map some :=
      hlisted ▸ List.mem_map_of_mem hx
    obtain ⟨y, -, hy⟩ := List.mem_map.1 hmem
    simp only [Function.comp_apply, ← hy, Option.map_some,
      (id_of_anchored h hsub (List.mem_map_of_mem hx) hy.symm).1]
    rfl
  have htags : (listedTags isDemo ns).map (·.2) =
      (documentHeadings spelling isDemo ns).map anchor :=
    List.map_injective_iff.2 (fun _ _ => Option.some.inj) hanchor
  have hsplit : (listedTags isDemo ns).filterMap (·.2) =
      ((listedTags isDemo ns).map (·.2)).filterMap id := by rw [List.filterMap_map]; rfl
  rw [hsplit, htags, List.filterMap_map, ← List.filterMap_eq_map, ← List.filterMap_eq_filter,
    List.filterMap_filterMap]
  refine List.filterMap_congr fun y _ => ?_
  by_cases hle : least ≤ y.level <;> simp [hle, anchor, Option.guard]

variable (spelling) in
/-- **The ids in an outline** of a document whose headings are anchored from a level on. -/
theorem ids_of_anchored :
    (∀ y ∈ documentHeadings spelling isDemo ns, (y.level : Int) < least →
      y.id = Slug.ofTitle spelling y.title) ∧
    (((documentHeadings spelling isDemo ns).filter fun y => least ≤ y.level).map (·.id)).Nodup := by
  refine ⟨fun y hy hlt => ?_, ?_⟩
  · obtain ⟨x, hx, hxy⟩ := exists_listed hy
    exact (id_of_anchored h hsub hx hxy).2 hlt
  · rw [map_id_eq h hsub]
    exact h.distinct.sublist (hsub.filterMap _)

end

/-! ## Pages -/

theorem hasHeadings_lines {isDemo : Text → Bool} {html : Text} {hs : List HeadingTag}
    (h : HasHeadings isDemo html hs) : HasHeadings isDemo (Component.lines html) hs := by
  rw [Component.lines]
  split
  · exact h
  · exact h.append_text (by decide)

/-- A component has the headings of its page. -/
theorem hasHeadings_wrap {isDemo : Text → Bool} {html : Text} {hs : List HeadingTag}
    (h : HasHeadings isDemo html hs) :
    HasHeadings isDemo (Component.wrap Component.defaultClass html) hs := by
  have hkey : Html.isAttributeName "class".toList = true := by decide
  have hname : isOrdinary "section".toList = true ∧ isOrdinary "template".toList = true := by
    decide
  have hlines := ((hasHeadings_lines h).append_text (t := "  ".toList) (by decide)).text_append
    (t := ['\n']) (by decide)
  have hsection := Html.hasHeadings_between hname.1 rfl
    (Html.isQuoted_attributeText hkey Component.defaultClass) hlines
  have hgaps := (hsection.append_text (t := ['\n']) (by decide)).text_append
    (t := "\n  ".toList) (by decide)
  have htemplate := (Html.hasHeadings_between hname.2 rfl Html.isQuoted_nil hgaps).append_text
    (t := ['\n']) (by decide)
  have hclass : Html.attributeText "class".toList Component.defaultClass =
      ' ' :: ("class".toList ++ '=' :: '"' :: (Component.defaultClass ++ ['"'])) := rfl
  rw [Component.wrap_eq, ← hclass]
  exact htemplate

/-- No raw HTML is written with the page, and the live markup of its demos closes what it opens. -/
def HasNoRawHtml (isDemo : Text → Bool) (e : Engine) (source : Text) : Prop :=
  let read := Block.readPage e.grammar (Source.readable (Source.clean source))
  Block.AllRawFree (Closes isDemo) ⟨e.grammar.dialect, read.2, Torn.replacement⟩ read.1

end Outline

namespace DemoSection

open Outline

variable (spelling : Slug.Transliteration)

theorem isTidy_default (w : Widget) (definitions : Definitions) :
    ((defaultEngine spelling).look w definitions).IsTidy where
  slashes := rfl
  symbol a ha := by
    obtain rfl := Option.some.inj ha
    change '<' ∉ "¶".toList
    decide
  table := by
    have hkey : Html.isAttributeName "class".toList = true := by decide
    exact ⟨_, _, Html.isQuoted_attributeText hkey "table".toList, rfl⟩
  wrappers := Or.inr rfl

/-- **Any page**, with the default configuration: it is made, whatever stands in for halves. -/
theorem exists_page (source : Text) :
    ∃ (w : Widget) (definitions : Definitions) (payloads : List Payload),
      (Block.demosOf ((defaultEngine spelling).blocks (Source.clean source)) ≠ [] →
        w = defaultWidget) ∧
      definitions = (Block.readPage (defaultEngine spelling).grammar
        (Source.readable (Source.clean source))).2 ∧
      ∀ standIn, Session.page spelling Config.default true source standIn =
        .ok ⟨Component.wrap Component.defaultClass (Html.page
          ((defaultEngine spelling).look w definitions standIn)
          ((defaultEngine spelling).blocks (Source.clean source))), payloads⟩ := by
  have hclass : Engine.need Config.default "component_class" =
      .ok (.text Component.defaultClass) := rfl
  let e := defaultEngine spelling
  let t := Source.clean source
  have hwidget : (defaultEngine spelling).widget.widget = .ok defaultWidget := rfl
  -- the widget is looked up in the configuration only if there is a demo
  by_cases hnone : Engine.allBodies ((defaultEngine spelling).blocks (Source.clean source)) = []
  · refine ⟨⟨[], [], []⟩, _, Engine.payloads (e.blocks t), fun hne => absurd ?_ hne, rfl,
      fun standIn => ?_⟩
    · rw [Engine.allBodies_eq] at hnone
      exact List.map_eq_nil_iff.1 hnone
    · rw [Engine.blocks] at hnone
      rw [Session.page, ofConfig_default]
      simp only [Except.bind, bind, Engine.render, if_pos hnone, hclass]
      rfl
  · refine ⟨defaultWidget, _, Engine.payloads (e.blocks t), fun _ => rfl, rfl, fun standIn => ?_⟩
    rw [Engine.blocks] at hnone
    rw [Session.page, ofConfig_default]
    simp only [Except.bind, bind, Engine.render, if_neg hnone, hwidget, hclass]
    rfl

end DemoSection

namespace Outline

open DemoSection

variable (spelling : Slug.Transliteration)

/-- A heading with the title A. -/
def titledA (below : Fin 6) : HeadingLine where
  level := below + 1
  words := [['A']]
  level_pos := by omega
  level_le := by omega
  words_ne_nil := List.cons_ne_nil _ _
  word_ne_nil := List.forall_mem_singleton.2 (List.cons_ne_nil _ _)
  plain := List.forall_mem_singleton.2 (List.forall_mem_singleton.2 (by decide))

/-- A page of headings has no raw HTML. -/
theorem hasNoRawHtml_page (ended : Bool) (hs : List HeadingLine) :
    HasNoRawHtml HeadingLine.isDemo (defaultEngine spelling) (HeadingLine.page ended hs) := by
  rw [HasNoRawHtml, HeadingLine.readPage_readable]
  refine Block.allRawFree_iff.2 fun b hb => ?_
  obtain ⟨h, -, rfl⟩ := List.mem_map.1 hb
  rw [HeadingLine.block, Block.IsRawFree, Block.IsRawFreeSource, HeadingLine.read_title]
  rfl

/-- The outline of a page of headings has the ids that were given out. -/
theorem exists_outline (ended : Bool) (hs : List HeadingLine) :
    ∃ made es, Session.page spelling Config.default true (HeadingLine.page ended hs) = .ok made ∧
      Outline.ofText spelling HeadingLine.isDemo made.html = .ok es ∧
      (Entry.preorders es).map (fun x => (x.level, x.id, x.title)) =
        (HeadingLine.named spelling [] hs).map fun r => (r.1.level, r.2, r.1.title) := by
  obtain ⟨es, hes, hpreorder⟩ := HeadingLine.exists_entries spelling hs
  exact ⟨_, es, HeadingLine.component_page spelling ended hs, hes, hpreorder⟩

end Outline

end Showcase

import Showcase.Proofs.Page.Elements
import Showcase.Proofs.Page.Widget

/-!
# The anchors of a page

Ids are handed from block to block, and every heading with an anchor takes one that is still free.
So on a whole page the ids are different from each other, however deep the headings stand in lists,
quotations and demos (`anchors_blocks`). Headings without anchors have no ids.

The blocks may be any that are free of raw HTML. Descriptions of demos are pages of their own, whose
headings have no anchors; they stand in the element of the demo, and are hidden with it
(`sparesDemos_look`).

Main statements: `anchors_blocks` and `sparesDemos_look`.
-/

namespace Showcase.Html

open Document Outline

variable {isDemo : Text → Bool}

/-! ## Anchored headings -/

/-- The headings from a level on have ids, which are different from each other, were not taken
before and are taken then. The other headings have none. -/
structure Anchored (least : Int) (taken taken' : List Text) (hs : List HeadingTag) : Prop where
  distinct : (hs.filterMap (·.2)).Nodup
  fresh : ∀ id ∈ hs.filterMap (·.2), id ∉ taken ∧ id ∈ taken'
  grows : taken ⊆ taken'
  given : ∀ h ∈ hs, ∀ l, level? h.1 = some l → (h.2 = none ↔ (l : Int) < least) ∧ h.2 ≠ some []

namespace Anchored

variable {least : Int} {taken taken' taken'' : List Text} {hs is : List HeadingTag}

theorem nil (least : Int) (taken : List Text) : Anchored least taken taken [] where
  distinct := List.nodup_nil
  fresh _ hid := absurd hid List.not_mem_nil
  grows := List.Subset.refl taken
  given _ hh := absurd hh List.not_mem_nil

/-- Anchors go on from those that are taken by then. -/
theorem append (h : Anchored least taken taken' hs) (h' : Anchored least taken' taken'' is) :
    Anchored least taken taken'' (hs ++ is) where
  distinct := by
    rw [List.filterMap_append, List.nodup_append]
    refine ⟨h.distinct, h'.distinct, fun a ha b hb e => ?_⟩
    exact (h'.fresh b hb).1 (e ▸ (h.fresh a ha).2)
  fresh id hid := by
    rw [List.filterMap_append] at hid
    rcases List.mem_append.1 hid with hid | hid
    · exact ⟨(h.fresh id hid).1, h'.grows (h.fresh id hid).2⟩
    · exact ⟨fun hmem => (h'.fresh id hid).1 (h.grows hmem), (h'.fresh id hid).2⟩
  grows := List.Subset.trans h.grows h'.grows
  given := List.forall_mem_append.2 ⟨h.given, h'.given⟩

/-- A heading without an anchor. -/
theorem bare {level : Nat} (h : (level : Int) < least) (taken : List Text) :
    Anchored least taken taken [(headingName level, none)] where
  distinct := List.nodup_nil
  fresh _ hid := absurd hid List.not_mem_nil
  grows := List.Subset.refl taken
  given := List.forall_mem_singleton.2 fun l hl => by
    rw [level?_headingName hl]
    exact ⟨iff_of_true rfl h, by simp⟩

/-- A heading with an anchor. -/
theorem named {level : Nat} (h : least ≤ level) {id : Text} (hid : id ≠ []) (hfree : id ∉ taken) :
    Anchored least taken (id :: taken) [(headingName level, some id)] where
  distinct := List.nodup_singleton id
  fresh := List.forall_mem_singleton.2 ⟨hfree, List.mem_cons_self⟩
  grows := List.subset_cons_self id taken
  given := List.forall_mem_singleton.2 fun l hl => by
    rw [level?_headingName hl]
    exact ⟨iff_of_false (by simp) (by omega), fun e => hid (Option.some.inj e)⟩

end Anchored

/-- The piece has headings that are anchored as the look says. -/
def Look.Anchors (isDemo : Text → Bool) (k : Look) (taken taken' : List Text) (html : Text) :
    Prop :=
  ∃ hs, HasHeadings isDemo html hs ∧
    ∀ a, k.anchors = some a → Anchored a.least taken taken' hs

namespace Look.Anchors

variable {k : Look} {taken taken' taken'' : List Text} {a b html : Text}

theorem of_nil (h : HasHeadings isDemo html []) (taken : List Text) :
    k.Anchors isDemo taken taken html := ⟨[], h, fun a _ => .nil a.least taken⟩

/-- HTML in a row has the anchors of each part, in this order. -/
theorem append (ha : k.Anchors isDemo taken taken' a) (hb : k.Anchors isDemo taken' taken'' b) :
    k.Anchors isDemo taken taken'' (a ++ b) := by
  obtain ⟨hs, hhs, hanchored⟩ := ha
  obtain ⟨is, his, hanchored'⟩ := hb
  exact ⟨hs ++ is, hhs.append his, fun a ha => (hanchored a ha).append (hanchored' a ha)⟩

/-- What is put around a piece without bringing in headings. -/
theorem map (h : k.Anchors isDemo taken taken' a)
    (hmap : ∀ hs, HasHeadings isDemo a hs → HasHeadings isDemo b hs) :
    k.Anchors isDemo taken taken' b := by
  obtain ⟨hs, hhs, hanchored⟩ := h
  exact ⟨hs, hmap hs hhs, hanchored⟩

end Look.Anchors

/-! ## Headings -/

/-- A permalink is an element with the class and the address of its own. -/
theorem permalink_eq (id symbol : Text) :
    permalink id symbol = element ['a'] (attributeText "class".toList "header-anchor".toList
      ++ attributeText "href".toList ('#' :: id)) symbol := by
  have hclass : attributeText "class".toList "header-anchor".toList =
      " class=\"header-anchor\"".toList := by decide
  have hhref : attributeText "href".toList ('#' :: id) =
      " href=\"#".toList ++ Text.escape id ++ ['"'] := rfl
  have hstart : "<a class=\"header-anchor\" href=\"#".toList = '<' :: 'a' ::
      (" class=\"header-anchor\"".toList ++ " href=\"#".toList) := rfl
  have hmiddle : "\">".toList = ['"', '>'] := rfl
  have hend : "</a>".toList = "</".toList ++ ['a', '>'] := rfl
  unfold permalink element
  rw [hclass, hhref, hstart, hmiddle, hend]
  simp only [List.cons_append, List.append_assoc, List.nil_append]

/-- A permalink brings in no heading, if its symbol has no bracket. -/
theorem hasHeadings_permalink (id : Text) {symbol : Text} (h : '<' ∉ symbol) :
    HasHeadings isDemo (permalink id symbol) [] := by
  have hkeys : isAttributeName "class".toList = true ∧ isAttributeName "href".toList = true := by
    decide
  have hname : isOrdinary ['a'] = true := by decide
  rw [permalink_eq]
  exact hasHeadings_between hname rfl ((isQuoted_attributeText hkeys.1 _).append
    (isQuoted_attributeText hkeys.2 _)) (.text h)

/-- Nor does it when it is added to the title, on either side. -/
theorem hasHeadings_add (p : Permalink) (hp : '<' ∉ p.symbol) (id : Text) {content : Text}
    (h : HasHeadings isDemo content []) : HasHeadings isDemo (p.add id content) [] := by
  have hspace {t : Text} (ht : HasHeadings isDemo t []) : HasHeadings isDemo (' ' :: t) [] :=
    ht.text_append (t := [' ']) (by decide)
  cases p with
  | none => exact h
  | before symbol => exact (hasHeadings_permalink id hp).append (hspace h)
  | after symbol => exact h.append (hspace (hasHeadings_permalink id hp))

/-- The element of a heading. -/
theorem hasHeadings_heading (level : Nat) {attributes content : Text} {as : List Quoted}
    (has : IsQuoted attributes as) (h : HasHeadings isDemo content []) :
    HasHeadings isDemo (line (headingName level) attributes content)
      [(headingName level, attribute? (lastAttributes (as.map Quoted.asRead)) "id")] := by
  have helement := hasHeadings_element (isOrdinary_headingName level) has h
  refine (helement.append_text (t := ['\n']) (by decide)).mono ?_
  rw [List.append_nil]
  exact Lists.own_sublist _ _

/-- **A heading** takes an id that was free, or has none. -/
theorem anchors_heading {k : Look} (hk : k.IsTidy) (level : Nat) {source : Text}
    (h : Block.IsRawFreeSource k.context source) (taken : List Text) :
    k.Anchors isDemo taken (heading k level source taken).2 (heading k level source taken).1 := by
  have hcontent : HasHeadings isDemo (k.inlines source) [] := hk.hasHeadings_source h
  have hbare := hasHeadings_heading level isQuoted_nil hcontent
  rw [heading]
  dsimp only
  split
  · next a ha =>
    split
    · next hle =>
      have hkey : isAttributeName "id".toList = true := by decide
      have hlower : Text.lower "id".toList = "id".toList := by decide
      -- of the id, only this matters: it is not empty, and not yet taken
      generalize hid : freeSlug (Slug.ofTitle a.spelling
        (Inline.plainTexts (Inline.read k.context source))) taken = id
      have hnamed := hasHeadings_heading level (isQuoted_attributeText hkey id)
        (hasHeadings_add a.permalink (hk.symbol a ha) id hcontent)
      rw [List.map_singleton, Quoted.asRead, hlower, Reference.expandAll_escape] at hnamed
      refine ⟨_, hnamed, fun b hb => ?_⟩
      rw [ha] at hb
      obtain rfl := Option.some.inj hb
      subst hid
      exact .named hle (freeSlug_ne_nil (Slug.ofTitle_ne_nil _ _) taken) (freeSlug_not_mem _ taken)
    -- the level is too high for an anchor
    · next hlt =>
      refine ⟨_, hbare, fun b hb => ?_⟩
      rw [ha] at hb
      obtain rfl := Option.some.inj hb
      exact .bare (Int.not_le.1 hlt) taken
  -- there are no anchors at all
  · next hnone =>
    refine ⟨_, hbare, fun b hb => ?_⟩
    rw [hnone] at hb
    cases hb

/-! ## Blocks -/

theorem isQuoted_startAttributes (n : Nat) : ∃ as, IsQuoted (startAttributes n) as := by
  have hkey : isAttributeName "start".toList = true := by decide
  rw [startAttributes]
  split
  · exact ⟨_, isQuoted_nil⟩
  · exact ⟨_, isQuoted_attributeText hkey _⟩

/-- A rule brings in no heading. -/
theorem hasHeadings_thematicBreak {d : Dialect} (hd : d.slashes = true) :
    HasHeadings isDemo ("<hr".toList ++ emptyEnd d ++ ['\n']) [] := by
  have hname : IsTagName "hr".toList :=
    isTagName_of_forall (c := 'h') (by decide) (Text.forall_mem_of_all (by decide))
  exact (hasHeadings_empty hd hname (by decide) isQuoted_nil).append_text (by decide)

theorem lt_not_mem_itemStart (tight : Bool) (i : List Block) : '<' ∉ itemStart tight i := by
  rw [itemStart.eq_def]
  split
  · exact List.not_mem_nil
  · split <;> decide

/-- An item of a list. -/
theorem hasHeadings_item {start content : Text} {hs : List HeadingTag} (hstart : '<' ∉ start)
    (h : HasHeadings isDemo content hs) :
    HasHeadings isDemo ("<li>".toList ++ start ++ content ++ "</li>\n".toList) hs := by
  have hname : isOrdinary "li".toList = true := by decide
  have hitem := (hasHeadings_between hname rfl isQuoted_nil
    (h.text_append hstart)).append_text (t := ['\n']) (by decide)
  have e : element "li".toList [] (start ++ content) ++ ['\n'] =
      "<li>".toList ++ start ++ content ++ "</li>\n".toList := by
    have hopen : "<li>".toList = '<' :: ("li".toList ++ ['>']) := rfl
    have hclose : "</li>\n".toList = "</".toList ++ "li".toList ++ ['>', '\n'] := rfl
    rw [element, hopen, hclose]
    simp only [List.cons_append, List.append_assoc, List.nil_append]
  rwa [e] at hitem

section

variable {k : Look}

/-- An element around blocks. -/
theorem anchors_around {name attributes content : Text} {as : List Quoted}
    (hname : isOrdinary name = true) (hlevel : level? name = none) (has : IsQuoted attributes as)
    {taken taken' : List Text} (h : k.Anchors isDemo taken taken' content) :
    k.Anchors isDemo taken taken' (around name attributes content) :=
  h.map fun _ hhs => hasHeadings_around hname hlevel has hhs

mutual

/-- **A block has the anchors of its headings**, and each of them is free by then. The induction
follows the blocks; the anchors that are taken go from one to the next. -/
theorem anchors_block (hk : k.IsTidy) (bare : Bool) : ∀ (b : Block) (taken : List Text),
    (b.demos ≠ [] → k.SparesDemos isDemo) → b.IsRawFree (Closes isDemo) k.context →
      k.Anchors isDemo taken (block k bare b taken).2 (block k bare b taken).1
  | .paragraph source, taken, _, h => by
    rw [block]
    split
    · exact .of_nil (hk.hasHeadings_source h) taken
    · exact .of_nil (hasHeadings_line (by decide) rfl isQuoted_nil
        (hk.hasHeadings_source h)) taken
  | .heading level source, taken, _, h => anchors_heading hk level h taken
  | .thematicBreak, taken, _, _ => .of_nil (hasHeadings_thematicBreak hk.slashes) taken
  | .code content, taken, _, _ => .of_nil (hasHeadings_listing isQuoted_nil content) taken
  | .fence info content, taken, _, _ => .of_nil (hk.hasHeadings_fence info content) taken
  -- raw HTML is excluded
  | .html _, _, _, h => h.elim
  | .quote content, taken, hdemos, h =>
    anchors_around (by decide) rfl isQuoted_nil
      (anchors_blocks hk false false content taken hdemos h)
  | .list start tight items, taken, hdemos, h => by
    have hitems := anchors_items hk tight items taken hdemos h
    cases start with
    | none => exact anchors_around (by decide) rfl isQuoted_nil hitems
    | some n =>
      obtain ⟨as, has⟩ := isQuoted_startAttributes n
      exact anchors_around (by decide) rfl has hitems
  | .table alignments header rows, taken, _, h =>
    .of_nil (hk.hasHeadings_table alignments h.1 h.2) taken
  | .demo info content, taken, hdemos, h => by
    have hspares := hdemos (List.cons_ne_nil _ _)
    have hcontent := anchors_blocks hk false false content taken (fun _ => hspares) h.2
    exact hcontent.map fun hs => hspares info (body content) _ hs h.1
  | .notice name content, taken, hdemos, h => by
    have hkey : isAttributeName "class".toList = true := by decide
    exact anchors_around (by decide) rfl (isQuoted_attributeText hkey name)
      (anchors_blocks hk false false content taken hdemos h)

/-- **Blocks** take ids that were free. -/
theorem anchors_blocks (hk : k.IsTidy) (bare afterBare : Bool) :
    ∀ (bs : List Block) (taken : List Text),
      (Block.demosOf bs ≠ [] → k.SparesDemos isDemo) →
      Block.AllRawFree (Closes isDemo) k.context bs →
        k.Anchors isDemo taken (blocks k bare afterBare bs taken).2
          (blocks k bare afterBare bs taken).1
  | [], taken, _, _ => .of_nil (.text List.not_mem_nil) taken
  | b :: bs, taken, hdemos, h => by
    have hfeed : '<' ∉ if (afterBare && breaksLine b) = true then ['\n'] else [] := by
      split <;> decide
    have hb := anchors_block hk bare b taken
      (fun hne => hdemos fun e => hne (List.append_eq_nil_iff.1 e).1) h.1
    have hbs := anchors_blocks hk bare (bare && isParagraph b) bs (block k bare b taken).2
      (fun hne => hdemos fun e => hne (List.append_eq_nil_iff.1 e).2) h.2
    exact (hb.map fun _ => .text_append hfeed).append hbs

/-- So have the items of a list. -/
theorem anchors_items (hk : k.IsTidy) (tight : Bool) :
    ∀ (is : List (List Block)) (taken : List Text),
      (Block.demosIn is ≠ [] → k.SparesDemos isDemo) →
      Block.ItemsRawFree (Closes isDemo) k.context is →
        k.Anchors isDemo taken (items k tight is taken).2 (items k tight is taken).1
  | [], taken, _, _ => .of_nil (.text List.not_mem_nil) taken
  | i :: is, taken, hdemos, h => by
    have hi := anchors_blocks hk tight false i taken
      (fun hne => hdemos fun e => hne (List.append_eq_nil_iff.1 e).1) h.1
    have his := anchors_items hk tight is (blocks k tight false i taken).2
      (fun hne => hdemos fun e => hne (List.append_eq_nil_iff.1 e).2) h.2
    rw [items_cons]
    exact (hi.map fun _ => hasHeadings_item (lt_not_mem_itemStart tight i)).append his

end

end

/-! ## Demos -/

/-- The page of a description is tidy, for it reads no raw HTML and has no permalinks. -/
theorem isTidy_description (definitions : Definitions) :
    (Description.look definitions).IsTidy where
  slashes := rfl
  symbol _ h := nomatch h
  table := ⟨[], [], isQuoted_nil, rfl⟩
  wrappers := Or.inl rfl

/-- Descriptions have no demos to write. -/
theorem sparesDemos_description (definitions : Definitions) :
    (Description.look definitions).SparesDemos isDemo := by
  intro info source html hs _ h
  have e : (Description.look definitions).demoStart info source ++ html ++
      (Description.look definitions).demoEnd = html := List.append_nil html
  rwa [e]

/-- **A description** closes what it opens. -/
theorem closes_description (description : Text) :
    Closes isDemo (Description.html description) := by
  have hraw (definitions : Definitions) :
      Block.HasNoRaw Description.grammar (Description.look definitions).context := ⟨rfl, rfl, rfl⟩
  have hspares (definitions : Definitions) :
      (Description.look definitions).SparesDemos isDemo := sparesDemos_description definitions
  obtain ⟨hs, hhs, -⟩ := anchors_blocks (isTidy_description _) false false _ []
    (fun _ => hspares _)
    (Block.allRawFree_readPage (hraw _) (Source.readable description))
  exact ⟨hs, hhs⟩

/-- The attributes of the element for a slot. -/
def slotAttributes (slot : Text) : Text :=
  attributeText "class".toList slot ++ attributeText "slot".toList slot

/-- A slot brings in the headings of its content. -/
theorem hasHeadings_slot (slot : Text) {content : Text} {hs : List HeadingTag}
    (h : HasHeadings isDemo content hs) :
    HasHeadings isDemo (element "div".toList (slotAttributes slot) content) hs := by
  have hkeys : isAttributeName "class".toList = true ∧ isAttributeName "slot".toList = true := by
    decide
  exact hasHeadings_between (by decide) rfl ((isQuoted_attributeText hkeys.1 _).append
    (isQuoted_attributeText hkeys.2 _)) h

/-- What stands in the widget of a demo, slot by slot. -/
theorem inside_eq (p : Payload) (description content : Text) :
    Widget.inside p description content =
      ['\n'] ++ element "div".toList (slotAttributes "source".toList) p.html ++ ['\n']
        ++ (if description = [] then [] else Description.html description)
        ++ element "div".toList (slotAttributes "highlight".toList) content := by
  have hsource : "\n<div class=\"source\" slot=\"source\">".toList =
      '\n' :: '<' :: ("div".toList ++ (slotAttributes "source".toList ++ ['>'])) := rfl
  have hmiddle : "</div>\n".toList = "</".toList ++ "div".toList ++ ['>', '\n'] := rfl
  have hhighlight : "<div class=\"highlight\" slot=\"highlight\">".toList =
      '<' :: ("div".toList ++ (slotAttributes "highlight".toList ++ ['>'])) := rfl
  have hend : "</div>".toList = "</".toList ++ "div".toList ++ ['>'] := rfl
  unfold Widget.inside element
  rw [hsource, hmiddle, hhighlight, hend]
  simp only [List.cons_append, List.append_assoc, List.nil_append]

/-- What stands in the element of a demo closes what it opens, if its parts do. -/
theorem closes_inside {p : Payload} {description content : Text} (hlive : Closes isDemo p.html)
    (hcontent : Closes isDemo content) : Closes isDemo (Widget.inside p description content) := by
  obtain ⟨ls, hls⟩ := hlive
  obtain ⟨cs, hcs⟩ := hcontent
  have hdescription : Closes isDemo
      (if description = [] then [] else Description.html description) := by
    split
    · exact ⟨[], .text List.not_mem_nil⟩
    · exact closes_description description
  obtain ⟨ds, hds⟩ := hdescription
  have hsource := (HasHeadings.text_append (t := ['\n']) (by decide)
    (hasHeadings_slot "source".toList hls)).append_text (t := ['\n']) (by decide)
  rw [inside_eq]
  exact ⟨_, (hsource.append hds).append (hasHeadings_slot "highlight".toList hcs)⟩

/-- **The element of a demo** hides what stands in it: the live markup, the description, and what
the page has there. -/
theorem sparesDemos_look {e : Engine} {w : Widget} (hw : w.IsPlain)
    (hlevel : level? (Text.lower w.element) = none) (hdemo : isDemo (Text.lower w.element) = true)
    (definitions : Definitions) : (e.look w definitions).SparesDemos isDemo := by
  intro info source html hs hlive hhtml
  have hmarkup : (e.look w definitions).demoStart info source ++ html ++
      (e.look w definitions).demoEnd =
        w.markup (Payload.ofBody source) (Marker.description info) html := rfl
  obtain ⟨is, his⟩ :
      Closes isDemo (Widget.inside (Payload.ofBody source) (Marker.description info) html) :=
    closes_inside hlive ⟨hs, hhtml⟩
  have h := (HasHeadings.demo (Widget.isRead_startTag hw (Payload.ofBody source))
    (IsRead.closing hw.element) hw.void hlevel hdemo his).append_text (t := ['\n']) (by decide)
  rw [hmarkup, Widget.markup_eq]
  refine HasHeadings.mono ?_ (List.nil_sublist hs)
  simpa only [Widget.startTag, List.cons_append, List.append_assoc, List.nil_append] using h

end Showcase.Html

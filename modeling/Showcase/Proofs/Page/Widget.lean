import Showcase.Proofs.Page.Complete
import Showcase.Proofs.Page.Listing
import Showcase.Proofs.Text.Escape

/-!
# Widget elements on pages

Wherever a demo stands on a page, be it in a list, a quotation or another demo, its widget element
is written in one piece: the opening half, the HTML of what stands between the markers, and the
closing half (`exists_demo_of_page`).

The start tag of the element is read with the name in lower case (`Widget.isRead_startTag`). This
takes names that can stand in tags, and a class that does not end early (`Widget.IsPlain`).
-/

namespace Showcase

open Document

/-- A demo as HTML. -/
def Widget.markup (w : Widget) (p : Payload) (description content : Text) : Text :=
  w.opening p description ++ content ++ Widget.closing w.element

/-! ## The demos of a page -/

namespace Block

mutual

/-- The demos in a block, each as its marker and its content. -/
def demos : Block → List (Text × List Block)
  | .quote content => demosOf content
  | .list _ _ items => demosIn items
  | .demo info content => (info, content) :: demosOf content
  | .notice _ content => demosOf content
  | _ => []

/-- The demos in several blocks. -/
def demosOf : List Block → List (Text × List Block)
  | [] => []
  | b :: bs => demos b ++ demosOf bs

/-- The demos in the items of a list. -/
def demosIn : List (List Block) → List (Text × List Block)
  | [] => []
  | i :: is => demosOf i ++ demosIn is

end

end Block

namespace Html

open Block

variable {k : Look} {d : Text × List Block}

/-- The demo stands in the HTML. -/
def HasDemo (k : Look) (d : Text × List Block) (html : Text) : Prop :=
  ∃ before content after,
    html = before ++ (k.demoStart d.1 (body d.2) ++ content ++ k.demoEnd) ++ after

/-- A demo is on a page wherever on the page it stands. -/
theorem HasDemo.within {html : Text} (h : HasDemo k d html) (before after : Text) :
    HasDemo k d (before ++ html ++ after) := by
  obtain ⟨a, content, b, rfl⟩ := h
  exact ⟨before ++ a, content, b ++ after, by simp only [List.append_assoc]⟩

/-- A demo is on a page also inside of another element. -/
theorem HasDemo.around {html : Text} (h : HasDemo k d html) (name attributes : Text) :
    HasDemo k d (around name attributes html) := by
  have := h.within ('<' :: (name ++ attributes ++ if html = [] then ['>'] else ['>', '\n']))
    ("</".toList ++ name ++ ['>', '\n'])
  rw [Html.around]
  simpa only [List.append_assoc, List.cons_append] using this

/-- What stands before the first block of an item. -/
def itemStart (tight : Bool) (i : List Block) : Text :=
  match i with
  | [] => []
  | b :: _ => if tight && isParagraph b then [] else ['\n']

theorem items_cons (k : Look) (tight : Bool) (i : List Block) (is : List (List Block))
    (taken : List Text) :
    items k tight (i :: is) taken =
      ("<li>".toList ++ itemStart tight i ++ (blocks k tight false i taken).1 ++ "</li>\n".toList
        ++ (items k tight is (blocks k tight false i taken).2).1,
        (items k tight is (blocks k tight false i taken).2).2) := by
  cases i with
  | nil => rfl
  | cons b bs => rfl

mutual

/-- **A demo is written in one piece**, whatever it stands in. -/
theorem hasDemo_block (k : Look) (bare : Bool) :
    ∀ (b : Block) (taken : List Text), d ∈ b.demos → HasDemo k d (block k bare b taken).1
  | .quote content, taken, h => (hasDemo_blocks k false false content taken h).around _ _
  | .list start tight items, taken, h => by
    have hitems := hasDemo_items k tight items taken h
    cases start with
    | none => exact hitems.around _ _
    | some n => exact hitems.around _ _
  | .demo info content, taken, h => by
    rcases List.mem_cons.1 h with rfl | h
    · exact ⟨[], (blocks k false false content taken).1, [], (List.append_nil _).symm⟩
    · exact (hasDemo_blocks k false false content taken h).within _ _
  | .notice name content, taken, h => (hasDemo_blocks k false false content taken h).around _ _
  -- the other blocks have no blocks in them
  | .paragraph _, _, h => absurd h List.not_mem_nil
  | .heading _ _, _, h => absurd h List.not_mem_nil
  | .thematicBreak, _, h => absurd h List.not_mem_nil
  | .code _, _, h => absurd h List.not_mem_nil
  | .fence _ _, _, h => absurd h List.not_mem_nil
  | .html _, _, h => absurd h List.not_mem_nil
  | .table _ _ _, _, h => absurd h List.not_mem_nil

/-- **Every demo among blocks is on their page.** -/
theorem hasDemo_blocks (k : Look) (bare afterBare : Bool) :
    ∀ (bs : List Block) (taken : List Text), d ∈ demosOf bs →
      HasDemo k d (blocks k bare afterBare bs taken).1
  | [], _, h => absurd h List.not_mem_nil
  | b :: bs, taken, h => by
    rcases List.mem_append.1 h with h | h
    · exact (hasDemo_block k bare b taken h).within _ _
    · have hrest := hasDemo_blocks k bare (bare && isParagraph b) bs (block k bare b taken).2 h
      have := hrest.within ((if afterBare && breaksLine b then ['\n'] else []) ++
        (block k bare b taken).1) []
      rwa [List.append_nil] at this

/-- Every demo in the items of a list is on their page. -/
theorem hasDemo_items (k : Look) (tight : Bool) :
    ∀ (is : List (List Block)) (taken : List Text), d ∈ demosIn is →
      HasDemo k d (items k tight is taken).1
  | [], _, h => absurd h List.not_mem_nil
  | i :: is, taken, h => by
    rcases List.mem_append.1 h with h | h
    · have := (hasDemo_blocks k tight false i taken h).within
        ("<li>".toList ++ itemStart tight i)
        ("</li>\n".toList ++ (items k tight is (blocks k tight false i taken).2).1)
      rw [items_cons]
      simpa only [List.append_assoc] using this
    · have hrest := hasDemo_items k tight is (blocks k tight false i taken).2 h
      have := hrest.within ("<li>".toList ++ itemStart tight i ++
        (blocks k tight false i taken).1 ++ "</li>\n".toList) []
      rw [items_cons]
      rwa [List.append_nil] at this

end

end Html

namespace Engine

mutual

/-- The sources of demos are those of their content. -/
theorem bodies_eq : ∀ b : Block, bodies b = b.demos.map fun d => Html.body d.2
  | .quote content => allBodies_eq content
  | .list _ _ items => itemBodies_eq items
  | .demo info content => by
    rw [bodies, allBodies_eq content, Block.demos, List.map_cons]
  | .notice _ content => allBodies_eq content
  | .paragraph _ => rfl
  | .heading _ _ => rfl
  | .thematicBreak => rfl
  | .code _ => rfl
  | .fence _ _ => rfl
  | .html _ => rfl
  | .table _ _ _ => rfl

/-- The sources on a page are those of its demos. -/
theorem allBodies_eq : ∀ bs : List Block,
    allBodies bs = (Block.demosOf bs).map fun d => Html.body d.2
  | [] => rfl
  | b :: bs => by rw [allBodies, bodies_eq b, allBodies_eq bs, Block.demosOf, List.map_append]

theorem itemBodies_eq : ∀ is : List (List Block),
    itemBodies is = (Block.demosIn is).map fun d => Html.body d.2
  | [] => rfl
  | i :: is => by rw [itemBodies, allBodies_eq i, itemBodies_eq is, Block.demosIn, List.map_append]

end

/-- The blocks that the engine reads on a page. -/
def blocks (e : Engine) (source : Text) : List Block :=
  (Block.readPage e.grammar (Source.readable source)).1

/-- A page with a demo on it is written with the widget element. -/
theorem exists_html_of_render {e : Engine} {w : Widget} (hwidget : e.widget.widget = .ok w)
    {known : Definitions} {source : Text} {made : Rendered}
    (hrender : e.render known source = .ok made) (hdemos : allBodies (e.blocks source) ≠ []) :
    ∃ definitions, made.html = Html.page (e.look w definitions) (e.blocks source) := by
  rw [blocks] at hdemos
  rw [render] at hrender
  simp only [if_neg hdemos, hwidget, bind, Except.bind, pure, Except.pure, Except.ok.injEq]
    at hrender
  exact ⟨_, congrArg Rendered.html hrender.symm⟩

end Engine

theorem exists_lines (html : Text) : ∃ after, Component.lines html = html ++ after := by
  rw [Component.lines]
  split
  · exact ⟨[], (List.append_nil html).symm⟩
  · exact ⟨['\n'], rfl⟩

/-- A page is in its component as it is. -/
theorem exists_wrap (sectionClass html : Text) :
    ∃ before after, Component.wrap sectionClass html = before ++ html ++ after := by
  obtain ⟨after, hafter⟩ := exists_lines html
  have hwrap : Component.wrap sectionClass html = "<template>\n  <section class=\"".toList
      ++ sectionClass ++ "\">\n".toList ++ Component.lines html
      ++ "  </section>\n</template>\n".toList := rfl
  rw [hwrap, hafter, ← List.append_assoc, List.append_assoc _ after]
  exact ⟨_, _, rfl⟩

/-- A page is made from what its engine renders, as it is or wrapped into a component. -/
theorem exists_rendered {spelling : Slug.Transliteration} {c : Config} {e : Engine}
    (hengine : Engine.ofConfig spelling c = .ok e) {asComponent : Bool} {source : Text}
    {made : Session.Page} (hpage : Session.page spelling c asComponent source = .ok made) :
    ∃ rendered before after, e.render [] (Source.clean source) = .ok rendered ∧
      made.html = before ++ rendered.html ++ after := by
  obtain ⟨e', he', hpage⟩ := exists_of_bind_eq_ok hpage
  obtain rfl := Except.ok.inj (hengine.symm.trans he')
  obtain ⟨rendered, hrender, hpage⟩ := exists_of_bind_eq_ok hpage
  obtain ⟨sectionClass, -, hpage⟩ := exists_of_bind_eq_ok hpage
  obtain rfl := Except.ok.inj hpage
  cases asComponent with
  | false => exact ⟨rendered, [], [], hrender, (List.append_nil _).symm⟩
  | true =>
    obtain ⟨before, after, hwrap⟩ := exists_wrap sectionClass.display rendered.html
    exact ⟨rendered, before, after, hrender, hwrap⟩

/-- **A demo on a page**, whatever page and configuration: its widget element is there. -/
theorem exists_demo_of_page {spelling : Slug.Transliteration} {c : Config} {e : Engine} {w : Widget}
    (hengine : Engine.ofConfig spelling c = .ok e) (hwidget : e.widget.widget = .ok w)
    {asComponent : Bool} {source : Text} {made : Session.Page}
    (hpage : Session.page spelling c asComponent source = .ok made) {d : Text × List Block}
    (hd : d ∈ Block.demosOf (e.blocks (Source.clean source))) :
    ∃ before content after, made.html = before ++
      w.markup (Payload.ofBody (Html.body d.2)) (Marker.description d.1) content ++ after := by
  have hbodies : Engine.allBodies (e.blocks (Source.clean source)) ≠ [] := by
    rw [Engine.allBodies_eq]
    exact fun h => List.not_mem_nil (List.map_eq_nil_iff.1 h ▸ hd)
  obtain ⟨rendered, before, after, hrender, hmade⟩ := exists_rendered hengine hpage
  obtain ⟨definitions, hhtml⟩ := Engine.exists_html_of_render hwidget hrender hbodies
  rw [hmade, hhtml]
  exact (Html.hasDemo_blocks (e.look w definitions) false false _ [] hd).within before after

/-! ## Start tags -/

namespace Widget

/-- The names and the class can stand in the start tag of the element, and the element is one that
has something in it. -/
structure IsPlain (w : Widget) : Prop where
  element : IsTagName w.element
  void : isVoid (Text.lower w.element) = false
  verbatim : isVerbatim (Text.lower w.element) = false
  boxClass : '"' ∉ w.boxClass
  property : ∀ c ∈ w.property, Tag.isAttributeChar c = true

/-- The attributes in the start tag. -/
def quoted (w : Widget) (p : Payload) : List Quoted :=
  [⟨"class".toList, '"', w.boxClass⟩, ⟨':' :: w.property, '"', p.attributeText⟩]

/-- The start tag of the element. -/
def startTag (w : Widget) (p : Payload) : Text :=
  '<' :: (w.element ++ ((w.quoted p).flatMap Quoted.text ++ spacedEnd false false []))

/-- The start tag as it is read. -/
def token (w : Widget) (p : Payload) : Token :=
  .opening (Text.lower w.element) ((w.quoted p).map Quoted.asRead) false

/-- What stands between the tags of the element. -/
def inside (p : Payload) (description content : Text) : Text :=
  "\n<div class=\"source\" slot=\"source\">".toList ++ p.html ++ "</div>\n".toList
    ++ (if description = [] then [] else Description.html description)
    ++ "<div class=\"highlight\" slot=\"highlight\">".toList ++ content ++ "</div>".toList

/-- The markup of a demo, with its start tag and its end tag in view. -/
theorem markup_eq (w : Widget) (p : Payload) (description content : Text) :
    w.markup p description content =
      w.startTag p ++ inside p description content ++ '<' :: '/' :: (w.element ++ ['>', '\n']) := by
  have hclass : " class=\"".toList = ' ' :: ("class".toList ++ ['=', '"']) := rfl
  have hmiddle : "\" :".toList = ['"', ' ', ':'] := rfl
  have hvalue : "=\"".toList = ['=', '"'] := rfl
  have hend : "\">\n".toList = ['"', '>', '\n'] := rfl
  have hsource : "\n<div class=\"source\" slot=\"source\">".toList =
      '\n' :: "<div class=\"source\" slot=\"source\">".toList := rfl
  have hclosing : "</div></".toList = "</div>".toList ++ ['<', '/'] := rfl
  unfold markup opening closing startTag inside
  simp only [hclass, hmiddle, hvalue, hend, hsource, hclosing, quoted, List.flatMap_cons,
    List.flatMap_nil, Quoted.text, spacedEnd, tagEnd, if_neg Bool.false_ne_true, List.cons_append,
    List.append_assoc, List.nil_append]

/-- **The start tag** is read with the name of the element in lower case. -/
theorem isRead_startTag {w : Widget} (hw : w.IsPlain) (p : Payload) :
    IsRead (w.startTag p) [w.token p] := by
  refine IsRead.opening hw.element ?_ false false (Or.inr hw.verbatim)
  refine List.forall_mem_cons.2 ⟨⟨?_, rfl, hw.boxClass⟩, List.forall_mem_singleton.2 ⟨?_, rfl, ?_⟩⟩
  · exact ⟨'c', "lass".toList, rfl, by decide, Text.forall_mem_of_all (by decide)⟩
  · exact ⟨':', w.property, rfl, by decide, hw.property⟩
  · exact fun h => ((Text.isEscaped_escapeQuotes p.json).plain '"' h).2.2.1 rfl

/-- The attributes of the element for a slot. -/
def slotAttributes (slot : Text) : List Quoted :=
  [⟨"class".toList, '"', slot⟩, ⟨"slot".toList, '"', slot⟩]

/-- The tokens of the element for a slot. -/
def slotTokens (slot : Text) (ts : List Token) : List Token :=
  .opening "div".toList ((slotAttributes slot).map Quoted.asRead) false ::
    (ts ++ [.closing "div".toList])

/-- The tokens between the tags of the element. -/
def insideTokens (source description content : List Token) : List Token :=
  letterTokens ['\n'] ++ (slotTokens "source".toList source ++ (letterTokens ['\n'] ++
    (description ++ slotTokens "highlight".toList content)))

/-- A slot is read as its tags around what its content is read as. -/
theorem isRead_slot {slot html : Text} (hslot : '"' ∉ slot) {ts : List Token} (h : IsRead html ts) :
    IsRead ('<' :: ("div".toList ++ ((slotAttributes slot).flatMap Quoted.text ++
      '>' :: (html ++ '<' :: '/' :: ("div".toList ++ ['>']))))) (slotTokens slot ts) := by
  have hclosed : ∀ q ∈ slotAttributes slot, q.IsClosed := by
    refine List.forall_mem_cons.2 ⟨⟨?_, rfl, hslot⟩, List.forall_mem_singleton.2 ⟨?_, rfl, hslot⟩⟩
    · exact ⟨'c', "lass".toList, rfl, by decide, Text.forall_mem_of_all (by decide)⟩
    · exact ⟨'s', "lot".toList, rfl, by decide, Text.forall_mem_of_all (by decide)⟩
  exact IsRead.element (by decide) hclosed h

/-- **What stands between the tags** is read if its three parts are. -/
theorem isRead_inside {p : Payload} {description content : Text} {ss ds cs : List Token}
    (hsource : IsRead p.html ss)
    (hdescription : IsRead (if description = [] then [] else Description.html description) ds)
    (hcontent : IsRead content cs) :
    IsRead (inside p description content) (insideTokens ss ds cs) := by
  have hfeed : IsRead ['\n'] (letterTokens ['\n']) := IsRead.plain (by decide)
  have h := hfeed.append ((@isRead_slot "source".toList _ (by decide) _ hsource).append
    (hfeed.append (hdescription.append
      (@isRead_slot "highlight".toList _ (by decide) _ hcontent))))
  have hstart : "\n<div class=\"source\" slot=\"source\">".toList = '\n' :: '<' ::
      ("div".toList ++ ((slotAttributes "source".toList).flatMap Quoted.text ++ ['>'])) := rfl
  have hmiddle : "</div>\n".toList = '<' :: '/' :: ("div".toList ++ ['>', '\n']) := rfl
  have hlast : "<div class=\"highlight\" slot=\"highlight\">".toList = '<' ::
      ("div".toList ++ ((slotAttributes "highlight".toList).flatMap Quoted.text ++ ['>'])) := rfl
  have hend : "</div>".toList = '<' :: '/' :: ("div".toList ++ ['>']) := rfl
  unfold inside insideTokens
  rw [hstart, hmiddle, hlast, hend]
  simpa only [List.cons_append, List.append_assoc, List.nil_append] using h

/-- The tokens of a demo, given those of the three parts between the tags. -/
def markupTokens (w : Widget) (p : Payload) (source description content : List Token) :
    List Token :=
  w.token p :: (insideTokens source description content ++
    (.closing (Text.lower w.element) :: letterTokens ['\n']))

/-- **A demo** is read if what stands between the tags is. -/
theorem isRead_markup {w : Widget} (hw : w.IsPlain) {p : Payload} {description content : Text}
    {ss ds cs : List Token} (hsource : IsRead p.html ss)
    (hdescription : IsRead (if description = [] then [] else Description.html description) ds)
    (hcontent : IsRead content cs) :
    IsRead (w.markup p description content) (w.markupTokens p ss ds cs) := by
  have hfeed : IsRead ['\n'] (letterTokens ['\n']) := IsRead.plain (by decide)
  have h := (isRead_startTag hw p).append ((isRead_inside hsource hdescription hcontent).append
    ((IsRead.closing hw.element).append hfeed))
  rw [markup_eq, markupTokens]
  simpa only [List.append_assoc, List.cons_append, List.nil_append] using h

end Widget

namespace Component

theorem lines_concat (t : Text) : lines (t ++ ['\n']) = t ++ ['\n'] := by
  refine if_pos (Or.inr ?_)
  rw [Text.endsWith, Text.startsWith_iff, List.reverse_append]
  exact ⟨_, rfl⟩

/-- A demo stands on whole lines. -/
theorem lines_markup (w : Widget) (p : Payload) (description content : Text) :
    lines (w.markup p description content) = w.markup p description content := by
  have h : w.markup p description content =
      w.startTag p ++ Widget.inside p description content ++ '<' :: '/' :: (w.element ++ ['>'])
        ++ ['\n'] := by
    rw [Widget.markup_eq]
    simp only [List.append_assoc, List.cons_append, List.nil_append]
  rw [h, lines_concat]

/-- The tokens of a component, given those of its lines. -/
def tokens (sectionClass : Text) (ts : List Token) : List Token :=
  .opening "template".toList [] false :: (letterTokens "\n  ".toList ++
    (.opening "section".toList [("class".toList, Reference.expandAll sectionClass)] false ::
      (letterTokens ['\n'] ++ (ts ++ (letterTokens "  ".toList ++ [.closing "section".toList]))) ++
    (letterTokens ['\n'] ++ [.closing "template".toList]))) ++ letterTokens ['\n']

/-- **A component** is read if its page is. -/
theorem isRead_wrap {sectionClass html : Text} (hclass : '"' ∉ sectionClass) {ts : List Token}
    (h : IsRead (lines html) ts) : IsRead (wrap sectionClass html) (tokens sectionClass ts) := by
  have hnone : ∀ q ∈ ([] : List Quoted), q.IsClosed := fun _ h => absurd h List.not_mem_nil
  have hclosed : ∀ q ∈ ([⟨"class".toList, '"', sectionClass⟩] : List Quoted), q.IsClosed :=
    List.forall_mem_singleton.2
      ⟨⟨'c', "lass".toList, rfl, by decide, Text.forall_mem_of_all (by decide)⟩, rfl, hclass⟩
  have hkey : Text.lower "class".toList = "class".toList := by decide
  have hfeed : IsRead ['\n'] (letterTokens ['\n']) := IsRead.plain (by decide)
  have hspaces : IsRead "  ".toList (letterTokens "  ".toList) := IsRead.plain (by decide)
  have hgap : IsRead "\n  ".toList (letterTokens "\n  ".toList) := IsRead.plain (by decide)
  have hordinary : isOrdinary "section".toList = true ∧ isOrdinary "template".toList = true := by
    decide
  have hsection := IsRead.element hordinary.1 hclosed (hfeed.append (h.append hspaces))
  have hread := (IsRead.element hordinary.2 hnone
    (hgap.append (hsection.append hfeed))).append hfeed
  have hclosing : "</".toList = ['<', '/'] := rfl
  rw [wrap_eq, tokens]
  simpa only [Html.element, hclosing, Quoted.text, Quoted.asRead, List.flatMap_cons,
    List.flatMap_nil, List.map_nil, List.map_cons, List.cons_append, List.append_assoc,
    List.nil_append, List.append_nil, hkey] using hread

end Component

end Showcase

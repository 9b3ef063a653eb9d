import Showcase.Proofs.Document.Ordinary
import Showcase.Proofs.Document.Trimming
import Showcase.Proofs.Outline.Nesting
import Showcase.Proofs.Page.HeadingPage

/-!
# Outlines of pages of headings

The component that a page of headings becomes is read again as a tree (`document`), and the headings
in this tree are those of the page: the same levels, the same titles, and the ids that were given
out when the page was made. Two ways lead to an id: it is read off the element, or it is made from
the title that is read; the permalink in front of the title must not be part of that.

Main statement: `outline_page`.
-/

namespace Showcase

open Document

namespace Outline

/-- Headings do not change when the texts around them are joined. -/
theorem headingsOf_settledAfter (spelling : Slug.Transliteration) (isDemo : Text → Bool)
    (holder : Option Text) (keeps : Bool) (run : Text) (ns : List Node) :
    headingsOf spelling isDemo (Node.settledAfter holder keeps run ns) =
      ns.flatMap fun n => headings spelling isDemo (n.settled holder keeps) := by
  -- the text that was gathered holds no heading
  have hrun (t : Text) (more : List Node) :
      headingsOf spelling isDemo (textNode holder keeps t ++ more) =
        headingsOf spelling isDemo more := by
    rw [textNode]
    split <;> rfl
  induction ns generalizing run with
  | nil =>
    have := hrun run []
    rwa [List.append_nil] at this
  | cons n ns ih =>
    cases n with
    | text h data =>
      rw [Node.settledAfter, ih]
      rfl
    | note kind data =>
      rw [Node.settledAfter, hrun, headingsOf, ih, List.flatMap_cons]
      exact fun _ _ e => Node.noConfusion e
    | element name attributes children =>
      rw [Node.settledAfter, hrun, headingsOf, ih, List.flatMap_cons]
      exact fun _ _ e => Node.noConfusion e

/-- An element without a level is no heading. -/
theorem heading?_eq_none {spelling : Slug.Transliteration} {name : Text} (h : level? name = none)
    (attributes : List Attribute) (children : List Node) :
    heading? spelling name attributes children = none := by
  simp only [heading?, h]

/-- An element that is neither heading nor demo has the headings that are in it. -/
theorem headings_settled {spelling : Slug.Transliteration} {isDemo : Text → Bool} {name : Text}
    (h : level? name = none ∧ isDemo name = false ∧ keepsSpace name = false)
    (holder : Option Text) (attributes : List Attribute) (children : List Node) :
    headings spelling isDemo ((Node.element name attributes children).settled holder false) =
      children.flatMap fun n => headings spelling isDemo
        (n.settled (if isHolder name then some name else holder) false) := by
  rw [Node.settled, headings, heading?_eq_none h.1, h.2.1, h.2.2, if_neg Bool.false_ne_true,
    headingsOf_settledAfter]
  rfl

/-- A heading with a title has the id that it carries, or else the slug of the title. -/
theorem exists_heading? {spelling : Slug.Transliteration} {name : Text} {level : Nat}
    (h : level? name = some level) {attributes : List Attribute} {children : List Node}
    (htitle : title children ≠ []) :
    ∃ x, heading? spelling name attributes children = some x ∧ x.level = level ∧
      x.title = title children ∧
      (attribute? attributes "id" = none → x.id = Slug.ofTitle spelling (title children)) ∧
      ∀ id, attribute? attributes "id" = some id → id ≠ [] → x.id = id := by
  rw [heading?]
  split
  · next hnone =>
    rw [h] at hnone
    cases hnone
  · next l hl =>
    obtain rfl := Option.some.inj (h.symm.trans hl)
    split
    · next hnil => exact absurd hnil htitle
    · refine ⟨_, rfl, rfl, rfl, fun e => by simp only [e], fun id e hid => ?_⟩
      obtain ⟨c, t, rfl⟩ := List.exists_cons_of_ne_nil hid
      simp only [e]

end Outline

namespace HeadingLine

/-! ## The tree -/

/-- The permalink to an id. -/
def permalink (id : Text) : Node :=
  .element ['a'] [("class".toList, "header-anchor".toList), ("href".toList, '#' :: id)]
    [.text none ['¶']]

/-- The attributes of a heading with its id. -/
def attributes (r : HeadingLine × Text) : List Attribute :=
  if r.1.level = 1 then [] else [("id".toList, r.2)]

/-- What a heading has in it. -/
def children (r : HeadingLine × Text) : List Node :=
  if r.1.level = 1 then [.text none r.1.title]
  else [permalink r.2, .text none (' ' :: r.1.title)]

/-- A heading with its id as an element. -/
def element (r : HeadingLine × Text) : Node :=
  .element (Html.headingName r.1.level) (attributes r) (children r)

/-- Headings on lines of their own. -/
def elements (rs : List (HeadingLine × Text)) : List Node :=
  rs.flatMap fun r => [element r, .text none ['\n']]

/-- The component as a tree. -/
def document (rs : List (HeadingLine × Text)) : List Node :=
  [.element "template".toList [] [.text none "\n  ".toList,
      .element "section".toList [("class".toList, "content".toList)]
        (.text none ['\n'] :: (elements rs ++ [.text none "  ".toList])),
      .text none ['\n']],
    .text none ['\n']]

/-! ## Names -/

/-- The names of demos with the default configuration. -/
def isDemo : Text → Bool := Outline.isNamedBy (.text "demo-block".toList)

/-- What the names of headings are like. -/
structure IsHeadingName (level : Nat) (name : Text) : Prop where
  ordinary : isOrdinary name = true
  level : Outline.level? name = some level
  holder : isHolder name = false
  keeps : keepsSpace name = false
  key : isWordList name "id".toList = false
  notMeta : name ≠ "meta".toList
  demo : isDemo name = false

/-- What an outline needs to know of the name of a heading. -/
theorem isHeadingName_iff {level : Nat} {name : Text} :
    IsHeadingName level name ↔ isOrdinary name = true ∧ Outline.level? name = some level ∧
      isHolder name = false ∧ keepsSpace name = false ∧ isWordList name "id".toList = false ∧
      name ≠ "meta".toList ∧ isDemo name = false :=
  ⟨fun ⟨h₁, h₂, h₃, h₄, h₅, h₆, h₇⟩ => ⟨h₁, h₂, h₃, h₄, h₅, h₆, h₇⟩,
    fun ⟨h₁, h₂, h₃, h₄, h₅, h₆, h₇⟩ => ⟨h₁, h₂, h₃, h₄, h₅, h₆, h₇⟩⟩

/-- The six names of headings are such names. -/
theorem isHeadingName (h : HeadingLine) : IsHeadingName h.level (Html.headingName h.level) := by
  have hall : ∀ n ∈ List.range 6, IsHeadingName (n + 1) (Html.headingName (n + 1)) := by
    simp only [isHeadingName_iff]
    decide
  have hpos := h.level_pos
  have hle := h.level_le
  have := hall (h.level - 1) (List.mem_range.2 (by omega))
  rwa [Nat.sub_add_cancel hpos] at this

theorem isKey_id : IsKey "id".toList := isKey_of_all (by decide)

theorem isKey_class : IsKey "class".toList := isKey_of_all (by decide)

theorem isKey_href : IsKey "href".toList := isKey_of_all (by decide)

/-! ## The tree is what is written -/

variable {r : HeadingLine × Text} {rs : List (HeadingLine × Text)}

/-- The id has nothing in it that would have to be written in another way. -/
def IsPlain (r : HeadingLine × Text) : Prop := ∀ c ∈ r.2, Slug.isSlugChar c = true

/-- A title of letters, digits and spaces is written as it is. -/
theorem writtenText_title (h : HeadingLine) : writtenText h.title = h.title :=
  writtenText_eq_self fun _ hc => Text.not_mem_of_all (isTitleChar_of_mem_title hc) (by decide)

/-- An attribute without characters that markup or quotes need is written as it is. -/
theorem writtenAttribute_plain (key value : Text)
    (h : ∀ c ∈ value, c ∉ ['&', '<', '>', '"']) :
    writtenAttribute (key, value) = ' ' :: (key ++ '=' :: '"' :: (value ++ ['"'])) := by
  have hvalue : writtenText value = value := writtenText_eq_self fun c hc hmem =>
    h c hc (List.mem_append_left ['"'] hmem)
  have hquote : '"' ∉ value := fun hmem => h '"' hmem (by decide)
  rw [writtenAttribute, hvalue, quotedValue, if_neg hquote]

/-- The attributes of a permalink have single values. -/
theorem restated_permalink (id : Text) :
    restated ['a'] [("class".toList, "header-anchor".toList), ("href".toList, '#' :: id)] =
      [("class".toList, "header-anchor".toList), ("href".toList, '#' :: id)] := by
  refine restated_eq_self (by simp [List.pairwise_cons]; decide) ?_
  have hclass : isWordList ['a'] "class".toList = true ∧
      Text.joinWith [' '] (Text.words "header-anchor".toList) = "header-anchor".toList := by
    decide
  have hhref : isWordList ['a'] "href".toList = false := by decide
  refine List.forall_mem_cons.2 ⟨?_, List.forall_mem_singleton.2 ?_⟩
  · rw [writtenValue, if_pos hclass.1, hclass.2]
  · rw [writtenValue, hhref, if_neg Bool.false_ne_true, if_neg (by decide)]

/-- And so have those of a heading. -/
theorem restated_attributes (r : HeadingLine × Text) :
    restated (Html.headingName r.1.level) (attributes r) = attributes r := by
  have hname := isHeadingName r.1
  rw [attributes]
  split
  · exact restated_eq_self List.Pairwise.nil fun a ha => absurd ha List.not_mem_nil
  · refine restated_eq_self (List.pairwise_singleton _ _) (List.forall_mem_singleton.2 ?_)
    rw [writtenValue, hname.key, if_neg Bool.false_ne_true, if_neg hname.notMeta]

theorem restated_section :
    restated "section".toList [("class".toList, "content".toList)] =
      [("class".toList, "content".toList)] := by
  decide +kernel

/-- A plain id needs no escape. -/
theorem IsPlain.not_mem (h : IsPlain r) : ∀ c ∈ r.2, c ∉ ['&', '<', '>', '"'] :=
  fun _ hc => Text.not_mem_of_all (h _ hc) (by decide)

/-- What a permalink is written as. -/
theorem html_permalink (h : IsPlain r) :
    (permalink r.2).html false =
      "<a class=\"header-anchor\" href=\"#".toList ++ (r.2 ++ "\">¶</a>".toList) := by
  have hordinary : isOrdinary ['a'] = true := by decide
  have hclass := writtenAttribute_plain "class".toList "header-anchor".toList
    (Text.forall_mem_of_all (by decide))
  have hhref := writtenAttribute_plain "href".toList ('#' :: r.2)
    (List.forall_mem_cons.2 ⟨by decide, h.not_mem⟩)
  have hsymbol : Node.htmls false [.text none ['¶']] = ['¶'] := rfl
  rw [permalink, html_of_isOrdinary hordinary, writtenAttributes_eq, restated_permalink, hsymbol,
    List.flatMap_cons, List.flatMap_singleton, hclass, hhref]
  simp only [List.cons_append, List.append_assoc, List.nil_append]
  rfl

/-- A heading as an element is written as it is on the page. -/
theorem html_element (h : IsPlain r) : (element r).html false ++ ['\n'] = html r := by
  have hname := isHeadingName r.1
  rw [element, html_of_isOrdinary hname.ordinary, writtenAttributes_eq, restated_attributes,
    attributes, children, html]
  by_cases hlevel : r.1.level = 1
  · simp only [if_pos hlevel, List.flatMap_nil, Node.htmls, Node.html, writtenText_title,
      if_neg Bool.false_ne_true]
    simp only [List.cons_append, List.append_assoc, List.nil_append, List.append_nil]
    rfl
  -- below the first level there is a permalink in front of the title
  · have hid := writtenAttribute_plain "id".toList r.2 h.not_mem
    have htitle : writtenText (' ' :: r.1.title) = ' ' :: r.1.title := by
      rw [writtenText, List.flatMap_cons, ← writtenText, writtenText_title]
      rfl
    have hstart : "\"><a class=\"header-anchor\" href=\"#".toList =
        '"' :: '>' :: "<a class=\"header-anchor\" href=\"#".toList := rfl
    have hend : "\">¶</a> ".toList = "\">¶</a>".toList ++ [' '] := rfl
    simp only [if_neg hlevel, List.flatMap_singleton, hid, Node.htmls, html_permalink h, Node.html,
      htitle, if_neg Bool.false_ne_true, hstart, hend]
    simp only [List.cons_append, List.append_assoc, List.nil_append, List.append_nil]
    rfl

/-- And so are all headings of the page. -/
theorem htmls_elements (h : ∀ r ∈ rs, IsPlain r) :
    Node.htmls false (elements rs) = rs.flatMap html := by
  induction rs with
  | nil => rfl
  | cons r rs ih =>
    obtain ⟨hr, hrs⟩ := List.forall_mem_cons.1 h
    have hfeed : (Node.text none ['\n']).html false = ['\n'] := rfl
    rw [elements, List.flatMap_cons, ← elements, List.cons_append, List.singleton_append,
      Node.htmls, Node.htmls, ih hrs, hfeed, List.flatMap_cons, ← html_element hr,
      List.append_assoc]

/-- Headings stand on whole lines. -/
theorem lines_flatMap_html (h : ∀ r ∈ rs, IsPlain r) :
    Component.lines (rs.flatMap html) = rs.flatMap html := by
  refine if_pos ?_
  rcases List.eq_nil_or_concat rs with rfl | ⟨init, r, rfl⟩
  · exact Or.inl rfl
  · rw [List.concat_eq_append] at h ⊢
    have hr := h r (List.mem_append_right _ (List.mem_singleton_self r))
    rw [List.flatMap_append, List.flatMap_singleton, ← html_element hr, ← List.append_assoc,
      Text.endsWith, Text.startsWith_iff, List.reverse_append]
    exact Or.inr ⟨_, rfl⟩

/-- **The component is the tree as it is written.** -/
theorem htmls_document (h : ∀ r ∈ rs, IsPlain r) :
    Node.htmls false (document rs) = Component.wrap "content".toList (rs.flatMap html) := by
  have hordinary : isOrdinary "template".toList = true ∧ isOrdinary "section".toList = true := by
    decide
  have hsection := writtenAttribute_plain "class".toList "content".toList
    (Text.forall_mem_of_all (by decide))
  have htemplate : writtenAttributes "template".toList [] = [] := by decide +kernel
  -- both sides are put together from the same strings
  have hwrap : Component.wrap "content".toList (rs.flatMap html) =
      "<template>\n  <section class=\"".toList ++ "content".toList ++ "\">\n".toList
        ++ Component.lines (rs.flatMap html) ++ "  </section>\n</template>\n".toList := rfl
  have htext : (Node.text none "\n  ".toList).html false = "\n  ".toList ∧
      (Node.text none "  ".toList).html false = "  ".toList ∧
      (Node.text none ['\n']).html false = ['\n'] := by decide
  rw [hwrap, lines_flatMap_html h, document]
  simp only [Node.htmls, html_of_isOrdinary hordinary.1, html_of_isOrdinary hordinary.2, htemplate,
    writtenAttributes_eq, restated_section, htmls_append, htmls_elements h, hsection,
    List.flatMap_singleton, htext]
  simp only [List.cons_append, List.append_assoc, List.nil_append, List.append_nil]
  rfl

/-! ## The tree that is read -/

/-- What stands in a heading can be written and read again. -/
theorem areWritable_children (r : HeadingLine × Text) : AreWritable (children r) := by
  rw [children]
  split
  · exact areWritable_text none r.1.title
  · have hordinary : isOrdinary ['a'] = true := by decide
    have hkeys : ∀ k ∈ ["class".toList, "href".toList], IsKey k :=
      List.forall_mem_cons.2 ⟨isKey_class, List.forall_mem_singleton.2 isKey_href⟩
    have hpermalink : AreWritable [permalink r.2] := by
      refine areWritable_element hordinary _ ?_ ?_ (areWritable_text none ['¶'])
      · exact fun a ha => hkeys a.1 (List.mem_map_of_mem ha)
      · change ["class".toList, "href".toList].Nodup
        decide
    exact areWritable_append hpermalink (areWritable_text none _)

/-- So can the headings. -/
theorem areWritable_elements (rs : List (HeadingLine × Text)) : AreWritable (elements rs) := by
  induction rs with
  | nil => exact areWritable_nil
  | cons r rs ih =>
    have hkeys : ∀ a ∈ attributes r, IsKey a.1 := by
      rw [attributes]
      split
      · exact fun a ha => absurd ha List.not_mem_nil
      · exact List.forall_mem_singleton.2 isKey_id
    have hdistinct : ((attributes r).map (·.1)).Nodup := by
      rw [attributes]
      split
      · exact List.nodup_nil
      · exact List.nodup_singleton _
    have hr := areWritable_element (isHeadingName r.1).ordinary (attributes r) hkeys hdistinct
      (areWritable_children r)
    exact areWritable_append (areWritable_append hr (areWritable_text none ['\n'])) ih

/-- And so can the page. -/
theorem areWritable_document (rs : List (HeadingLine × Text)) : AreWritable (document rs) := by
  have hordinary : isOrdinary "template".toList = true ∧ isOrdinary "section".toList = true := by
    decide
  have hcontent := areWritable_append (areWritable_text none ['\n'])
    (areWritable_append (areWritable_elements rs) (areWritable_text none "  ".toList))
  have hsection := areWritable_element hordinary.2 [("class".toList, "content".toList)]
    (List.forall_mem_singleton.2 isKey_class) (List.nodup_singleton _) hcontent
  have htemplate := areWritable_element hordinary.1 []
    (fun a ha => absurd ha List.not_mem_nil) List.nodup_nil
    (areWritable_append (areWritable_text none "\n  ".toList)
      (areWritable_append hsection (areWritable_text none ['\n'])))
  exact areWritable_append htemplate (areWritable_text none ['\n'])

/-! ## Headings -/

variable {spelling : Slug.Transliteration}

/-- A text with a character that shows is not condensed. -/
theorem condensed_of_mem {t : Text} {c : Char} (hc : c ∈ t) (h : Draft.isSpace c = false)
    (keeps : Bool) : condensed keeps t = t := by
  have : t.all Draft.isSpace = false :=
    List.all_eq_false.2 ⟨c, hc, by rw [h]; exact Bool.false_ne_true⟩
  rw [condensed, this, Bool.false_and, if_neg Bool.false_ne_true]

/-- What a heading has in it, as it is read: its title comes after a permalink or not. -/
theorem settled_children (holder : Option Text) (r : HeadingLine × Text) :
    ∃ t, Node.settledAfter holder false [] (children r) =
        (if r.1.level = 1 then [] else [(permalink r.2).settled holder false]) ++
          [.text holder t] ∧ Text.strip t = r.1.title := by
  -- the text of a heading has more than space in it, so it is kept as it is
  obtain ⟨c, t, e, hc⟩ := r.1.exists_title_eq_cons
  have hspace : Draft.isSpace c = false :=
    Text.forall_alphanumeric (P := (Draft.isSpace · = false)) (by decide) hc
  have hmem : c ∈ r.1.title := e ▸ List.mem_cons_self
  rw [children]
  split
  · refine ⟨r.1.title, ?_, r.1.strip_title.1⟩
    rw [Node.settledAfter, Node.settledAfter, List.nil_append, textNode, if_neg r.1.title_ne_nil,
      condensed_of_mem hmem hspace]
    rfl
  · refine ⟨' ' :: r.1.title, ?_, r.1.strip_title.2⟩
    rw [permalink, Node.settledAfter, Node.settledAfter, Node.settledAfter, List.nil_append,
      textNode, textNode, if_neg (List.cons_ne_nil _ _),
      condensed_of_mem (List.mem_cons_of_mem _ hmem) hspace]
    · rfl
    · exact fun _ _ e => Node.noConfusion e

/-- **The permalink vanishes** from the title. -/
theorem title_children (holder : Option Text) (r : HeadingLine × Text) :
    Outline.title (Node.settledAfter holder false [] (children r)) = r.1.title := by
  obtain ⟨t, e, ht⟩ := settled_children holder r
  -- the permalink adds nothing: its symbol is passed over
  have hpermalink : Outline.plainPart ((permalink r.2).settled holder false) = [] := by
    have hclass : Outline.isPermalink [("class".toList, "header-anchor".toList),
        ("href".toList, '#' :: r.2)] = true := by
      have : Outline.permalinkClass ∈ Text.words "header-anchor".toList := by decide
      exact decide_eq_true this
    rw [permalink, Node.settled, restated_permalink, Outline.plainPart, if_pos hclass]
  have hkept : [r.1.title].filter (!·.isEmpty) = [r.1.title] :=
    List.filter_eq_self.2 (List.forall_mem_singleton.2 (by simp [r.1.title_ne_nil]))
  have hparts : ((Node.settledAfter holder false [] (children r)).map Outline.plainPart).filter
      (!·.isEmpty) = [r.1.title] := by
    rw [e]
    split
    · rw [List.nil_append, List.map_singleton, Outline.plainPart, ht]
      exact hkept
    · rw [List.map_append, List.map_singleton, List.map_singleton, hpermalink, Outline.plainPart,
        ht]
      exact hkept
  rw [Outline.title, hparts, Text.joinWith, r.1.strip_title.1]

/-- There is no heading in a heading. -/
theorem headingsOf_children (holder : Option Text) (r : HeadingLine × Text) :
    Outline.headingsOf spelling isDemo (Node.settledAfter holder false [] (children r)) = [] := by
  rw [Outline.headingsOf_settledAfter, children]
  split
  · rfl
  · have hlink : Outline.level? ['a'] = none ∧ isDemo ['a'] = false ∧ keepsSpace ['a'] = false := by
      decide
    rw [List.flatMap_cons, permalink, Outline.headings_settled hlink]
    rfl

/-- **A heading is listed** with its level, its id and its title. -/
theorem headings_element (holder : Option Text) (hslug : r.1.level = 1 → r.2 = r.1.slug spelling)
    (hid : r.2 ≠ []) :
    (Outline.headings spelling isDemo ((element r).settled holder false)).map
        (fun x => (x.level, x.id, x.title)) = [(r.1.level, r.2, r.1.title)] := by
  have hname := isHeadingName r.1
  have htitle := title_children holder r
  have hne : Outline.title (Node.settledAfter holder false [] (children r)) ≠ [] := by
    rw [htitle]
    exact r.1.title_ne_nil
  rw [element, Node.settled, hname.holder, hname.keeps, restated_attributes, Outline.headings,
    hname.demo]
  simp only [if_neg Bool.false_ne_true, Bool.or_self, headingsOf_children, List.append_nil]
  obtain ⟨x, hx, hxlevel, hxtitle, hnone, hsome⟩ :=
    @Outline.exists_heading? spelling _ _ hname.level (attributes r) _ hne
  rw [hx, Option.toList_some, List.map_singleton, hxlevel, hxtitle, htitle]
  -- only headings of the first level have no `id`
  have hxid : x.id = r.2 := by
    by_cases hlevel : r.1.level = 1
    · rw [hnone (by rw [attributes, if_pos hlevel]; rfl), htitle, hslug hlevel, slug]
    · exact hsome r.2 (by rw [attributes, if_neg hlevel]; rfl) hid
  rw [hxid]

/-- The headings of the tree are those of the page. -/
theorem documentHeadings_document
    (h : ∀ r ∈ rs, (r.1.level = 1 → r.2 = r.1.slug spelling) ∧ r.2 ≠ []) :
    (Outline.documentHeadings spelling isDemo
        (Node.settledAfter none false [] (document rs))).map (fun x => (x.level, x.id, x.title)) =
      rs.map fun r => (r.1.level, r.2, r.1.title) := by
  -- the headings one by one; template, section and the gaps between them have none
  have helements (holder : Option Text) :
      ((elements rs).flatMap fun n =>
          Outline.headings spelling isDemo (n.settled holder false)).map
          (fun x => (x.level, x.id, x.title)) =
        rs.map fun r => (r.1.level, r.2, r.1.title) := by
    induction rs with
    | nil => rfl
    | cons r rs ih =>
      obtain ⟨⟨hslug, hid⟩, hrs⟩ := List.forall_mem_cons.1 h
      rw [elements, List.flatMap_cons, ← elements, List.flatMap_append, List.map_append, ih hrs,
        List.flatMap_cons, List.map_append, headings_element holder hslug hid]
      rfl
  have htemplate : Outline.level? "template".toList = none ∧ isDemo "template".toList = false ∧
      keepsSpace "template".toList = false := by decide
  have hsection : Outline.level? "section".toList = none ∧ isDemo "section".toList = false ∧
      keepsSpace "section".toList = false := by decide
  have htext (holder : Option Text) (t : Text) :
      Outline.headings spelling isDemo ((Node.text none t).settled holder false) = [] := rfl
  have hdocument : isDemo Outline.documentName = false := by decide
  rw [Outline.documentHeadings, hdocument, if_neg Bool.false_ne_true,
    Outline.headingsOf_settledAfter, document]
  simp only [List.flatMap_cons, List.flatMap_nil, List.flatMap_append, List.append_nil,
    Outline.headings_settled htemplate, Outline.headings_settled hsection, htext, List.nil_append]
  exact helements _

/-- Reading the component again gives its headings, with the ids that they were given. -/
theorem exists_entries (spelling : Slug.Transliteration) (hs : List HeadingLine) :
    ∃ es, Outline.ofText spelling isDemo
        (Component.wrap "content".toList ((named spelling [] hs).flatMap html)) = .ok es ∧
      (Outline.Entry.preorders es).map (fun x => (x.level, x.id, x.title)) =
        (named spelling [] hs).map fun r => (r.1.level, r.2, r.1.title) := by
  have hread : Document.ofText
      (Component.wrap "content".toList ((named spelling [] hs).flatMap html)) =
        .ok (Node.settledAfter none false [] (document (named spelling [] hs))) := by
    rw [← htmls_document fun r hr => isSlugChar_of_mem_named hr]
    exact ofText_htmls (areWritable_document _)
  refine ⟨_, by rw [Outline.ofText, hread]; rfl, ?_⟩
  rw [Outline.Entry.preorder_ofHeadings]
  exact documentHeadings_document fun r hr => ⟨(of_mem_named hr).1, ne_nil_of_mem_named hr⟩

/-- **The outline of a page of headings** -/
theorem outline_page (spelling : Slug.Transliteration) (ended : Bool) (hs : List HeadingLine) :
    ∃ (rs : List (HeadingLine × Text)) (es : List Outline.Entry),
      rs.map (·.1) = hs ∧
      Session.page spelling Config.default true (page ended hs) =
        .ok ⟨Component.wrap "content".toList (rs.flatMap html), []⟩ ∧
      Outline.ofText spelling (Outline.isNamedBy (.text "demo-block".toList))
        (Component.wrap "content".toList (rs.flatMap html)) = .ok es ∧
      (Outline.Entry.preorders es).map (fun x => (x.level, x.id, x.title)) =
        rs.map (fun r => (r.1.level, r.2, r.1.title)) ∧
      ((rs.filter fun r => 1 < r.1.level).map (·.2)).Nodup ∧
      ∀ r ∈ rs, (r.1.level = 1 → r.2 = Slug.ofTitle spelling r.1.title) ∧
        ∃ n, r.2 = Html.numberedSlug (Slug.ofTitle spelling r.1.title) n := by
  obtain ⟨es, hes, hpreorder⟩ := exists_entries spelling hs
  exact ⟨named spelling [] hs, es, map_fst_named spelling [] hs, component_page spelling ended hs,
    hes, hpreorder, (nodup_named [] hs).1, fun r hr => of_mem_named hr⟩

end HeadingLine

end Showcase

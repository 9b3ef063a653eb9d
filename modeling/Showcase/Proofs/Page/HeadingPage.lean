import Showcase.Proofs.Markup.HeadingLine
import Showcase.Proofs.Page.DemoPage
import Showcase.Proofs.Page.Slug

/-!
# Pages of headings

A page of nothing but headings, followed from its lines to its HTML. Every heading below the first
level gets an id and a permalink to it. Ids are given out one after the other, each of them one that
is still free (`named`); so they are different from each other (`nodup_named`), and each is the
heading's slug or a numbered form of it (`of_mem_named`).

Main statement: `component_page`.
-/

namespace Showcase.HeadingLine

open Text

variable (spelling : Slug.Transliteration)

/-- The slug of the title. -/
def slug (h : HeadingLine) : Text := Slug.ofTitle spelling h.title

/-! ## Ids -/

/-- Each heading with its id, given the ids that are taken. A heading of the first level is not
anchored, and goes by its slug. -/
def named (taken : List Text) : List HeadingLine → List (HeadingLine × Text)
  | [] => []
  | h :: hs =>
    if h.level = 1 then (h, h.slug spelling) :: named taken hs
    else
      let id := Html.freeSlug (h.slug spelling) taken
      (h, id) :: named (id :: taken) hs

theorem map_fst_named (taken : List Text) (hs : List HeadingLine) :
    (named spelling taken hs).map (·.1) = hs := by
  fun_induction named spelling taken hs with
  | case1 => rfl
  | case2 taken h hs _ ih => rw [List.map_cons, ih]
  | case3 taken h hs _ id ih => rw [List.map_cons, ih]

variable {spelling}

/-- An id is a form of the heading's slug; without an anchor it is the slug itself. -/
theorem of_mem_named {taken : List Text} {hs : List HeadingLine} {r : HeadingLine × Text}
    (hr : r ∈ named spelling taken hs) :
    (r.1.level = 1 → r.2 = r.1.slug spelling) ∧
      ∃ n, r.2 = Html.numberedSlug (r.1.slug spelling) n := by
  fun_induction named spelling taken hs with
  | case1 => cases hr
  | case2 taken h hs hlevel ih =>
    rcases List.mem_cons.1 hr with rfl | hr
    · exact ⟨fun _ => rfl, 0, (Html.numberedSlug_zero _).symm⟩
    · exact ih hr
  | case3 taken h hs hlevel id ih =>
    rcases List.mem_cons.1 hr with rfl | hr
    · exact ⟨fun e => absurd e hlevel, Html.exists_freeSlug _ taken⟩
    · exact ih hr

theorem ne_nil_of_mem_named {taken : List Text} {hs : List HeadingLine} {r : HeadingLine × Text}
    (hr : r ∈ named spelling taken hs) : r.2 ≠ [] := by
  obtain ⟨-, n, e⟩ := of_mem_named hr
  rw [e]
  exact Html.numberedSlug_ne_nil (Slug.ofTitle_ne_nil spelling r.1.title) n

theorem isSlugChar_of_mem_named {taken : List Text} {hs : List HeadingLine}
    {r : HeadingLine × Text} (hr : r ∈ named spelling taken hs) :
    ∀ c ∈ r.2, Slug.isSlugChar c = true := by
  obtain ⟨-, n, e⟩ := of_mem_named hr
  intro c hc
  rw [e] at hc
  exact Html.isSlugChar_of_mem_numberedSlug (fun _ => Slug.isSlugChar_of_mem_ofTitle) hc

/-- The headings that are anchored. -/
def isAnchored (r : HeadingLine × Text) : Bool := 1 < r.1.level

/-- **The ids of anchors** are different from each other, and from those that were taken. -/
theorem nodup_named (taken : List Text) (hs : List HeadingLine) :
    (((named spelling taken hs).filter isAnchored).map (·.2)).Nodup ∧
      ∀ id ∈ ((named spelling taken hs).filter isAnchored).map (·.2), id ∉ taken := by
  -- the second part is the invariant that carries the first: no id is taken already
  fun_induction named spelling taken hs with
  | case1 => exact ⟨List.nodup_nil, fun id hid => absurd hid List.not_mem_nil⟩
  | case2 taken h hs hlevel ih =>
    have hno : ¬ isAnchored (h, h.slug spelling) = true := by simp [isAnchored, hlevel]
    rwa [List.filter_cons_of_neg hno]
  | case3 taken h hs hlevel id ih =>
    have hpos := h.level_pos
    have hyes : isAnchored (h, id) = true := by
      have : 1 < h.level := by omega
      exact decide_eq_true this
    rw [List.filter_cons_of_pos hyes, List.map_cons]
    refine ⟨List.nodup_cons.2 ⟨fun hmem => ?_, ih.1⟩, ?_⟩
    · exact ih.2 id hmem List.mem_cons_self
    · refine List.forall_mem_cons.2 ⟨Html.freeSlug_not_mem _ taken, fun i hi hmem => ?_⟩
      exact ih.2 i hi (List.mem_cons_of_mem _ hmem)

/-! ## Writing -/

/-- A heading with its id as HTML. -/
def html (r : HeadingLine × Text) : Text :=
  let name := Html.headingName r.1.level
  if r.1.level = 1 then '<' :: (name ++ '>' :: (r.1.title ++ "</".toList ++ name ++ ['>', '\n']))
  else
    '<' :: (name ++ " id=\"".toList ++ r.2 ++ "\"><a class=\"header-anchor\" href=\"#".toList
      ++ r.2 ++ "\">¶</a> ".toList ++ r.1.title ++ "</".toList ++ name ++ ['>', '\n'])

/-- The look of a page of headings with the default configuration. -/
def look (spelling : Slug.Transliteration) : Html.Look :=
  (DemoSection.defaultEngine spelling).look ⟨[], [], []⟩ []

theorem escape_title (h : HeadingLine) : escape h.title = h.title :=
  escape_eq_self fun _ hc => not_mem_of_all (isTitleChar_of_mem_title hc) (by decide)

/-- A title is shown as it is written. -/
theorem inlines_title (k : Html.Look) (h : HeadingLine) : k.inlines h.title = h.title := by
  rw [Html.Look.inlines, read_title, Html.inlines, Html.inlines, Html.inline, escape_title,
    List.append_nil]

/-- An anchored heading is written with its id and its permalink. -/
theorem line_anchored {h : HeadingLine} (hlevel : h.level ≠ 1) {id : Text} (hid : escape id = id) :
    Html.line (Html.headingName h.level) (Html.attributeText "id".toList id)
      ((Html.Permalink.before "¶".toList).add id h.title) = html (h, id) := by
  have hkey : escape "id".toList = ['i', 'd'] := rfl
  have hpermalink : Html.permalink id "¶".toList =
      "<a class=\"header-anchor\" href=\"#".toList ++ escape id ++ "\">".toList ++ "¶".toList
        ++ "</a>".toList := rfl
  have hstart : " id=\"".toList = ' ' :: 'i' :: 'd' :: "=\"".toList := rfl
  have hlink : "\"><a class=\"header-anchor\" href=\"#".toList =
      '"' :: '>' :: "<a class=\"header-anchor\" href=\"#".toList := rfl
  have hsymbol : "\">¶</a> ".toList =
      "\">".toList ++ ("¶".toList ++ ("</a>".toList ++ [' '])) := rfl
  simp only [html, if_neg hlevel, Html.line, Html.element, Html.attributeText, Html.Permalink.add,
    hpermalink, hid, hkey, hstart, hlink, hsymbol, List.cons_append, List.append_assoc,
    List.nil_append]

/-- The HTML of a heading: those of the first level have no permalink, and take no slug. -/
theorem heading_eq (h : HeadingLine) (taken : List Text) :
    Html.heading (look spelling) h.level h.title taken =
      if h.level = 1 then (html (h, h.slug spelling), taken)
      else
        let id := Html.freeSlug (h.slug spelling) taken
        (html (h, id), id :: taken) := by
  have hanchors : (look spelling).anchors = some ⟨2, .before "¶".toList, spelling⟩ := rfl
  have hpos := h.level_pos
  rw [Html.heading]
  simp only [hanchors, inlines_title]
  -- anchors begin with the second level
  by_cases hlevel : h.level = 1
  · have hleast : ¬ (2 : Int) ≤ h.level := by omega
    rw [if_neg hleast, if_pos hlevel, html, if_pos hlevel, Html.line, Html.element]
    simp only [List.append_nil, List.cons_append, List.append_assoc, List.nil_append]
  · have hleast : (2 : Int) ≤ h.level := by omega
    have hwords : Inline.plainTexts (Inline.read (look spelling).context h.title) = h.title := by
      rw [read_title, Inline.plainTexts, Inline.plainTexts, Inline.plainText, List.append_nil]
    have hid : escape (Html.freeSlug (h.slug spelling) taken) =
        Html.freeSlug (h.slug spelling) taken := Html.escape_freeSlug spelling h.title taken
    rw [if_pos hleast, if_neg hlevel, hwords, ← slug, line_anchored hlevel hid]

/-- **The HTML of the headings of a page**, each with its own slug. -/
theorem blocks_eq (taken : List Text) (hs : List HeadingLine) :
    (Html.blocks (look spelling) false false (hs.map block) taken).1 =
      (named spelling taken hs).flatMap html := by
  fun_induction named spelling taken hs with
  | case1 => rfl
  | case2 taken h hs hlevel ih =>
    rw [List.map_cons, Html.blocks, block, Html.block, heading_eq, if_pos hlevel]
    simp only [Bool.false_and, if_neg Bool.false_ne_true, List.nil_append, ih, List.flatMap_cons]
  | case3 taken h hs hlevel id ih =>
    rw [List.map_cons, Html.blocks, block, Html.block, heading_eq, if_neg hlevel]
    simp only [Bool.false_and, if_neg Bool.false_ne_true, List.nil_append, List.flatMap_cons]
    exact congrArg _ ih

/-! ## The page -/

/-- There is no demo among headings. -/
theorem allBodies_map_block (hs : List HeadingLine) : Engine.allBodies (hs.map block) = [] := by
  induction hs with
  | nil => rfl
  | cons h hs ih =>
    rw [List.map_cons, Engine.allBodies, ih]
    rfl

/-- A page of heading lines has hashes, line feeds and characters of titles only. -/
theorem mem_page {ended : Bool} {hs : List HeadingLine} {c : Char} (hc : c ∈ page ended hs) :
    c = '\n' ∨ c = '#' ∨ isTitleChar c = true := by
  have hline (h : ∃ t ∈ hs.map text, c ∈ t) : c = '#' ∨ isTitleChar c = true := by
    obtain ⟨t, ht, hc⟩ := h
    obtain ⟨h, -, rfl⟩ := List.mem_map.1 ht
    exact mem_text hc
  rw [page] at hc
  split at hc
  · exact (mem_unlines hc).imp_right hline
  · exact (mem_joinWith hc).imp List.mem_singleton.1 hline

theorem not_mem_page {ended : Bool} {hs : List HeadingLine} {c : Char}
    (hc : (c == '\n' || c == '#' || isTitleChar c) = false) : c ∉ page ended hs := by
  intro hmem
  rcases mem_page hmem with rfl | rfl | h
  · cases hc
  · cases hc
  · rw [h, Bool.or_true] at hc
    cases hc

/-- A page of headings is read as it is. -/
theorem clean_page (ended : Bool) (hs : List HeadingLine) :
    Source.clean (page ended hs) = page ended hs ∧
      Source.readable (page ended hs) = page ended hs := by
  have hreturn : '\r' ∉ page ended hs := not_mem_page (by decide)
  have hnull : '\x00' ∉ page ended hs := not_mem_page (by decide)
  have hmark : (page ended hs).head? ≠ some (Char.ofNat 0xFEFF) := fun h =>
    not_mem_page (by decide) (List.mem_of_head? h)
  exact ⟨Source.clean_eq_self hreturn hmark, Source.readable_eq_self hreturn hnull⟩

/-- Its blocks are its headings, and it defines nothing. -/
theorem readPage_readable (spelling : Slug.Transliteration) (ended : Bool) (hs : List HeadingLine) :
    Block.readPage (DemoSection.defaultEngine spelling).grammar
      (Source.readable (Source.clean (page ended hs))) = (hs.map block, []) := by
  have hdepth : (DemoSection.defaultEngine spelling).grammar.dialect.depth = 19 + 1 := rfl
  rw [(clean_page ended hs).1, (clean_page ended hs).2]
  exact readPage_page rfl hdepth ended hs

/-- **A page of headings**, with the default configuration. -/
theorem component_page (spelling : Slug.Transliteration) (ended : Bool) (hs : List HeadingLine) :
    Session.page spelling Config.default true (page ended hs) =
      .ok ⟨Component.wrap "content".toList ((named spelling [] hs).flatMap html), []⟩ := by
  have hread := readPage_readable spelling ended hs
  have hrender : (DemoSection.defaultEngine spelling).render [] (Source.clean (page ended hs)) =
      .ok ⟨(named spelling [] hs).flatMap html, [], []⟩ := by
    rw [Engine.render, hread]
    simp only [Engine.payloads, allBodies_map_block, if_pos, List.append_nil]
    rw [← blocks_eq]
    rfl
  rw [Session.page, DemoSection.ofConfig_default]
  simp only [Except.bind, bind, hrender]
  rfl

end Showcase.HeadingLine

import Showcase.Page.Session
import Showcase.Page.Spelling
import Showcase.Proofs.Demo.Marker
import Showcase.Proofs.Markup.Lines
import Showcase.Proofs.Markup.Reading
import Showcase.Page.Source

/-!
# Pages of demos

The pages that show widgets are mostly made of sections of one form: a marker with a description,
and the source of the demo in a fence (`DemoSection`). Such a page is followed here from its text to
its HTML.

* Each section is read as one demo around one listing, with the source as it was written
  (`rule_opening`); so the page is read section by section (`readPage_page`).
* Each demo is written as the markup of its event, its listing in the form that templates and
  highlighters want, and the closing tags (`blocks_block`).

Together these say what becomes of the page (`page_eq`). The source may have anything in it but the
two runs of characters that would close the demo or the fence: its lines are taken as they are, and
put together again.
-/

namespace Showcase

open Text Block

/-- A demo as an author writes it on a page. -/
structure DemoSection where
  /-- what stands behind the marker -/
  description : Text
  /-- the source of the demo -/
  body : Text
  /-- the description stands on one line -/
  description_plain : ∀ c ∈ ['\n', '\r', '\x00'], c ∉ description
  /-- line feeds are the only line ends of the source -/
  body_plain : ∀ c ∈ ['\r', '\x00'], c ∉ body
  /-- the source stands on lines of its own -/
  body_whole : IsWhole body
  /-- nothing in the source closes the demo -/
  body_colons : ¬ ":::".toList <:+: body
  /-- nothing in the source closes the fence -/
  body_fences : ¬ "```".toList <:+: body

namespace DemoSection

/-- The line that opens the demo. -/
def opening (s : DemoSection) : Text := "::: demo ".toList ++ s.description

/-- The line that opens the fence. -/
def fenceOpening : Text := "```html".toList

/-- The line that closes the fence. -/
def fenceClosing : Text := "```".toList

/-- The line that closes the demo. -/
def closing : Text := ":::".toList

/-- The section on the page. -/
def text (s : DemoSection) : Text :=
  unlines [s.opening, fenceOpening] ++ (s.body ++ unlines [fenceClosing, closing])

/-- The lines of the section after the first one. -/
def moreLines (s : DemoSection) : List Line :=
  Line.ofText true fenceOpening :: (Line.all s.body ++
    [Line.ofText true fenceClosing, Line.ofText true closing])

/-- The lines of the section. -/
def lines (s : DemoSection) : List Line := Line.ofText true s.opening :: s.moreLines

/-- An opening line is one line. -/
theorem not_mem_opening (s : DemoSection) {c : Char} (hc : c ∈ ['\n', '\r', '\x00']) :
    c ∉ s.opening := by
  have hmark := forall_mem_of_all (P := (· ∉ "::: demo ".toList)) (by decide) c hc
  intro h
  rcases List.mem_append.1 h with h | h
  · exact hmark h
  · exact s.description_plain c hc h

/-- A section has its own lines, whatever follows it. -/
theorem all_text_append (s : DemoSection) (r : Text) :
    Line.all (s.text ++ r) = s.lines ++ Line.all r := by
  have hstart : ∀ t ∈ [s.opening, fenceOpening], '\n' ∉ t :=
    List.forall_mem_cons.2 ⟨s.not_mem_opening (by decide), by decide⟩
  have hend : ∀ t ∈ [fenceClosing, closing], '\n' ∉ t := by decide
  rw [text, List.append_assoc, List.append_assoc, Line.all_unlines_append hstart,
    Line.all_append s.body_whole, Line.all_unlines_append hend, lines, moreLines]
  simp only [List.map_cons, List.map_nil, List.cons_append, List.append_assoc, List.nil_append]

/-- A section has no line ends but line feeds in it, and no null character. -/
theorem not_mem_text (s : DemoSection) {c : Char} (hc : c ∈ ['\r', '\x00']) : c ∉ s.text := by
  have hfeed := forall_mem_of_all (P := (· ≠ '\n')) (by decide) c hc
  have hmarks := forall_mem_of_all
    (P := fun c => ∀ t ∈ [fenceOpening, fenceClosing, closing], c ∉ t) (by decide) c hc
  intro h
  -- a section is the two opening lines, the body, and the two closing lines
  rcases List.mem_append.1 h with h | h
  · rcases mem_unlines h with h | ⟨t, ht, h⟩
    · exact hfeed h
    · rcases List.mem_cons.1 ht with rfl | ht
      · exact s.not_mem_opening (List.mem_cons_of_mem _ hc) h
      · obtain rfl := List.mem_singleton.1 ht
        exact hmarks _ (by simp) h
  · rcases List.mem_append.1 h with h | h
    · exact s.body_plain c hc h
    · rcases mem_unlines h with h | ⟨t, ht, h⟩
      · exact hfeed h
      · exact hmarks t (List.mem_cons_of_mem _ ht) h

end DemoSection

/-! ## Reading -/

namespace DemoSection

variable {g : Grammar} (s : DemoSection)

/-- The fence, as it is found in its line. -/
def fence : Fence := ⟨'\x60', 3, "html".toList⟩

/-- The marker, as it is found in its line. -/
def colons : Colons := ⟨3, .demo, ' ' :: (Marker.keyword ++ ' ' :: s.description)⟩

/-- A line of the source closes neither the fence nor the demo. -/
theorem isEnd_of_mem_body {isEnd : Text → Bool} {c : Char} (hc : ¬ [c, c, c] <:+: s.body)
    (hend : ∀ t, isEnd t = true → [c, c, c] <+: t) {l : Line} (hl : l ∈ Line.all s.body) :
    Within pageFrame l ∧ isEnd l.content = false := by
  obtain ⟨hended, hindent, hinfix⟩ := Line.of_mem_all s.body_whole hl
  refine ⟨⟨hended, hindent⟩, Bool.eq_false_iff.2 fun h => ?_⟩
  exact hc ((hend _ h).isInfix.trans hinfix)

/-- The listing of a section goes on to its closing fence. -/
theorem untilEnd_fence (more : List Line) {window : Nat} (hw : (Line.all s.body).length < window) :
    untilEnd g pageFrame fence.isClosedBy window
        (Line.all s.body ++ Line.ofText true fenceClosing :: more) =
      ((Line.all s.body).length, true) := by
  refine untilEnd_append (fun l hl => ?_) ⟨rfl, Int.le_refl 0⟩ (isCode_of_indent rfl) rfl more hw
  exact s.isEnd_of_mem_body s.body_fences (fun _ => Fence.prefix_of_isClosedBy) hl

/-- The fence is read as a listing of the source. -/
theorem rule_fence (hrich : g.dialect.rich = true) (inner inItem : Reader) (more : List Line)
    {window : Nat} (hw : (Line.all s.body).length + 2 ≤ window) (limit : Nat) :
    rule g inner inItem pageFrame (Line.ofText true fenceOpening)
        (Line.all s.body ++ Line.ofText true fenceClosing :: more) window limit =
      some (.leaf (.fence "html".toList s.body) ((Line.all s.body).length + 2)) := by
  refine rule_of_first hrich rfl ?_ (Or.inr ⟨?_, ?_⟩)
  · -- the source may look like a row of dashes, but the fence has no bar for a table's header
    obtain ⟨second, rest, e⟩ := List.exists_cons_of_ne_nil
      (l := Line.all s.body ++ Line.ofText true fenceClosing :: more) (by simp)
    rw [e]
    exact tableRule_eq_none (header?_of_not_mem (by decide) second.content)
  · rw [containerRule, isCode_of_indent rfl]
    rfl
  · have hfence : fence? (Line.ofText true fenceOpening).content = some fence := rfl
    have hindent : (Line.ofText true fenceOpening).indent = 0 := rfl
    rw [fencedCodeRule, isCode_of_indent rfl, if_neg Bool.false_ne_true, hfence, Option.map_some]
    simp only [s.untilEnd_fence more (show _ < window - 1 by omega), List.take_left, hindent,
      Line.cutAll_all s.body_whole]
    rfl

/-- The lines between the marker and the end of the demo are read as one listing. -/
theorem reader_fence (hrich : g.dialect.rich = true) (depth : Nat) (more : List Line) :
    ∃ used tight, reader g (depth + 1) pageFrame (s.moreLines ++ more)
        ((Line.all s.body).length + 2) ((Line.all s.body).length + 2) =
      ⟨[.fence "html".toList s.body], [], used, tight⟩ := by
  obtain ⟨inner, inItem, hreader⟩ := exists_reader_succ g depth
  have hs := s.rule_fence hrich inner inItem (Line.ofText true closing :: more) (Nat.le_refl _)
    ((Line.all s.body).length + 2)
  have hpos : 0 < (Line.all s.body).length + 2 := by omega
  obtain ⟨spaced, e⟩ := sequence_cons rfl (Int.le_refl 0) hpos hs hpos (Or.inl (Nat.le_refl _))
    false true
  have hlines : s.moreLines ++ more = Line.ofText true fenceOpening :: (Line.all s.body ++
      Line.ofText true fenceClosing :: Line.ofText true closing :: more) := by simp [moreLines]
  rw [hreader, hlines, e]
  -- the listing has used up the window
  simp only [Step.leaf, Nat.sub_self]
  rw [Block.sequence, if_pos rfl]
  exact ⟨_, _, rfl⟩

/-- And its demo goes on to the closing colons. -/
theorem untilEnd_demo (more : List Line) {window : Nat}
    (hw : (Line.all s.body).length + 2 < window) :
    untilEnd g pageFrame s.colons.isClosedBy window (s.moreLines ++ more) =
      ((Line.all s.body).length + 2, true) := by
  have e : s.moreLines ++ more = (Line.ofText true fenceOpening :: (Line.all s.body ++
      [Line.ofText true fenceClosing])) ++ Line.ofText true closing :: more := by
    simp [moreLines]
  have hlength : (Line.ofText true fenceOpening :: (Line.all s.body ++
      [Line.ofText true fenceClosing])).length = (Line.all s.body).length + 2 := by simp
  rw [e, ← hlength]
  -- neither the fence nor a line of the body closes the demo
  refine untilEnd_append (fun l hl => ?_) ⟨rfl, Int.le_refl 0⟩ (isCode_of_indent rfl) rfl more
    (hlength ▸ hw)
  rcases List.mem_cons.1 hl with rfl | hl
  · exact ⟨⟨rfl, Int.le_refl 0⟩, rfl⟩
  · rcases List.mem_append.1 hl with hl | hl
    · exact s.isEnd_of_mem_body s.body_colons (fun _ => Colons.prefix_of_isClosedBy) hl
    · obtain rfl := List.mem_singleton.1 hl
      exact ⟨⟨rfl, Int.le_refl 0⟩, rfl⟩

/-- The first line of a section opens a demo. -/
theorem colons?_opening (hg : ReadsDemos g) : colons? g s.opening = some s.colons := by
  have hrun : runOf ':' s.opening = (3, ' ' :: (Marker.keyword ++ ' ' :: s.description)) := rfl
  have hvalid := Marker.isValid_keyword s.description
  rw [colons?, hrun]
  simp only [container?, hg.demos, hvalid, Bool.and_self, if_pos, if_neg hg.unnoticed]
  rfl

/-- The section as a block. -/
def block : Block :=
  .demo (' ' :: (Marker.keyword ++ ' ' :: s.description)) [.fence "html".toList s.body]

theorem length_moreLines : s.moreLines.length = (Line.all s.body).length + 3 := by
  simp [moreLines]

/-- **A section is read as one demo.** -/
theorem rule_opening (hg : ReadsDemos g) (depth : Nat) (inItem : Reader) (more : List Line)
    {window : Nat} (hw : s.lines.length ≤ window) (limit : Nat) :
    rule g (reader g (depth + 1)) inItem pageFrame (Line.ofText true s.opening)
        (s.moreLines ++ more) window limit =
      some ⟨some s.block, [], s.lines.length⟩ := by
  rw [lines, List.length_cons, length_moreLines] at *
  refine rule_of_first hg.rich rfl ?_ (Or.inl ?_)
  · exact tableRule_eq_none (header?_of_looksLikeRule rfl _)
  · obtain ⟨used, tight, hinner⟩ := s.reader_fence hg.rich depth more
    have hcontent : (Line.ofText true s.opening).content = s.opening := rfl
    rw [containerRule, isCode_of_indent rfl, if_neg Bool.false_ne_true, hcontent,
      s.colons?_opening hg, Option.map_some]
    simp only [s.untilEnd_demo more (show _ < window - 1 by omega), hinner]
    rfl

/-- The lines of several sections. -/
def allLines (ss : List DemoSection) : List Line := ss.flatMap lines

/-- Sections are read one by one. -/
theorem sequence_allLines (hg : ReadsDemos g) (depth : Nat) (inItem : Reader)
    (ss : List DemoSection) (spaced tight : Bool) :
    ∃ used tight', sequence (rule g (reader g (depth + 1)) inItem) pageFrame spaced tight
        (allLines ss) (allLines ss).length (allLines ss).length =
      ⟨ss.map block, [], used, tight'⟩ := by
  induction ss generalizing spaced tight with
  | nil =>
    rw [Block.sequence, if_pos (by rfl)]
    exact ⟨_, _, rfl⟩
  | cons s ss ih =>
    have e : allLines (s :: ss) = s.lines ++ allLines ss := List.flatMap_cons
    have hlength : (allLines (s :: ss)).length = s.lines.length + (allLines ss).length := by
      rw [e, List.length_append]
    have hpos : 0 < s.lines.length := Nat.succ_pos _
    have hs := s.rule_opening hg depth inItem (allLines ss)
      (Nat.le_trans (Nat.le_add_right ..) (Nat.le_of_eq hlength.symm)) (allLines (s :: ss)).length
    -- if there is a next line, then it is the marker of the next section
    have hnext : (allLines (s :: ss)).length ≤ s.lines.length ∨
        isBlankAt (s.lines ++ allLines ss) s.lines.length = false := by
      cases ss with
      | nil => exact Or.inl (Nat.le_of_eq hlength)
      | cons s' ss =>
        rw [isBlankAt, List.getElem?_append_right (Nat.le_refl _), Nat.sub_self]
        exact Or.inr rfl
    obtain ⟨spaced', h⟩ := sequence_cons rfl (Int.le_refl 0) (by omega) hs hpos hnext spaced tight
    obtain ⟨used, tight', ih⟩ := ih spaced' (!spaced)
    have hdrop : (Line.ofText true s.opening :: (s.moreLines ++ allLines ss)).drop s.lines.length =
        allLines ss := (List.drop_left : (s.lines ++ allLines ss).drop s.lines.length = _)
    have hleft : (allLines (s :: ss)).length - s.lines.length = (allLines ss).length := by omega
    refine ⟨s.lines.length + used, tight', ?_⟩
    simp only [hdrop, hleft, ih] at h
    exact h

/-- The page made of several sections. -/
def page (ss : List DemoSection) : Text := ss.flatMap text

/-- A page has the lines of its sections. -/
theorem all_page (ss : List DemoSection) : Line.all (page ss) = allLines ss := by
  induction ss with
  | nil => rfl
  | cons s ss ih =>
    rw [page, List.flatMap_cons, all_text_append, ← page, ih, allLines, allLines, List.flatMap_cons]

/-- **A page of sections** is read as their blocks. -/
theorem readPage_page (hg : ReadsDemos g) {depth : Nat} (hdepth : g.dialect.depth = depth + 2)
    (ss : List DemoSection) : readPage g (page ss) = (ss.map block, []) := by
  obtain ⟨used, tight, h⟩ := sequence_allLines hg depth (reader g depth) ss false true
  rw [readPage, all_page, hdepth]
  change ((sequence _ pageFrame _ _ _ _ _).blocks, (sequence _ pageFrame _ _ _ _ _).definitions) = _
  rw [h]

/-! ## Writing -/

/-- The listing of the source, ready for templates and highlighters. -/
def listing : Text :=
  "<pre v-pre><code class=\"hljs language-html\">".toList ++ escape s.body
    ++ "</code></pre>\n".toList

/-- What the listing of a section is written as, with both wrappers. -/
theorem wrap_listing (content : Text) :
    Listing.wrap [.markRaw, .highlight]
        (Html.listing (Html.attributeText "class".toList "language-html".toList) content) =
      "<pre v-pre><code class=\"hljs language-html\">".toList ++ escape content
        ++ "</code></pre>\n".toList := by
  rfl

/-- The listing of a section as it stands on the page. -/
theorem fence_html {k : Html.Look} (hmark : k.context.dialect.languageMark = "language-".toList)
    (hwrappers : k.wrappers = [.markRaw, .highlight]) :
    Html.fence k "html".toList s.body = s.listing := by
  have hattributes : Html.languageAttributes k.context.dialect "html".toList =
      Html.attributeText "class".toList "language-html".toList := by
    have hwords : words (Unescape.unescape "html".toList) = ["html".toList] := rfl
    rw [Html.languageAttributes, hwords, hmark]
    rfl
  rw [Html.fence, hwrappers, hattributes]
  exact wrap_listing s.body

/-- Each demo is written around its listing, and takes no id for itself. -/
theorem blocks_block {k : Html.Look} (hmark : k.context.dialect.languageMark = "language-".toList)
    (hwrappers : k.wrappers = [.markRaw, .highlight]) (ss : List DemoSection) (taken : List Text) :
    Html.blocks k false false (ss.map block) taken =
      (ss.flatMap fun s => k.demoStart (' ' :: (Marker.keyword ++ ' ' :: s.description)) s.body
        ++ s.listing ++ k.demoEnd, taken) := by
  induction ss with
  | nil => rfl
  | cons s ss ih =>
    have hblock : Html.block k false s.block taken =
        (k.demoStart (' ' :: (Marker.keyword ++ ' ' :: s.description)) s.body ++ s.listing
          ++ k.demoEnd, taken) := by
      simp only [block, Html.block, Html.blocks, s.fence_html hmark hwrappers, Html.body,
        Block.rawContent, Bool.false_and, if_neg Bool.false_ne_true, List.nil_append,
        List.append_nil]
    rw [List.map_cons, Html.blocks, hblock]
    simp only [Bool.false_and, ih, List.flatMap_cons]
    rfl

/-- The sources on the page are those of the sections. -/
theorem allBodies_map_block (ss : List DemoSection) :
    Engine.allBodies (ss.map block) = ss.map body := by
  induction ss with
  | nil => rfl
  | cons s ss ih =>
    rw [List.map_cons, Engine.allBodies, ih]
    rfl

/-! ## The default configuration -/

/-- The engine for the default configuration. -/
def defaultEngine (spelling : Slug.Transliteration) : Engine where
  grammar := ⟨Dialect.standard, true, true, ["tip".toList, "warning".toList]⟩
  anchors := ⟨2, .before "¶".toList, spelling⟩
  tableClass := "table".toList
  domain := []
  widget := WidgetSettings.ofRecord Config.default.demo

/-- The engine for the default configuration. -/
theorem ofConfig_default (spelling : Slug.Transliteration) :
    Engine.ofConfig spelling Config.default = .ok (defaultEngine spelling) := by
  rfl

/-- It reads demos. -/
theorem readsDemos_default (spelling : Slug.Transliteration) :
    ReadsDemos (defaultEngine spelling).grammar where
  rich := rfl
  demos := rfl
  unnoticed := by
    change Marker.keyword ∉ ["tip".toList, "warning".toList]
    decide

/-- The widget element of the default configuration. -/
def defaultWidget : Widget := ⟨"demo-block".toList, "demo-box".toList, "jsfiddle".toList⟩

/-- The section as HTML: the markup of the event that opens the demo, the listing, and the end of
the demo. -/
def markup : Except Failure Text := do
  let start ← Event.markup (WidgetSettings.ofRecord Config.default.demo)
    (.opening (strip s.description) s.body)
  return start ++ s.listing ++ "</div></demo-block>\n".toList

/-- The HTML that the section has, as it turns out. -/
def html : Text :=
  defaultWidget.opening (Payload.ofBody s.body) (strip s.description) ++ s.listing
    ++ "</div></demo-block>\n".toList

/-- The markup of a section can be made, and is what stands on the page. -/
theorem markup_eq (s : DemoSection) : s.markup = .ok s.html := by
  rfl

/-- The HTML that the section has with a widget element of another name. -/
def htmlWith (w : Widget) (s : DemoSection) : Text :=
  w.opening (Payload.ofBody s.body) (strip s.description) ++ s.listing ++ Widget.closing w.element

/-- Each section is written as it is, whatever stands before it. -/
theorem page_look (spelling : Slug.Transliteration) (w : Widget) (ss : List DemoSection) :
    Html.page ((defaultEngine spelling).look w []) (ss.map block) = ss.flatMap (htmlWith w) := by
  rw [Html.page, blocks_block rfl rfl]
  refine congrArg ss.flatMap (funext fun s => ?_)
  change w.opening _ (Marker.description _) ++ _ ++ _ = _
  rw [Marker.description_keyword]
  rfl

/-- A page of demos, made with a widget element. -/
theorem render_with (spelling : Slug.Transliteration) {settings : WidgetSettings} {w : Widget}
    (hw : settings.widget = .ok w) (ss : List DemoSection)
    (hreadable : Source.readable (page ss) = page ss) :
    { defaultEngine spelling with widget := settings }.render [] (page ss) =
      .ok ⟨ss.flatMap (htmlWith w), ss.map fun s => Payload.ofBody s.body, []⟩ := by
  have hdepth : (defaultEngine spelling).grammar.dialect.depth = 18 + 2 := rfl
  have hread := readPage_page (readsDemos_default spelling) hdepth ss
  have hpayloads : Engine.payloads (ss.map block) = ss.map fun s => Payload.ofBody s.body := by
    rw [Engine.payloads, allBodies_map_block, List.map_map]
    rfl
  rw [Engine.render, hreadable, hread]
  simp only [allBodies_map_block, hpayloads, List.nil_append]
  -- the widget element is looked up only if there is a demo
  cases ss with
  | nil => rfl
  | cons s ss =>
    have hne : ¬ (s :: ss).map body = [] := by simp
    rw [if_neg hne, hw, ← page_look spelling]
    rfl

/-- So the page is rendered section by section. -/
theorem render_page (spelling : Slug.Transliteration) (ss : List DemoSection)
    (hreadable : Source.readable (page ss) = page ss) :
    (defaultEngine spelling).render [] (page ss) =
      .ok ⟨ss.flatMap html, ss.map fun s => Payload.ofBody s.body, []⟩ :=
  render_with spelling (w := defaultWidget) rfl ss hreadable

theorem not_mem_page {c : Char} (hc : c ∈ ['\r', '\x00']) (ss : List DemoSection) :
    c ∉ page ss := by
  intro h
  obtain ⟨s, -, h⟩ := List.mem_flatMap.1 h
  exact s.not_mem_text hc h

/-- A page begins with a colon, if with anything. -/
theorem head?_page (ss : List DemoSection) : (page ss).head? ≠ some (Char.ofNat 0xFEFF) := by
  cases ss with
  | nil => exact fun h => nomatch h
  | cons s ss =>
    have h : (page (s :: ss)).head? = some ':' := rfl
    rw [h]
    decide

/-- A page of demos is read as it is. -/
theorem clean_page (ss : List DemoSection) :
    Source.clean (page ss) = page ss ∧ Source.readable (page ss) = page ss := by
  have hreturn : '\r' ∉ page ss := not_mem_page (by decide) ss
  have hnull : '\x00' ∉ page ss := not_mem_page (by decide) ss
  exact ⟨Source.clean_eq_self hreturn (head?_page ss), Source.readable_eq_self hreturn hnull⟩

/-- **A page of demos.** With the default configuration, its HTML is the HTML of its sections, one
after the other: for each of them the markup of the event that opens the demo, the listing of the
source, and the closing tags. The payloads are those of the sources. -/
theorem page_eq (spelling : Slug.Transliteration) (ss : List DemoSection) :
    ∃ pieces, ss.mapM markup = .ok pieces ∧
      Session.page spelling Config.default false (page ss) =
        .ok ⟨pieces.flatten, ss.map fun s => Payload.ofBody s.body⟩ := by
  have hmarkup : markup = fun s => pure s.html := funext markup_eq
  refine ⟨ss.map html, hmarkup ▸ List.mapM_pure, ?_⟩
  rw [Session.page, ofConfig_default, (clean_page ss).1]
  simp only [Except.bind, bind]
  rw [render_page spelling ss (clean_page ss).2, ← List.flatMap_def]
  rfl

/-- A demo whose source has an empty line, a tab and an empty assignment in it. -/
def tabbed : DemoSection where
  description := " A *tab* ".toList
  body := "\n\t<p title=\"\"> :: </p>\n".toList
  description_plain := forall_mem_of_all (by decide)
  body_plain := forall_mem_of_all (by decide)
  body_whole := Or.inr rfl
  body_colons := by
    rw [← has_iff]
    decide
  body_fences := by
    rw [← has_iff]
    decide

theorem page_eq_tabbed :
    ∃ html, Session.page Slug.spelling Config.default false (page [tabbed, tabbed]) =
      .ok ⟨html, [Payload.ofBody tabbed.body, Payload.ofBody tabbed.body]⟩ ∧
    Payload.ofBody tabbed.body = ⟨"\n\t<p title> :: </p>\n".toList, [], []⟩ := by
  obtain ⟨pieces, -, h⟩ := page_eq Slug.spelling [tabbed, tabbed]
  exact ⟨pieces.flatten, h, by decide +kernel⟩

end DemoSection

end Showcase

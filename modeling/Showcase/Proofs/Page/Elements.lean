import Showcase.Proofs.Markup.RawFree
import Showcase.Proofs.Outline.HasHeadings
import Showcase.Proofs.Page.Listing
import Showcase.Proofs.Page.Slug

/-!
# Elements on pages

What a page writes besides headings brings no heading into an outline: inline content
(`hasHeadings_inlines`), listings and tables. Elements with other blocks in them bring in the
headings of these (`hasHeadings_around`). The names of headings are the only ones that name a level
(`level?_headingName`).

All of this is about content without raw HTML, and about tags that are closed with a slash where
nothing stands in them.
-/

namespace Showcase.Html

open Document Outline

variable {isDemo : Text → Bool} {hs : List HeadingTag} {name attributes content a : Text}
  {as : List Quoted}

/-! ## Tags -/

/-- A start tag is read as one token, with its attributes unquoted. -/
theorem isRead_startTag (hname : isOrdinary name = true) (has : IsQuoted attributes as) :
    IsRead ('<' :: (name ++ (attributes ++ ['>'])))
      [.opening name (as.map Quoted.asRead) false] := by
  have hlower : Text.lower name = name := (isName_of_isOrdinary hname).lower
  have hverbatim : isVerbatim (Text.lower name) = false := hlower.symm ▸ (of_isOrdinary hname).2.2
  have h := IsRead.opening (isTagName_of_isOrdinary hname) has.2 false false (Or.inr hverbatim)
  rwa [hlower, ← has.1] at h

/-- An end tag is read as one token. -/
theorem isRead_endTag (hname : isOrdinary name = true) :
    IsRead ('<' :: '/' :: (name ++ ['>'])) [.closing name] := by
  have h := IsRead.closing (isTagName_of_isOrdinary hname)
  rwa [(isName_of_isOrdinary hname).lower] at h

/-- **An element** as pages write it. -/
theorem hasHeadings_element (hname : isOrdinary name = true) (has : IsQuoted attributes as)
    (h : HasHeadings isDemo content hs) :
    HasHeadings isDemo (element name attributes content)
      (Lists.own name (as.map Quoted.asRead) ++ hs) := by
  have := h.element (isRead_startTag hname has) (isRead_endTag hname) (of_isOrdinary hname).2.1
  have e : element name attributes content =
      '<' :: (name ++ (attributes ++ ['>'])) ++ (content ++ '<' :: '/' :: (name ++ ['>'])) := by
    have hend : "</".toList = ['<', '/'] := rfl
    rw [element, hend]
    simp only [List.cons_append, List.append_assoc, List.nil_append]
  rwa [e]

/-- An element that is no heading. -/
theorem hasHeadings_between (hname : isOrdinary name = true) (hlevel : level? name = none)
    (has : IsQuoted attributes as) (h : HasHeadings isDemo content hs) :
    HasHeadings isDemo (element name attributes content) hs := by
  have := hasHeadings_element hname has h
  rwa [Lists.own_eq_nil hlevel] at this

/-- An element that is no heading brings in the headings of its content. -/
theorem hasHeadings_line (hname : isOrdinary name = true) (hlevel : level? name = none)
    (has : IsQuoted attributes as) (h : HasHeadings isDemo content hs) :
    HasHeadings isDemo (line name attributes content) hs :=
  (hasHeadings_between hname hlevel has h).append_text (by decide)

/-- **An element with blocks** in it. -/
theorem hasHeadings_around (hname : isOrdinary name = true) (hlevel : level? name = none)
    (has : IsQuoted attributes as) (h : HasHeadings isDemo content hs) :
    HasHeadings isDemo (around name attributes content) hs := by
  have hfeed : '<' ∉ if content = [] then [] else ['\n'] := by split <;> decide
  have hinside := h.text_append hfeed
  have e : around name attributes content =
      element name attributes ((if content = [] then [] else ['\n']) ++ content) ++ ['\n'] := by
    have hstart : (if content = [] then ['>'] else ['>', '\n']) =
        '>' :: if content = [] then [] else ['\n'] := by split <;> rfl
    have hend : "</".toList = ['<', '/'] := rfl
    rw [around, element, hstart, hend]
    simp only [List.cons_append, List.append_assoc, List.nil_append]
  rw [e]
  exact (hasHeadings_between hname hlevel has hinside).append_text (by decide)

/-- A tag that closes itself. -/
theorem hasHeadings_empty {d : Dialect} (hd : d.slashes = true) (hname : IsTagName name)
    (hlevel : level? (Text.lower name) = none) (has : IsQuoted attributes as) :
    HasHeadings isDemo ('<' :: (name ++ (attributes ++ emptyEnd d))) [] := by
  have hread := IsRead.opening hname has.2 true true (Or.inl rfl)
  have hend : emptyEnd d = spacedEnd true true [] := by
    rw [emptyEnd, hd]
    rfl
  have hlists : Lists isDemo [.opening (Text.lower name) (as.map Quoted.asRead) true] _ :=
    .single (Or.inl rfl)
  rw [Lists.own_eq_nil hlevel] at hlists
  rw [hend, has.1]
  exact HasHeadings.of_isRead hread hlists

/-! ## Names of headings -/

theorem of_mem_headingName {n : Nat} {c : Char} (h : c ∈ headingName n) :
    c = 'h' ∨ Text.isDigit c = true :=
  (List.mem_cons.1 h).imp id Text.isDigit_of_mem_ofNat

theorem lowerChar_digit {c : Char} (h : Text.isDigit c = true) : Text.lowerChar c = [c] :=
  Text.forall_alphanumeric (P := fun c => Text.isDigit c = true → Text.lowerChar c = [c])
    (by decide) (by rw [h, Bool.or_true]) h

/-- No element without content has the name of a heading: the only one whose name begins in the same
way has a letter after that. -/
theorem isVoid_headingName (n : Nat) : isVoid (headingName n) = false := by
  have hall : ∀ s ∈ ["area", "base", "br", "col", "embed", "hr", "img", "input", "keygen",
      "link", "menuitem", "meta", "param", "source", "track", "wbr", "basefont", "bgsound",
      "command", "frame", "image", "isindex", "nextid", "spacer"],
      s.toList.head? = some 'h' → 'r' ∈ s.toList := by decide
  refine decide_eq_false fun hmem => ?_
  have h := hall _ hmem
  rw [String.toList_ofList] at h
  rcases of_mem_headingName (h rfl) with h | h
  · exact absurd h (by decide)
  · exact absurd h (by decide)

/-- The name of a heading is that of an ordinary element, whatever its level. -/
theorem isOrdinary_headingName (n : Nat) : isOrdinary (headingName n) = true := by
  have htag : IsTagName (headingName n) := isTagName_of_forall (c := 'h') rfl fun c hc => by
    rcases of_mem_headingName hc with rfl | h
    · rfl
    · rw [h, Bool.or_true, Bool.true_or]
  have hlower : Text.lower (headingName n) = headingName n := Text.lower_eq_self fun c hc => by
    rcases of_mem_headingName hc with rfl | h
    · decide
    · exact lowerChar_digit h
  have hwhole : (headingName n).all (!Tag.endsName ·) = true :=
    List.all_eq_true.2 fun c hc => by rw [htag.whole c hc]; rfl
  have hclosing := htag.closing
  rw [hlower] at hclosing
  rw [isOrdinary, hwhole, hlower, hclosing, isVoid_headingName]
  simp only [beq_self_eq_true]
  rfl

/-- **A heading's name** tells its level and no other. -/
theorem level?_headingName {n l : Nat} (h : level? (headingName n) = some l) : l = n := by
  rw [headingName, level?.eq_def] at h
  split at h
  · next c hc =>
    split at h
    · next hrange =>
      obtain rfl := Option.some.inj h
      -- the digit is one of six, so its number can be looked up
      have hdigit : Text.ofNat (c.toNat - 48) = [c] := by
        have hc' : c.toNat < 128 := Nat.lt_of_le_of_lt (m := 54) hrange.2 (by decide)
        exact Text.forall_ascii
          (P := fun c => '1' ≤ c ∧ c ≤ '6' → Text.ofNat (c.toNat - 48) = [c]) (by decide)
          hc' hrange
      exact Text.ofNat_injective (hdigit.trans (List.cons.inj hc).2.symm)
    · cases h
  · cases h

/-! ## Inline content -/

theorem isQuoted_optional {key : Text} (h : isAttributeName key = true) (value : Text) :
    ∃ as, IsQuoted (optional key value) as := by
  rw [optional]
  split
  · exact ⟨_, isQuoted_nil⟩
  · exact ⟨_, isQuoted_attributeText h value⟩

/-- The attributes of a link are quoted, be it external or not. -/
theorem isQuoted_linkAttributes (isExternal : Text → Bool) (target : Target) :
    ∃ as, IsQuoted (linkAttributes isExternal target) as := by
  have hkeys : ∀ key ∈ ["href", "title", "target", "rel", "class"],
      isAttributeName key.toList = true := by decide
  have hhref := isQuoted_attributeText (hkeys "href" (by simp)) target.href
  obtain ⟨ts, htitle⟩ := isQuoted_optional (hkeys "title" (by simp)) target.title
  rw [linkAttributes]
  split
  · exact ⟨_, (hhref.append htitle).append
      (((isQuoted_attributeText (hkeys "target" (by simp)) _).append
        (isQuoted_attributeText (hkeys "rel" (by simp)) _)).append
        (isQuoted_attributeText (hkeys "class" (by simp)) _))⟩
  · exact ⟨_, (hhref.append htitle).append isQuoted_nil⟩

variable {d : Dialect}

theorem hasHeadings_lineBreak (hd : d.slashes = true) : HasHeadings isDemo (lineBreak d) [] := by
  have hname : IsTagName "br".toList :=
    isTagName_of_forall (c := 'b') (by decide) (Text.forall_mem_of_all (by decide))
  exact (hasHeadings_empty hd hname (by decide) isQuoted_nil).append_text (by decide)

theorem hasHeadings_image (hd : d.slashes = true) (target : Target) (alt : Text) :
    HasHeadings isDemo (image d target alt) [] := by
  have hkeys : ∀ key ∈ ["src", "alt", "title"], isAttributeName key.toList = true := by
    decide
  obtain ⟨ts, htitle⟩ := isQuoted_optional (hkeys "title" (by simp)) target.title
  have hname : IsTagName "img".toList :=
    isTagName_of_forall (c := 'i') (by decide) (Text.forall_mem_of_all (by decide))
  have hquoted := ((isQuoted_attributeText (hkeys "src" (by simp)) target.href).append
    (isQuoted_attributeText (hkeys "alt" (by simp)) alt)).append htitle
  have himage : image d target alt = '<' :: ("img".toList ++
      ((attributeText "src".toList target.href ++ attributeText "alt".toList alt ++
        optional "title".toList target.title) ++ emptyEnd d)) := by
    simp only [← List.append_assoc]
    rfl
  exact himage ▸ hasHeadings_empty hd hname (by decide) hquoted

mutual

/-- **Inline content without raw HTML brings in no heading.** -/
theorem hasHeadings_inline (hd : d.slashes = true) (isExternal : Text → Bool) :
    ∀ i : Inline, i.isRawFree = true → HasHeadings isDemo (inline d isExternal i) []
  | .text t, _ => .escape t
  | .special t, _ => .escape t
  | .softBreak, _ => by
    rw [inline]
    split
    · exact hasHeadings_lineBreak hd
    · exact .text (by decide)
  | .hardBreak, _ => hasHeadings_lineBreak hd
  | .code t, _ => hasHeadings_between (by decide) rfl isQuoted_nil (.escape t)
  | .html _, h => nomatch h
  | .emphasis _ c, h =>
    hasHeadings_between (by decide) rfl isQuoted_nil (hasHeadings_inlines hd isExternal c h)
  | .strong c, h =>
    hasHeadings_between (by decide) rfl isQuoted_nil (hasHeadings_inlines hd isExternal c h)
  | .strike c, h =>
    hasHeadings_between (by decide) rfl isQuoted_nil (hasHeadings_inlines hd isExternal c h)
  | .link target c, h => by
    obtain ⟨as, has⟩ := isQuoted_linkAttributes isExternal target
    exact hasHeadings_between (by decide) rfl has (hasHeadings_inlines hd isExternal c h)
  | .image target c, _ => hasHeadings_image hd target (Inline.altTexts c)

/-- **Inline content** has no headings. -/
theorem hasHeadings_inlines (hd : d.slashes = true) (isExternal : Text → Bool) :
    ∀ l : List Inline, Inline.allRawFree l = true → HasHeadings isDemo (inlines d isExternal l) []
  | [], _ => .text List.not_mem_nil
  | i :: l, h => by
    rw [Inline.allRawFree, Bool.and_eq_true] at h
    exact (hasHeadings_inline hd isExternal i h.1).append (hasHeadings_inlines hd isExternal l h.2)

end

/-! ## Listings -/

/-- What a listing is read as lists nothing. -/
theorem lists_listingTokens (pre code : List Attribute) (content : Text) :
    Lists isDemo (tags (IsRead.listingTokens pre code content)) [] := by
  have hlevel : level? "pre".toList = none ∧ level? "code".toList = none := by decide
  have hvoid : isVoid "pre".toList = false ∧ isVoid "code".toList = false := by decide
  have hcode : Lists isDemo (.opening "code".toList code false ::
      ([] ++ [.closing "code".toList])) _ := Lists.nil.element hvoid.2
  have hpre : Lists isDemo (.opening "pre".toList pre false ::
      (_ ++ [.closing "pre".toList])) _ := hcode.element hvoid.1
  rw [Lists.own_eq_nil hlevel.1, Lists.own_eq_nil hlevel.2] at hpre
  -- of the tokens, only the tags matter to headings
  have e : tags (IsRead.listingTokens pre code content) =
      .opening "pre".toList pre false :: (.opening "code".toList code false ::
        ([] ++ [.closing "code".toList]) ++ [.closing "pre".toList]) := by
    rw [IsRead.listingTokens, tags_append, tags_letterTokens, List.append_nil]
    change _ :: _ :: tags (letterTokens content ++ _) = _
    rw [tags_append, tags_letterTokens]
    rfl
  rwa [e]

theorem hasHeadings_listing (has : IsQuoted attributes as) (content : Text) :
    HasHeadings isDemo (listing attributes content) [] :=
  HasHeadings.of_isRead (IsRead.listing has content) (lists_listingTokens _ _ content)

/-- A listing brings in no heading, also with all of its wrappers around it. -/
theorem hasHeadings_wrap_listing (value : Option Text) (content : Text) :
    HasHeadings isDemo (Listing.wrap [.markRaw, .highlight]
      (listing (value.elim [] (attributeText "class".toList)) content)) [] := by
  have h := IsRead.wrap_listing value content
  rw [IsRead.wrap_listing_eq] at h ⊢
  exact HasHeadings.of_isRead h (lists_listingTokens _ _ content)

/-- The class that names a language is the only attribute there may be. -/
theorem languageAttributes_eq (d : Dialect) (info : Text) :
    ∃ value : Option Text,
      languageAttributes d info = value.elim [] (attributeText "class".toList) := by
  rw [languageAttributes]
  split
  · exact ⟨none, rfl⟩
  · exact ⟨some _, rfl⟩

/-! ## Looks -/

/-- What a permalink shows. -/
def Permalink.symbol : Permalink → Text
  | .none => []
  | .before symbol => symbol
  | .after symbol => symbol

/-- What a look adds to a page is in order: empty elements are closed with a slash, permalinks show
text, tables begin with a tag, and listings are made ready for templates or left as they are. -/
structure Look.IsTidy (k : Look) : Prop where
  slashes : k.context.dialect.slashes = true
  symbol : ∀ a, k.anchors = some a → '<' ∉ a.permalink.symbol
  table : ∃ attributes as, IsQuoted attributes as ∧
    k.tableStart = '<' :: ("table".toList ++ (attributes ++ ['>']))
  wrappers : k.wrappers = [] ∨ k.wrappers = [.markRaw, .highlight]

/-- What a look puts around demos brings in no headings, if their live markup closes all that it
opens. -/
def Look.SparesDemos (isDemo : Text → Bool) (k : Look) : Prop :=
  ∀ (info source html : Text) (hs : List HeadingTag), Closes isDemo (Payload.ofBody source).html →
    HasHeadings isDemo html hs →
      HasHeadings isDemo (k.demoStart info source ++ html ++ k.demoEnd) hs

namespace Look.IsTidy

variable {k : Look} (hk : k.IsTidy)

include hk

/-- Inline content that is read without raw HTML brings in no heading. -/
theorem hasHeadings_source {source : Text} (h : Block.IsRawFreeSource k.context source) :
    HasHeadings isDemo (k.inlines source) [] :=
  hasHeadings_inlines hk.slashes k.isExternal _ h

theorem hasHeadings_fence (info content : Text) :
    HasHeadings isDemo (Html.fence k info content) [] := by
  obtain ⟨value, hvalue⟩ := languageAttributes_eq k.context.dialect info
  rw [Html.fence, hvalue]
  rcases hk.wrappers with hnone | hboth
  · have hclass : isAttributeName "class".toList = true := by decide
    rw [hnone]
    cases value with
    | none => exact hasHeadings_listing isQuoted_nil content
    | some value => exact hasHeadings_listing (isQuoted_attributeText hclass value) content
  · rw [hboth]
    exact hasHeadings_wrap_listing value content

/-- A row of a table brings in no heading, be its cells those of the head or of the body. -/
theorem hasHeadings_row {cellName : Text} (hname : isOrdinary cellName = true)
    (hlevel : level? cellName = none) (alignments : List Alignment) {cells : List Text}
    (hcells : ∀ c ∈ cells, Block.IsRawFreeSource k.context c) :
    HasHeadings isDemo (Html.row k cellName alignments cells) [] := by
  have hcell : ∀ x ∈ alignments.zip cells, HasHeadings isDemo
      (line cellName (alignmentAttributes x.1) (k.inlines x.2)) [] := by
    rintro ⟨alignment, c⟩ hx
    have hstyle : isAttributeName "style".toList = true := by decide
    -- the alignment is the only attribute that a cell may have
    have hquoted : ∃ as, IsQuoted (alignmentAttributes alignment) as := by
      cases alignment with
      | none => exact ⟨_, isQuoted_nil⟩
      | left => exact ⟨_, isQuoted_attributeText hstyle _⟩
      | center => exact ⟨_, isQuoted_attributeText hstyle _⟩
      | right => exact ⟨_, isQuoted_attributeText hstyle _⟩
    obtain ⟨as, has⟩ := hquoted
    exact hasHeadings_line hname hlevel has
      (hk.hasHeadings_source (hcells c (List.of_mem_zip hx).2))
  have hcells : HasHeadings isDemo ((alignments.zip cells).flatMap fun x =>
      line cellName (alignmentAttributes x.1) (k.inlines x.2)) [] := .flatMap hcell
  exact hasHeadings_around (by decide) rfl isQuoted_nil hcells

/-- **A table** has no headings. -/
theorem hasHeadings_table (alignments : List Alignment) {header : List Text}
    {rows : List (List Text)}
    (hheader : ∀ c ∈ header, Block.IsRawFreeSource k.context c)
    (hrows : ∀ r ∈ rows, ∀ c ∈ r, Block.IsRawFreeSource k.context c) :
    HasHeadings isDemo (Html.table k alignments header rows) [] := by
  obtain ⟨attributes, as, has, hstart⟩ := hk.table
  have htable : isOrdinary "table".toList = true := by decide
  have hhead : HasHeadings isDemo
      (around "thead".toList [] (Html.row k "th".toList alignments header)) [] :=
    hasHeadings_around (by decide) rfl isQuoted_nil
      (hk.hasHeadings_row (by decide) rfl alignments hheader)
  have hbody : HasHeadings isDemo (if rows = [] then [] else
      around "tbody".toList [] (rows.flatMap (Html.row k "td".toList alignments))) [] := by
    split
    · exact .text List.not_mem_nil
    · exact hasHeadings_around (by decide) rfl isQuoted_nil
        (.flatMap fun r hr => hk.hasHeadings_row (by decide) rfl alignments (hrows r hr))
  -- of the start tag it is only known that its attributes are quoted
  have h := (HasHeadings.between (isRead_startTag htable has) (isRead_endTag htable)
    (of_isOrdinary htable).2.1 rfl (hhead.append hbody)).append_text (t := ['\n']) (by decide)
  have hend : "</table>\n".toList = '<' :: '/' :: ("table".toList ++ ['>', '\n']) := rfl
  rw [Html.table, hstart, hend]
  simpa only [List.cons_append, List.append_assoc, List.nil_append] using h

end Look.IsTidy

end Showcase.Html

import Showcase.Proofs.Markup.Inline
import Showcase.Proofs.Markup.Reader
import Showcase.Proofs.Page.Widget

/-!
# The markup of descriptions

A description cannot bring markup of its own onto a page: wherever `<` stands in its HTML, one of
the tags begins that descriptions are written with, and no value of an attribute in these has
brackets or double quotes in it (`IsTagged`).

Text and values are escaped, so it is the tags around them that matter, one lemma for each kind of
element. What descriptions do not have is ruled out by their dialect and their grammar: raw HTML,
struck text, tables and containers (`gives_isPlain`, `reads_isTaggedBlock`).

Main statement: `isTagged_shown`.
-/

namespace Showcase.Description

/-! ## Tags -/

/-- The elements that descriptions are written with. -/
def elements : List Text :=
  ["p", "em", "strong", "code", "pre", "a", "img", "br", "hr", "ul", "ol", "li", "blockquote",
    "h1", "h2", "h3", "h4", "h5", "h6"].map String.toList

/-- The attributes of these elements. -/
def attributes : List Text := ["class", "href", "src", "alt", "title", "start"].map String.toList

/-- Attributes, each with its value between quotes. No value has brackets or quotes in it. -/
inductive AreAttributes : Text → Prop
  | nil : AreAttributes []
  | cons {name value rest : Text} (hname : name ∈ attributes)
      (hvalue : ∀ c ∈ value, c ≠ '<' ∧ c ≠ '>' ∧ c ≠ '"') (hrest : AreAttributes rest) :
      AreAttributes (' ' :: (name ++ '=' :: '"' :: (value ++ '"' :: rest)))

/-- The tags of descriptions. That of an element without content ends with a slash. -/
inductive IsTag : Text → Prop
  | opening {name as : Text} (hname : name ∈ elements) (has : AreAttributes as) :
      IsTag ('<' :: (name ++ as ++ ['>']))
  | empty {name as : Text} (hname : name ∈ elements) (has : AreAttributes as) :
      IsTag ('<' :: (name ++ as ++ [' ', '/', '>']))
  | closing {name : Text} (hname : name ∈ elements) : IsTag ('<' :: '/' :: (name ++ ['>']))

/-- Wherever `<` stands in the HTML, a tag begins. -/
def IsTagged (html : Text) : Prop :=
  ∀ before after, html = before ++ '<' :: after → ∃ tag rest, IsTag tag ∧ '<' :: after = tag ++ rest

variable {made more content name as t : Text}

/-- The names of elements have no angle brackets in them. -/
theorem lt_not_mem_of_mem_elements (h : name ∈ elements) : '<' ∉ name := by
  have hall : ∀ name ∈ elements, '<' ∉ name := by decide
  exact hall name h

/-- Nor do attributes, whose values are escaped. -/
theorem AreAttributes.lt_not_mem (h : AreAttributes as) : '<' ∉ as := by
  induction h with
  | nil => exact List.not_mem_nil
  | @cons name value rest hname hvalue _ ih =>
    have hall : ∀ name ∈ attributes, '<' ∉ name := by decide
    have hname := hall name hname
    have hvalue : '<' ∉ value := fun h => (hvalue '<' h).1 rfl
    simp [hname, hvalue, ih]

/-- Attributes may follow each other. -/
theorem AreAttributes.append {bs : Text} (h : AreAttributes as) (h' : AreAttributes bs) :
    AreAttributes (as ++ bs) := by
  induction h with
  | nil => exact h'
  | cons hname hvalue _ ih =>
    have := AreAttributes.cons hname hvalue ih
    simpa only [List.append_assoc, List.cons_append] using this

/-- A tag has no other one in it. -/
theorem IsTag.exists_eq_cons (h : IsTag t) : ∃ inside, t = '<' :: inside ∧ '<' ∉ inside := by
  cases h with
  | opening hname has =>
    refine ⟨_, rfl, ?_⟩
    simp [lt_not_mem_of_mem_elements hname, has.lt_not_mem]
  | empty hname has =>
    refine ⟨_, rfl, ?_⟩
    simp [lt_not_mem_of_mem_elements hname, has.lt_not_mem]
  | closing hname =>
    refine ⟨_, rfl, ?_⟩
    simp [lt_not_mem_of_mem_elements hname]

/-- Text without angle brackets has no tags. -/
theorem isTagged_of_not_mem (h : '<' ∉ made) : IsTagged made := by
  rintro before after rfl
  exact absurd (List.mem_append_right before List.mem_cons_self) h

/-- Nor has escaped text. -/
theorem isTagged_escape (t : Text) : IsTagged (Text.escape t) :=
  isTagged_of_not_mem (Document.lt_not_mem_escape t)

/-- A tag is a tagged text. -/
theorem IsTag.isTagged (h : IsTag t) : IsTagged t := by
  obtain ⟨inside, htag, hinside⟩ := h.exists_eq_cons
  rintro before after e
  cases before with
  | nil => exact ⟨t, [], h, by rw [List.append_nil, e, List.nil_append]⟩
  | cons c before =>
    rw [htag, List.cons_append] at e
    rw [(List.cons.inj e).2] at hinside
    exact absurd (List.mem_append_right before List.mem_cons_self) hinside

/-- Tagged texts may follow each other. -/
theorem IsTagged.append (h : IsTagged made) (h' : IsTagged more) : IsTagged (made ++ more) := by
  intro before after e
  rcases List.append_eq_append_iff.1 e with ⟨u, rfl, hu⟩ | ⟨u, rfl, hu⟩
  · exact h' u after hu
  · cases u with
    | nil => exact h' [] after hu.symm
    | cons c u =>
      -- the tag begins in the first text, and so it ends there
      obtain ⟨rfl, rfl⟩ := List.cons.inj hu
      obtain ⟨tag, rest, htag, e⟩ := h before u rfl
      have hmore : '<' :: (u ++ more) = tag ++ (rest ++ more) := by
        rw [← List.append_assoc, ← e, List.cons_append]
      exact ⟨tag, rest ++ more, htag, hmore⟩

/-- A line feed or another text without tags after the HTML. -/
theorem IsTagged.append_text (h : IsTagged made) (ht : '<' ∉ t) : IsTagged (made ++ t) :=
  h.append (isTagged_of_not_mem ht)

/-! ## Elements -/

/-- **An attribute.** -/
theorem areAttributes_attributeText (h : name ∈ attributes) (value : Text) :
    AreAttributes (Html.attributeText name value) := by
  have hall : ∀ name ∈ attributes, Text.escape name = name := by decide
  have hattribute : Html.attributeText name value =
      ' ' :: (name ++ '=' :: '"' :: (Text.escape value ++ '"' :: [])) := by
    have hequals : "=\"".toList = ['=', '"'] := rfl
    rw [Html.attributeText, hall name h, hequals]
    simp only [List.append_assoc, List.cons_append, List.nil_append]
  rw [hattribute]
  exact .cons h (fun c hc => Text.of_mem_escape hc) .nil

/-- An attribute that may be left out is an attribute or nothing. -/
theorem areAttributes_optional (h : name ∈ attributes) (value : Text) :
    AreAttributes (Html.optional name value) := by
  rw [Html.optional]
  split
  · exact .nil
  · exact areAttributes_attributeText h value

/-- **An element** around HTML. -/
theorem isTagged_element (hname : name ∈ elements) (has : AreAttributes as)
    (h : IsTagged content) : IsTagged (Html.element name as content) := by
  have helement : Html.element name as content =
      '<' :: (name ++ as ++ ['>']) ++ content ++ '<' :: '/' :: (name ++ ['>']) := by
    have hend : "</".toList = ['<', '/'] := rfl
    rw [Html.element, hend]
    simp only [List.append_assoc, List.cons_append, List.nil_append]
  rw [helement]
  exact ((IsTag.opening hname has).isTagged.append h).append (IsTag.closing hname).isTagged

/-- An element on a line of its own. -/
theorem isTagged_line (hname : name ∈ elements) (has : AreAttributes as)
    (h : IsTagged content) : IsTagged (Html.line name as content) :=
  (isTagged_element hname has h).append_text (by decide)

/-- An element with blocks in it. -/
theorem isTagged_around (hname : name ∈ elements) (has : AreAttributes as)
    (h : IsTagged content) : IsTagged (Html.around name as content) := by
  have hfeed : '<' ∉ if content = [] then [] else ['\n'] := by split <;> decide
  have haround : Html.around name as content =
      Html.line name as ((if content = [] then [] else ['\n']) ++ content) := by
    have hstart : (if content = [] then ['>'] else ['>', '\n']) =
        '>' :: if content = [] then [] else ['\n'] := by split <;> rfl
    rw [Html.around, Html.line, Html.element, hstart]
    simp only [List.cons_append, List.append_assoc, List.nil_append]
  rw [haround]
  exact isTagged_line hname has ((isTagged_of_not_mem hfeed).append h)

/-- **An element without content.** -/
theorem isTagged_empty (hname : name ∈ elements) (has : AreAttributes as) :
    IsTagged ('<' :: (name ++ as) ++ Html.emptyEnd Dialect.description) := by
  have h := (IsTag.empty hname has).isTagged
  rwa [← List.cons_append] at h

/-! ## Inline content -/

/-- The inline content is written with tags of descriptions, and so is what it emphasises. -/
structure IsPlain (i : Inline) : Prop where
  html : IsTagged (Html.inline Dialect.description (fun _ => false) i)
  emphasised : ∀ mark content, i = .emphasis mark content →
    IsTagged (Html.inlines Dialect.description (fun _ => false) content)

/-- Inline content without raw HTML is tagged. -/
theorem isTagged_inlines {l : List Inline} (h : ∀ i ∈ l, IsPlain i) :
    IsTagged (Html.inlines Dialect.description (fun _ => false) l) := by
  induction l with
  | nil => exact isTagged_of_not_mem List.not_mem_nil
  | cons i l ih =>
    obtain ⟨hi, hl⟩ := List.forall_mem_cons.1 h
    exact hi.html.append (ih hl)

/-- A link has a target, and possibly a title. -/
theorem areAttributes_linkAttributes (target : Target) :
    AreAttributes (Html.linkAttributes (fun _ => false) target) := by
  have hhref := areAttributes_attributeText (by decide : "href".toList ∈ attributes) target.href
  have htitle := areAttributes_optional (by decide : "title".toList ∈ attributes) target.title
  exact (hhref.append htitle).append .nil

theorem isTagged_lineBreak : IsTagged (Html.lineBreak Dialect.description) :=
  (isTagged_empty (by decide : "br".toList ∈ elements) .nil).append_text (by decide)

/-- An image has a tag and nothing in it. -/
theorem isTagged_image (target : Target) (alt : Text) :
    IsTagged (Html.image Dialect.description target alt) := by
  have hsrc := areAttributes_attributeText (by decide : "src".toList ∈ attributes) target.href
  have halt := areAttributes_attributeText (by decide : "alt".toList ∈ attributes) alt
  have htitle := areAttributes_optional (by decide : "title".toList ∈ attributes) target.title
  have h := isTagged_empty (by decide : "img".toList ∈ elements) ((hsrc.append halt).append htitle)
  have himage : Html.image Dialect.description target alt =
      '<' :: ("img".toList ++ (Html.attributeText "src".toList target.href ++
        Html.attributeText "alt".toList alt ++ Html.optional "title".toList target.title)) ++
        Html.emptyEnd Dialect.description := by
    simp only [← List.append_assoc, ← List.cons_append]
    rfl
  rwa [himage]

/-- **No inline content of a description** is raw HTML or struck text. -/
theorem gives_isPlain : Dialect.description.Gives IsPlain where
  text t := ⟨isTagged_escape t, nofun⟩
  special t := ⟨isTagged_escape t, nofun⟩
  softBreak := ⟨isTagged_of_not_mem (by decide), nofun⟩
  hardBreak := ⟨isTagged_lineBreak, nofun⟩
  code t := ⟨isTagged_element (by decide) .nil (isTagged_escape t), nofun⟩
  html hhtml := nomatch hhtml
  emphasis mark content hcontent := by
    have hinside := isTagged_inlines hcontent
    refine ⟨isTagged_element (by decide) .nil hinside, fun mark content e => ?_⟩
    cases e
    exact hinside
  -- strong text is emphasised text inside of emphasised text, whose inside is tagged already
  strong mark content h :=
    ⟨isTagged_element (by decide) .nil (h.emphasised mark content rfl), nofun⟩
  strike hstrikes := nomatch hstrikes
  link target content hcontent := by
    have has := areAttributes_linkAttributes target
    exact ⟨isTagged_element (by decide) has (isTagged_inlines hcontent), nofun⟩
  image target content _ := ⟨isTagged_image target _, nofun⟩

variable (definitions : Definitions)

/-- What a paragraph or a heading says is tagged. -/
theorem isTagged_source (source : Text) : IsTagged ((look definitions).inlines source) :=
  isTagged_inlines (Inline.forall_mem_read gives_isPlain source)

/-! ## Blocks -/

/-- Listings are tagged. -/
theorem isTagged_listing (has : AreAttributes as) (t : Text) : IsTagged (Html.listing as t) := by
  have hcode := isTagged_element (by decide : "code".toList ∈ elements) has (isTagged_escape t)
  have hpre := isTagged_line (by decide : "pre".toList ∈ elements) .nil hcode
  have hlisting : Html.listing as t = "<pre><code".toList ++ as ++
      '>' :: Text.escape t ++ "</code></pre>\n".toList := rfl
  have hstart : "<pre><code".toList = '<' :: ("pre".toList ++ '>' :: '<' :: "code".toList) := rfl
  have hend : "</code></pre>\n".toList =
      '<' :: '/' :: ("code".toList ++ '>' :: '<' :: '/' :: ("pre".toList ++ ['>', '\n'])) := rfl
  have hslash : "</".toList = ['<', '/'] := rfl
  rw [hlisting, hstart, hend]
  rw [Html.line, Html.element, Html.element, hslash] at hpre
  simpa only [List.append_assoc, List.cons_append, List.nil_append] using hpre

/-- The language of a listing is an attribute, if there is one. -/
theorem areAttributes_languageAttributes (d : Dialect) (info : Text) :
    AreAttributes (Html.languageAttributes d info) := by
  rw [Html.languageAttributes]
  split
  · exact .nil
  · exact areAttributes_attributeText (by decide) _

theorem areAttributes_startAttributes (start : Nat) :
    AreAttributes (Html.startAttributes start) := by
  rw [Html.startAttributes]
  split
  · exact .nil
  · exact areAttributes_attributeText (by decide) _

/-- There are elements for the six levels of headings. -/
theorem headingName_mem_elements {level : Nat} (h : 1 ≤ level) (h' : level ≤ 6) :
    Html.headingName level ∈ elements := by
  have hall : ∀ level ≤ 6, 1 ≤ level → Html.headingName level ∈ elements := by decide
  exact hall level h' h

/-- The block is written with tags of descriptions, wherever it stands. -/
def IsTaggedBlock (b : Block) : Prop :=
  ∀ bare taken, IsTagged (Html.block (look definitions) bare b taken).1

variable {definitions}

/-- Blocks in a row are tagged if each of them is. -/
theorem isTagged_blocks {bs : List Block} (h : ∀ b ∈ bs, IsTaggedBlock definitions b)
    (bare afterBare : Bool) (taken : List Text) :
    IsTagged (Html.blocks (look definitions) bare afterBare bs taken).1 := by
  induction bs generalizing afterBare taken with
  | nil => exact isTagged_of_not_mem List.not_mem_nil
  | cons b bs ih =>
    obtain ⟨hb, hbs⟩ := List.forall_mem_cons.1 h
    have hbefore : '<' ∉ if afterBare && Html.breaksLine b then ['\n'] else [] := by
      split <;> decide
    exact ((isTagged_of_not_mem hbefore).append (hb bare taken)).append (ih hbs _ _)

/-- And so are the items of a list. -/
theorem isTagged_items {is : List (List Block)}
    (h : ∀ i ∈ is, ∀ b ∈ i, IsTaggedBlock definitions b) (tight : Bool) (taken : List Text) :
    IsTagged (Html.items (look definitions) tight is taken).1 := by
  induction is generalizing taken with
  | nil => exact isTagged_of_not_mem List.not_mem_nil
  | cons i is ih =>
    obtain ⟨hi, his⟩ := List.forall_mem_cons.1 h
    -- what stands at the beginning of an item has no bracket
    have hstart : '<' ∉ Html.itemStart tight i := by
      rw [Html.itemStart.eq_def]
      split
      · exact List.not_mem_nil
      · split <;> decide
    have hinside := (isTagged_of_not_mem hstart).append (isTagged_blocks hi tight false taken)
    have hitem := isTagged_line (by decide : "li".toList ∈ elements) .nil hinside
    have hline (html : Text) : Html.line "li".toList [] html =
        "<li>".toList ++ html ++ "</li>\n".toList := by
      have hopening : "<li>".toList = '<' :: ("li".toList ++ ['>']) := rfl
      have hclosing : "</li>\n".toList = "</".toList ++ "li".toList ++ ['>', '\n'] := rfl
      rw [Html.line, Html.element, hopening, hclosing]
      simp only [List.append_assoc, List.cons_append, List.nil_append]
    rw [Html.items_cons]
    rw [hline, ← List.append_assoc] at hitem
    exact hitem.append (ih his _)

/-- **No block of a description** is raw HTML, a table or a container. -/
theorem reads_isTaggedBlock : grammar.Reads fun _ => IsTaggedBlock definitions where
  widen _ _ _ _ hpart := hpart
  become _ _ _ _ hpart := hpart
  paragraph _ source bare _ := by
    have hsource := isTagged_source definitions source
    cases bare with
    | false => exact isTagged_line (by decide) .nil hsource
    | true => exact hsource
  heading level h h' _ source _ _ :=
    isTagged_line (headingName_mem_elements h h') .nil (isTagged_source definitions source)
  thematicBreak _ _ _ :=
    (isTagged_empty (by decide : "hr".toList ∈ elements) .nil).append_text (by decide)
  code _ content _ _ := isTagged_listing .nil content
  fence _ info content _ _ := isTagged_listing (areAttributes_languageAttributes _ info) content
  html hhtml := nomatch hhtml
  table htables := nomatch htables
  quote _ content hcontent _ taken :=
    isTagged_around (by decide) .nil (isTagged_blocks hcontent false false taken)
  list _ start tight items hitems _ taken := by
    have hinside := isTagged_items hitems tight taken
    cases start with
    | none => exact isTagged_around (by decide) .nil hinside
    | some n => exact isTagged_around (by decide) (areAttributes_startAttributes n) hinside
  -- descriptions have no containers, so there is no demo to read
  demo _ _ _ _ _ hcolons hcontainer := by
    obtain ⟨-, hdemos, -⟩ | ⟨name, hname, -⟩ := Block.container_of_colons? hcolons
    · cases hdemos
    · cases hname
  notice _ hname := nomatch hname

/-- The HTML of a description is written with the tags of descriptions. -/
theorem isTagged_html (description : Text) : IsTagged (html description) :=
  isTagged_blocks (Block.forall_mem_readPage_lines reads_isTaggedBlock _) false false []

/-! ## Demos -/

/-- What a demo shows of its description: nothing if there is none. -/
def shown (description : Text) : Text := if description = [] then [] else html description

/-- What stands before the description in the opening half of a widget element. -/
def front (w : Widget) (payload : Payload) : Text :=
  '<' :: (w.element ++ " class=\"".toList ++ w.boxClass ++ "\" :".toList ++ w.property
    ++ "=\"".toList ++ payload.attributeText ++ "\">\n".toList
    ++ "<div class=\"source\" slot=\"source\">".toList ++ payload.html ++ "</div>\n".toList)

/-- **Descriptions are harmless.** The markup for an opening event has the HTML of the description
in it, and all tags there are those that descriptions are written with. -/
theorem isTagged_shown (description : Text) :
    IsTagged (shown description) ∧ ∀ (s : WidgetSettings) (body : Text),
      Event.markup s (.opening description body) = s.widget.map fun w =>
        front w (Payload.ofBody body) ++ shown description ++
          "<div class=\"highlight\" slot=\"highlight\">".toList := by
  refine ⟨?_, fun s body => ?_⟩
  · rw [shown]
    split
    · exact isTagged_of_not_mem List.not_mem_nil
    · exact isTagged_html description
  · rw [Event.markup]
    cases s.widget with
    | error failure => rfl
    | ok w => rfl

end Showcase.Description

import Showcase.Page.Engine
import Showcase.Proofs.Document.Piece

/-!
# Listings on pages

The two steps that change a listing edit its HTML as text, in the first place that fits. A listing
begins with its own tags, and its content is escaped, so it is these tags that are edited: `pre`
gets its mark, and `code` the class of the highlighter (`wrap_listing_class`, `wrap_listing_nil`).
No tags that the content or the language spell are touched.

Main statements: `Engine.fence_eq`, `IsRead.listing` and `IsRead.wrap_listing`.
-/

namespace Showcase

open Document

namespace Html

/-- Attributes that are written with their values in quotes. -/
def IsQuoted (attributes : Text) (as : List Quoted) : Prop :=
  attributes = as.flatMap Quoted.text ∧ ∀ q ∈ as, q.IsClosed

theorem isQuoted_nil : IsQuoted [] [] := ⟨rfl, fun _ h => absurd h List.not_mem_nil⟩

theorem IsQuoted.append {a b : Text} {as bs : List Quoted} (ha : IsQuoted a as)
    (hb : IsQuoted b bs) : IsQuoted (a ++ b) (as ++ bs) :=
  ⟨by rw [ha.1, hb.1, List.flatMap_append], List.forall_mem_append.2 ⟨ha.2, hb.2⟩⟩

/-- The name can be written as the name of an attribute. -/
def isAttributeName (key : Text) : Bool :=
  !key.isEmpty && key.all Tag.isAttributeChar && Text.escape key == key

/-- **An attribute** as pages write it. -/
theorem isQuoted_attributeText {key : Text} (h : isAttributeName key = true) (value : Text) :
    IsQuoted (attributeText key value) [⟨key, '"', Text.escape value⟩] := by
  simp only [isAttributeName, Bool.and_eq_true, beq_iff_eq] at h
  obtain ⟨⟨hne, hall⟩, hescape⟩ := h
  refine ⟨?_, List.forall_mem_singleton.2 ⟨?_, rfl, not_mem_escape value⟩⟩
  · rw [attributeText, hescape, List.flatMap_singleton, Quoted.text]
    simp
  · cases key with
    | nil => cases hne
    | cons c t =>
      obtain ⟨hc, ht⟩ := List.forall_mem_cons.1 (List.all_eq_true.1 hall)
      exact ⟨c, t, rfl, by rw [hc, Bool.true_or], ht⟩

/-! ## Marks and classes -/

theorem wrap_listing_class (value content : Text) :
    Listing.wrap [.markRaw, .highlight] (listing (attributeText "class".toList value) content) =
      "<pre v-pre><code class=\"hljs ".toList ++ (Text.escape value ++ '"' ::
        '>' :: Text.escape content) ++ "</code></pre>\n".toList := by
  have h : Listing.wrap [.markRaw, .highlight]
      (listing (attributeText "class".toList value) content) =
      "<pre v-pre><code class=\"hljs ".toList ++ (Text.escape value ++ ['"'] ++
        '>' :: Text.escape content ++ "</code></pre>\n".toList) := rfl
  rw [h]
  simp only [List.append_assoc, List.cons_append, List.nil_append]

theorem wrap_listing_nil (content : Text) :
    Listing.wrap [.markRaw, .highlight] (listing [] content) =
      "<pre v-pre><code class=\"hljs\">".toList ++ Text.escape content
        ++ "</code></pre>\n".toList := by
  -- there is no quote in the listing, so the form with a class is not there
  have hmarked : Listing.markRaw (listing [] content) =
      "<pre v-pre><code v-pre>".toList ++ Text.escape content ++ "</code></pre>\n".toList := rfl
  have hquote : '"' ∉ Listing.markRaw (listing [] content) := by
    have hends : ∀ t ∈ ["<pre v-pre><code v-pre>".toList, "</code></pre>\n".toList], '"' ∉ t := by
      decide
    rw [hmarked]
    intro h
    rcases List.mem_append.1 h with h | h
    · rcases List.mem_append.1 h with h | h
      · exact hends _ List.mem_cons_self h
      · exact not_mem_escape content h
    · exact hends _ (by simp) h
  have hhas : Text.has (Listing.markRaw (listing [] content)) "<code v-pre class=\"".toList =
      false := by
    refine Bool.eq_false_iff.2 fun h => hquote ?_
    exact (Text.has_iff.1 h).subset (by decide)
  have hwrap : Listing.wrap [.markRaw, .highlight] (listing [] content) =
      Listing.highlight (Listing.markRaw (listing [] content)) := rfl
  have hmark : Text.has ("<pre v-pre><code v-pre>".toList ++ Text.escape content
      ++ "</code></pre>\n".toList) "<code v-pre>".toList = true := rfl
  rw [hwrap, Listing.highlight, hhas, if_neg Bool.false_ne_true, hmarked, hmark, if_pos rfl]
  rfl

/-- The class of a fenced listing names its language, which is the first word of its info. -/
theorem languageAttributes_eq_ite (d : Dialect) (info : Text) :
    languageAttributes d info =
      if Text.isBlankText (Unescape.unescape info) then []
      else attributeText "class".toList
        (d.languageMark ++ Text.firstWord (Unescape.unescape info)) := by
  have h := Text.head?_words (Unescape.unescape info)
  rw [languageAttributes]
  split at h
  · next hblank => rw [List.head?_eq_none_iff.1 h, if_pos hblank]
  · next hblank =>
    obtain ⟨more, hwords⟩ := List.head?_eq_some_iff.1 h
    rw [hwords, if_neg hblank]

end Html

/-- **A fenced listing** on a page: whatever its info and its content are, the page has them
escaped, and its own tags around them are the only thing that is edited. -/
theorem Engine.fence_eq (e : Engine) (w : Widget) (definitions : Definitions)
    (info content : Text) :
    Html.fence (e.look w definitions) info content =
      (if Text.isBlankText (Unescape.unescape info) then "<pre v-pre><code class=\"hljs\">".toList
        else "<pre v-pre><code class=\"hljs ".toList ++
          Text.escape (e.grammar.dialect.languageMark ++
            Text.firstWord (Unescape.unescape info)) ++ "\">".toList) ++
        Text.escape content ++ "</code></pre>\n".toList := by
  have hlook : Html.fence (e.look w definitions) info content =
      Listing.wrap [.markRaw, .highlight]
        (Html.listing (Html.languageAttributes e.grammar.dialect info) content) := rfl
  have hend : "\">".toList = ['"', '>'] := rfl
  rw [hlook, Html.languageAttributes_eq_ite]
  split
  · exact Html.wrap_listing_nil content
  · rw [Html.wrap_listing_class, hend]
    simp only [List.append_assoc, List.cons_append, List.nil_append]

namespace Document.IsRead

open Html

/-- The tokens of a listing, given the attributes of its tags. -/
def listingTokens (pre code : List Attribute) (content : Text) : List Token :=
  .opening "pre".toList pre false :: .opening "code".toList code false ::
    (letterTokens content ++ [.closing "code".toList, .closing "pre".toList])
    ++ letterTokens ['\n']

theorem code_element {as : List Quoted} (has : ∀ q ∈ as, q.IsClosed) (content : Text) :
    IsRead ('<' :: ("code".toList ++ (as.flatMap Quoted.text ++
        '>' :: (Text.escape content ++ '<' :: '/' :: ("code".toList ++ ['>'])))))
      (.opening "code".toList (as.map Quoted.asRead) false ::
        (letterTokens content ++ [.closing "code".toList])) :=
  element (by decide) has (escape content)

/-- **A listing.** -/
theorem listing {attributes : Text} {as : List Quoted} (has : IsQuoted attributes as)
    (content : Text) :
    IsRead (Html.listing attributes content) (listingTokens [] (as.map Quoted.asRead) content) := by
  have hpre : isOrdinary "pre".toList = true := by decide
  have hnone : ∀ q ∈ ([] : List Quoted), q.IsClosed := fun _ h => absurd h List.not_mem_nil
  have hfeed : IsRead ['\n'] (letterTokens ['\n']) := plain (by decide)
  have h := (element hpre hnone (code_element has.2 content)).append hfeed
  have hlisting : Html.listing attributes content = "<pre><code".toList ++ attributes ++
      '>' :: Text.escape content ++ "</code></pre>\n".toList := rfl
  have hstart : "<pre><code".toList = '<' :: ("pre".toList ++ '>' :: '<' :: "code".toList) := rfl
  have hend : "</code></pre>\n".toList =
      '<' :: '/' :: ("code".toList ++ '>' :: '<' :: '/' :: ("pre".toList ++ ['>', '\n'])) := rfl
  rw [hlisting, has.1, hstart, hend, listingTokens]
  simpa only [List.flatMap_nil, List.map_nil, List.nil_append, List.cons_append, List.append_assoc]
    using h

/-- The class of a listing that the highlighter takes up, given the class that it had. -/
def highlightClass (value : Option Text) : Text := "hljs".toList ++ value.elim [] (' ' :: ·)

/-- The listing as it is edited: its two tags, its content and their closing tags. -/
theorem wrap_listing_eq (value : Option Text) (content : Text) :
    Listing.wrap [.markRaw, .highlight]
        (Html.listing (value.elim [] (attributeText "class".toList)) content) =
      '<' :: ("pre".toList ++ ' ' :: ("v-pre".toList ++ ['>'])) ++
        ('<' :: ("code".toList ++
          (([⟨"class".toList, '"', Text.escape (highlightClass value)⟩] : List Quoted).flatMap
            Quoted.text ++ '>' ::
              (Text.escape content ++ '<' :: '/' :: ("code".toList ++ ['>'])))) ++
        ('<' :: '/' :: ("pre".toList ++ ['>']) ++ ['\n'])) := by
  have hend : "</code></pre>\n".toList =
      '<' :: '/' :: ("code".toList ++ '>' :: '<' :: '/' :: ("pre".toList ++ ['>', '\n'])) := rfl
  have hstart : "<pre v-pre><code class=\"hljs".toList = '<' :: ("pre".toList ++ ' ' ::
      ("v-pre".toList ++ '>' :: '<' :: ("code".toList ++ ' ' :: ("class".toList ++
        '=' :: '"' :: "hljs".toList)))) := rfl
  -- without a language, the class is that of all listings alone
  cases value with
  | none =>
    have hhead : "<pre v-pre><code class=\"hljs\">".toList =
        "<pre v-pre><code class=\"hljs".toList ++ ['"', '>'] := rfl
    have hclass : Text.escape (highlightClass none) = "hljs".toList := rfl
    rw [Option.elim_none, wrap_listing_nil, hhead, hstart, hend, hclass]
    simp only [Quoted.text, List.flatMap_singleton, List.cons_append, List.append_assoc,
      List.nil_append]
  | some value =>
    have hhead : "<pre v-pre><code class=\"hljs ".toList =
        "<pre v-pre><code class=\"hljs".toList ++ [' '] := rfl
    have hclass : Text.escape (highlightClass (some value)) =
        "hljs".toList ++ ' ' :: Text.escape value := rfl
    rw [Option.elim_some, wrap_listing_class, hhead, hstart, hend, hclass]
    simp only [Quoted.text, List.flatMap_singleton, List.cons_append, List.append_assoc,
      List.nil_append]

/-- **A listing** ready for templates and highlighters. -/
theorem wrap_listing (value : Option Text) (content : Text) :
    IsRead (Listing.wrap [.markRaw, .highlight]
        (Html.listing (value.elim [] (attributeText "class".toList)) content))
      (listingTokens [("v-pre".toList, [])] [("class".toList, highlightClass value)] content) := by
  have hkeys : isAttributeName "class".toList = true := by decide
  have hclosed := (isQuoted_attributeText hkeys (highlightClass value)).2
  have hpre : isOrdinary "pre".toList = true := by decide
  have hname := isTagName_of_isOrdinary hpre
  have hlower : Text.lower "pre".toList = "pre".toList := (isName_of_isOrdinary hpre).lower
  have hlower' : Text.lower "v-pre".toList = "v-pre".toList ∧
      Text.lower "class".toList = "class".toList := by decide
  have hverbatim : isVerbatim (Text.lower "pre".toList) = false := by decide
  have hfeed : IsRead ['\n'] (letterTokens ['\n']) := plain (by decide)
  have hopening := @openingBare _ hname "v-pre".toList (by decide)
    (Text.forall_mem_of_all (by decide)) hverbatim
  have hread := hopening.append
    ((code_element hclosed content).append ((closing hname).append hfeed))
  rw [hlower, hlower'.1, List.map_singleton, Quoted.asRead, hlower'.2,
    Reference.expandAll_escape] at hread
  rw [wrap_listing_eq, listingTokens]
  simpa only [List.cons_append, List.append_assoc, List.nil_append] using hread

end Document.IsRead

end Showcase

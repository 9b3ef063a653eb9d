import Showcase.Demo.Payload
import Showcase.Proofs.TagBlock.Search

/-!
# Tags that close themselves

A tag such as `<script src="x.js"/>` has no content and no closing tag of its own. For the reader of
blocks it is an opening tag like any other, since what stands between the name and the `>` does not
matter to it. So everything depends on the text behind such a tag, at whatever distance: without a
closing tag there, the tag and all that follows it is plain text; with one, the tag opens a block
that reaches up to the first of them, and the markup in between is its content
(`self_closing_tags`). No block has a self-closing opening tag exactly if no closing tag stands
behind any self-closing tag that is met outside of blocks.

Where reading is outside of blocks is a matter of the parts of a text: they may be parted at every
place that no block lies across (`Parted`), and the parts before that place are the parts of the
text before it (`exists_of_parts_eq_append`).
-/

namespace Showcase.TagBlock

open Text

variable {name : Text}

/-! ## Texts in two pieces -/

/-- No block of the text `u ++ r` lies across the place between the two. -/
def Parted (name u r : Text) : Prop := parts name (u ++ r) = parts name u ++ parts name r

/-- Whether a block ends does not depend on the end of the text behind it. -/
theorem IsBlock.of_append {b : Block} {u r : Text} (h : IsBlock name b (u ++ r)) :
    IsBlock name b u where
  opening := h.opening
  closing := h.closing
  first s hs hsb tag ht hp := by
    refine h.first s hs hsb tag ht (hp.trans ?_)
    exact ⟨r, by simp only [List.append_assoc]⟩

/-- A block at the beginning of a text may become shorter in a longer text, but it does not go
away. -/
theorem block?_eq_none_of_append {t r : Text} (h : block? name (t ++ r) = none) :
    block? name t = none := by
  rcases ht : block? name t with _ | ⟨b, s⟩
  · rfl
  · obtain ⟨ho, rfl, hu⟩ := block?_eq_some_iff.1 ht
    obtain ⟨hc, -, -⟩ := untilClosing?_eq_some_iff.1 hu
    have hsome := isSome_block? ho hc b.content (s ++ r)
    rw [List.append_assoc, List.append_assoc, List.append_assoc] at h
    rw [h] at hsome
    cases hsome

/-- The first parts of a text are the parts of its beginning, and the others those of the rest. -/
theorem exists_of_parts_eq_append {t : Text} {ps qs : List Part} (h : parts name t = ps ++ qs) :
    ∃ u r, t = u ++ r ∧ parts name u = ps ∧ parts name r = qs := by
  induction ps generalizing t with
  | nil => exact ⟨[], t, rfl, parts_nil name, h⟩
  | cons p ps ih =>
    rcases hb : block? name t with _ | ⟨b, s⟩
    · cases t with
      | nil =>
        rw [parts_nil] at h
        cases h
      | cons c t =>
        rw [parts_cons_of_none hb, List.cons_append, List.cons.injEq] at h
        obtain ⟨rfl, h⟩ := h
        obtain ⟨u, r, rfl, rfl, rfl⟩ := ih h
        exact ⟨c :: u, r, rfl, parts_cons_of_none (block?_eq_none_of_append (t := c :: u) hb), rfl⟩
    · rw [parts_of_block hb, List.cons_append, List.cons.injEq] at h
      obtain ⟨rfl, h⟩ := h
      obtain ⟨u, r, rfl, rfl, rfl⟩ := ih h
      obtain rfl := eq_append_of_block? hb
      -- a block needs nothing of what follows it
      have hu := isBlock_iff.1 (isBlock_iff.2 hb).of_append
      exact ⟨b.text ++ u, r, (List.append_assoc ..).symm, parts_of_block hu, rfl⟩

/-- Where there is no block, all parts are characters. -/
theorem parts_of_not_hasBlock {t : Text} (h : ¬ HasBlock name t) :
    parts name t = t.map Part.char := by
  have e : parts name (t ++ []) = t.map Part.char ++ parts name [] := by
    refine parts_append_of_none fun s _ hst => ?_
    rw [List.append_nil, ← Option.not_isSome_iff_eq_none]
    exact fun hs => h ⟨s, hst, hs⟩
  rwa [parts_nil, List.append_nil, List.append_nil] at e

/-- Then nothing is stripped. -/
theorem strip_of_not_hasBlock {t : Text} (h : ¬ HasBlock name t) : strip name t = t := by
  rw [strip, parts_of_not_hasBlock h, flatMap_outside_map_char]

/-- Nor is anything fetched. -/
theorem fetch_of_not_hasBlock {t : Text} (h : ¬ HasBlock name t) : fetch name t = [] := by
  rw [fetch, parts_of_not_hasBlock h, flatMap_inside_map_char]

theorem fetch_of_block {t r : Text} {b : Block} (h : block? name t = some (b, r)) :
    fetch name t = b.content ++ fetch name r := by
  rw [fetch, parts_of_block h]
  rfl

theorem exists_of_parts_eq_block {t : Text} {b : Block} {ps : List Part}
    (h : parts name t = .block b :: ps) : ∃ r, block? name t = some (b, r) := by
  rcases hb : block? name t with _ | ⟨b', r⟩
  · cases t with
    | nil =>
      rw [parts_nil] at h
      cases h
    | cons c t =>
      rw [parts_cons_of_none hb] at h
      cases h
  · rw [parts_of_block hb] at h
    cases h
    exact ⟨r, rfl⟩

/-- A block that is found is one. -/
theorem isBlock_of_block? {t r : Text} {b : Block} (h : block? name t = some (b, r)) :
    IsBlock name b r := by
  obtain rfl := eq_append_of_block? h
  exact isBlock_iff.2 h

/-! ## Behind an opening tag -/

/-- A closing tag stands somewhere in the text. -/
def HasClosing (name t : Text) : Prop := ∃ closing, IsClosing name closing ∧ closing <:+: t

theorem hasClosing_iff {t : Text} :
    HasClosing name t ↔ (untilClosing? name t).isSome = true := by
  rw [untilClosing?_isSome_iff]
  constructor
  · rintro ⟨closing, h, a, r, rfl⟩
    exact ⟨a, closing, r, h, List.append_assoc ..⟩
  · rintro ⟨a, closing, r, h, rfl⟩
    exact ⟨closing, h, a, r, List.append_assoc ..⟩

/-- An opening tag that begins within another one does not end before it: behind the name, the first
`>` is the end of both. -/
theorem prefix_of_isOpening {tag a s opening v r : Text} (ht : IsOpening name tag)
    (ho : IsOpening name opening) (htag : tag = a ++ s) (he : opening ++ v = s ++ r) :
    s <+: opening := by
  rcases List.append_eq_append_iff.1 he with ⟨w, rfl, rfl⟩ | ⟨w, rfl, rfl⟩
  · -- otherwise the tag would go on with a text `w` behind the end of the second one
    obtain ⟨n, x, hn, -, hx, e⟩ := ht
    obtain ⟨m, y, hm, -, -, rfl⟩ := ho
    rcases List.eq_nil_or_concat w with rfl | ⟨w, c, rfl⟩
    · exact ⟨[], by rw [List.append_nil, List.append_nil]⟩
    · have e' : ('<' :: n ++ x) ++ ['>'] = (a ++ '<' :: m ++ (y ++ '>' :: w)) ++ [c] := by
        simpa using e.symm.trans htag
      have e' := (List.append_inj' e' rfl).1
      have hsuf : y ++ '>' :: w <:+ x := by
        refine List.suffix_of_suffix_length_le (List.suffix_append _ _)
          (e' ▸ List.suffix_append _ x) ?_
        have hlen := congrArg List.length e'
        have hmn := hm.length_eq.trans hn.length_eq.symm
        simp only [List.length_append, List.length_cons] at hlen ⊢
        omega
      exact absurd (hsuf.subset (by simp)) hx
  · exact List.prefix_append s w

/-- Without a closing tag behind it, an opening tag is part of no block. -/
theorem not_hasBlock_of_isOpening {tag r : Text} (ht : IsOpening name tag)
    (h : ¬ HasClosing name r) : ¬ HasBlock name (tag ++ r) := by
  intro hb
  obtain ⟨a, opening, m, closing, d, ho, hc, e⟩ := hasBlock_iff.1 hb
  rcases List.append_eq_append_iff.1 e with ⟨w, rfl, rfl⟩ | ⟨s, hs, hr⟩
  · exact h ⟨closing, hc, w ++ opening ++ m, d, by simp only [List.append_assoc]⟩
  · -- the block begins within the tag, and its opening tag reaches to the end of it
    obtain ⟨w, rfl⟩ := prefix_of_isOpening ht ho hs hr
    rw [List.append_assoc, List.append_cancel_left_eq] at hr
    exact h ⟨closing, hc, w ++ m, d, by rw [← hr]; simp only [List.append_assoc]⟩

/-! ## Self-closing tags -/

/-- The tag ends as a tag without content does. -/
def IsSelfClosing (tag : Text) : Prop := ['/', '>'] <:+ tag

instance (tag : Text) : Decidable (IsSelfClosing tag) :=
  inferInstanceAs (Decidable (['/', '>'] <:+ tag))

/-- A self-closing tag stands in the text between `u` and `r`, and no block of the text has begun
before it and is still open there. -/
structure Meets (name t u tag r : Text) : Prop where
  /-- where it stands -/
  text_eq : t = u ++ (tag ++ r)
  /-- it is read as an opening tag of the name -/
  opening : IsOpening name tag
  /-- it closes itself -/
  selfClosing : IsSelfClosing tag
  /-- it is outside of the blocks before it -/
  parted : Parted name u (tag ++ r)

section

variable {t u tag r : Text}

/-- What is stripped before and after the tag is told apart. -/
theorem Meets.strip_eq (h : Meets name t u tag r) :
    strip name t = strip name u ++ strip name (tag ++ r) := by
  rw [h.text_eq, strip, h.parted, List.flatMap_append]
  rfl

/-- So is what is fetched. -/
theorem Meets.fetch_eq (h : Meets name t u tag r) :
    fetch name t = fetch name u ++ fetch name (tag ++ r) := by
  rw [h.text_eq, fetch, h.parted, List.flatMap_append]
  rfl

/-- Without a closing tag behind it, the tag stays, and so does all that follows. -/
theorem Meets.unclosed (h : Meets name t u tag r) (hc : ¬ HasClosing name r) :
    strip name t = strip name u ++ (tag ++ r) ∧ fetch name t = fetch name u := by
  have hb := not_hasBlock_of_isOpening h.opening hc
  constructor
  · rw [h.strip_eq, strip_of_not_hasBlock hb]
  · rw [h.fetch_eq, fetch_of_not_hasBlock hb, List.append_nil]

/-- With a closing tag behind it, the tag opens a block. -/
theorem Meets.closed (h : Meets name t u tag r) (hc : HasClosing name r) :
    ∃ content closing r', block? name (tag ++ r) = some (⟨tag, content, closing⟩, r') ∧
      r = content ++ (closing ++ r') := by
  obtain ⟨⟨content, closing, r'⟩, hu⟩ := Option.isSome_iff_exists.1 (hasClosing_iff.1 hc)
  obtain ⟨-, rfl, -⟩ := untilClosing?_eq_some_iff.1 hu
  exact ⟨content, closing, r', block?_eq_some_iff.2 ⟨h.opening, rfl, hu⟩, rfl⟩

/-- A self-closing tag that opens a block is met, and a closing tag stands behind it. -/
theorem exists_meets_of_mem {b : Block} (h : Part.block b ∈ parts name t)
    (hs : IsSelfClosing b.opening) : ∃ u r, Meets name t u b.opening r ∧ HasClosing name r := by
  obtain ⟨ps, qs, e⟩ := List.append_of_mem h
  obtain ⟨u, v, rfl, rfl, hv⟩ := exists_of_parts_eq_append e
  rw [← hv] at e
  obtain ⟨r', hb⟩ := exists_of_parts_eq_block hv
  obtain ⟨ho, rfl, hu⟩ := block?_eq_some_iff.1 hb
  exact ⟨u, _, ⟨rfl, ho, hs, e⟩, hasClosing_iff.2 (Option.isSome_of_eq_some hu)⟩

end

/-- **What becomes of self-closing tags.** No block has one for its opening tag exactly if no
closing tag stands behind one that is met outside of blocks. Each that is met there is plain text,
and so is everything behind it, if no closing tag follows; else it opens a block up to the first
one, which is removed and read like any other block. -/
theorem self_closing_tags (name t : Text) :
    ((∀ b, Part.block b ∈ parts name t → ¬ IsSelfClosing b.opening) ↔
      ∀ u tag r, Meets name t u tag r → ¬ HasClosing name r) ∧
    ∀ u tag r, Meets name t u tag r →
      (¬ HasClosing name r ∧ strip name t = strip name u ++ (tag ++ r) ∧
        fetch name t = fetch name u) ∨
      ∃ content closing r', IsBlock name ⟨tag, content, closing⟩ r' ∧
        r = content ++ (closing ++ r') ∧ strip name t = strip name u ++ strip name r' ∧
        fetch name t = fetch name u ++ (content ++ fetch name r') := by
  refine ⟨⟨fun h u tag r hm hc => ?_, fun h b hb hs => ?_⟩, fun u tag r hm => ?_⟩
  · obtain ⟨content, closing, r', hb, -⟩ := hm.closed hc
    refine h ⟨tag, content, closing⟩ ?_ hm.selfClosing
    rw [hm.text_eq, hm.parted, parts_of_block hb]
    exact List.mem_append_right _ (List.mem_cons_self ..)
  · obtain ⟨u, r, hm, hc⟩ := exists_meets_of_mem hb hs
    exact h u b.opening r hm hc
  -- a self-closing tag is a tag like any other: it depends on what follows
  · by_cases hc : HasClosing name r
    · obtain ⟨content, closing, r', hb, hr⟩ := hm.closed hc
      refine .inr ⟨content, closing, r', isBlock_of_block? hb, hr, ?_, ?_⟩
      · rw [hm.strip_eq, strip_of_block hb]
      · rw [hm.fetch_eq, fetch_of_block hb]
    · exact .inl ⟨hc, hm.unclosed hc⟩

/-- What is read as one block: a self-closing tag, markup, and a block behind it. -/
def selfClosingBlock : Block where
  opening := "<script src=\"x.js\"/>".toList
  content := "<p>a</p><script>b".toList
  closing := "</script>".toList

/-- A self-closing tag opens a block, and the markup behind it is removed with the next block, as
part of its content. -/
theorem self_closing_tag_opens_block :
    selfClosingBlock.text = "<script src=\"x.js\"/><p>a</p><script>b</script>".toList ∧
      Part.block selfClosingBlock ∈ parts Payload.scriptTag selfClosingBlock.text ∧
      IsSelfClosing selfClosingBlock.opening ∧
      strip Payload.scriptTag selfClosingBlock.text = [] ∧
      fetch Payload.scriptTag selfClosingBlock.text = "<p>a</p><script>b".toList := by
  have h : block? Payload.scriptTag selfClosingBlock.text = some (selfClosingBlock, []) := by
    decide +kernel
  refine ⟨rfl, ?_, by decide, by decide +kernel, by decide +kernel⟩
  rw [parts_of_block h]
  exact List.mem_cons_self ..

end Showcase.TagBlock

import Showcase.Demo.Payload
import Showcase.Proofs.TagBlock.Sharing

/-!
# Splitting a source

A payload is made of a source that may have script blocks, style blocks and markup in any order.
Two questions are answered about the split.

**Does every text end up in one field?** The script blocks are removed first, then the style blocks
in what is left; both contents are read in the source itself. The removed blocks and the read ones
are the same exactly if no style block overlaps a script block and none is put together by the
removal of script blocks (`ofBody_shares_iff`). A style block in the text of a script is not removed
as one, and is read all the same (`style_in_script`).

**What is the payload of a source that was written with care?** A source is put together from
pieces: markup, script blocks and style blocks (`Piece`). If the contents of the blocks mention no
script or style tag, and neither does the markup, then the split gives back the pieces
(`ofBody_pieces`). The reason is that a tag begins with `<`, which no tag name has in it: so
whatever looks like the beginning of a tag lies within one block, or within the markup.
-/

namespace Showcase.Payload

open Text TagBlock

theorem isWord_scriptTag : IsWord scriptTag := forall_mem_of_all (by decide)

theorem isWord_styleTag : IsWord styleTag := forall_mem_of_all (by decide)

/-- Names are told apart by a place at which both have a letter, and not the same one. -/
theorem not_prefix_of_differs {name other : Text} {i : Nat} {c d : Char}
    (hname : (name.map fold)[i]? = some c) (hother : (other.map fold)[i]? = some d) (hne : c ≠ d)
    (x : Text) : ¬ name.map fold <+: other.map fold ++ x := by
  rintro ⟨r, h⟩
  obtain ⟨hi, -⟩ := List.getElem?_eq_some_iff.1 hname
  obtain ⟨hj, -⟩ := List.getElem?_eq_some_iff.1 hother
  have hat : (name.map fold ++ r)[i]? = (other.map fold ++ x)[i]? := by rw [h]
  rw [List.getElem?_append_left hi, List.getElem?_append_left hj, hname, hother] at hat
  exact hne (Option.some.inj hat)

/-- The name of styles does not begin like that of scripts. -/
theorem styleTag_differs (x : Text) : ¬ styleTag.map fold <+: scriptTag.map fold ++ x :=
  not_prefix_of_differs (i := 1) (c := 't') (d := 'c') rfl rfl (by decide) x

/-- The name of scripts does not begin like that of styles. -/
theorem scriptTag_differs (x : Text) : ¬ scriptTag.map fold <+: styleTag.map fold ++ x :=
  not_prefix_of_differs (i := 1) (c := 'c') (d := 't') rfl rfl (by decide) x

/-- The payload of a source that is shared out. -/
theorem ofBody_eq_of_sharing {body : Text} {segments : List Segment}
    (h : Sharing scriptTag styleTag body segments) :
    ofBody body =
      ⟨EmptyAttribute.drop (HexReference.restore (segments.flatMap Segment.outside)),
        segments.flatMap Segment.firstContent, segments.flatMap Segment.secondContent⟩ := by
  rw [ofBody, stripAll, List.foldl_cons, List.foldl_cons, List.foldl_nil, h.strip_strip,
    h.fetch_first, h.fetch_second]

/-- **What is removed is what is read**, exactly if the blocks of the source keep out of each
other's way. The script is always the content of the script blocks that are removed. The rest is
settled by whether the source is shared out: then the style is the content of the style blocks that
are removed after the script blocks, every character is in the markup or in one block, and every
block is reported once. -/
theorem ofBody_shares_iff (body : Text) :
    ((parts scriptTag body).flatMap Part.text = body ∧
      strip scriptTag body = (parts scriptTag body).flatMap Part.outside ∧
      (ofBody body).script = (parts scriptTag body).flatMap Part.inside) ∧
    ((∃ segments, Sharing scriptTag styleTag body segments) ↔
      Apart scriptTag styleTag body ∧ Uncrossed scriptTag styleTag body) ∧
    ∀ segments, Sharing scriptTag styleTag body segments →
      (ofBody body).style = fetch styleTag (strip scriptTag body) ∧
      body = segments.flatMap Segment.text ∧
      ofBody body =
        ⟨EmptyAttribute.drop (HexReference.restore (segments.flatMap Segment.outside)),
          segments.flatMap Segment.firstContent, segments.flatMap Segment.secondContent⟩ := by
  refine ⟨⟨text_parts scriptTag body, rfl, rfl⟩, exists_sharing_iff isWord_styleTag, ?_⟩
  intro segments h
  refine ⟨?_, h.text_eq, ofBody_eq_of_sharing h⟩
  rw [h.fetch_left]
  exact h.fetch_second

/-- A style block in the text of a script is read as style, although no style block is removed. -/
theorem style_in_script :
    (ofBody "<script><style>a</style></script>".toList).style = ['a'] ∧
      fetch styleTag (strip scriptTag "<script><style>a</style></script>".toList) = [] := by
  decide +kernel

/-- A style block beside a script block is shared out, although it has a tag of scripts in it. -/
theorem style_beside_script :
    (Apart scriptTag styleTag "<script>a</script><style><script>b</style>".toList ∧
      Uncrossed scriptTag styleTag "<script>a</script><style><script>b</style>".toList) ∧
    (ofBody "<script>a</script><style><script>b</style>".toList).style =
      fetch styleTag (strip scriptTag "<script>a</script><style><script>b</style>".toList) := by
  have h : Apart scriptTag styleTag "<script>a</script><style><script>b</style>".toList ∧
      Uncrossed scriptTag styleTag "<script>a</script><style><script>b</style>".toList := by
    decide +kernel
  obtain ⟨-, hiff, hall⟩ := ofBody_shares_iff "<script>a</script><style><script>b</style>".toList
  obtain ⟨segments, hs⟩ := hiff.2 h
  exact ⟨h, (hall segments hs).1⟩

/-! ## Sources written in pieces -/

/-- The names of the blocks in a source. -/
def tags : List Text := [scriptTag, styleTag]

/-- A block as an author writes it. -/
structure Written (name : Text) where
  /-- the name in the opening tag -/
  opened : Text
  /-- what follows it there -/
  attributes : Text
  /-- what stands between the tags -/
  content : Text
  /-- the name in the closing tag -/
  closed : Text
  /-- the white space that follows it there -/
  gap : Text
  /-- the name may be spelled in any case -/
  spells_opened : Spells name opened
  /-- attributes stand apart from the name -/
  attributes_apart : isApart attributes = true
  /-- and have no angle brackets in them -/
  attributes_plain : '<' ∉ attributes ∧ '>' ∉ attributes
  /-- the content has no tags of blocks in it -/
  content_quiet : ∀ tag ∈ tags,
    mentions ['<'] tag content = false ∧ mentions ['<', '/'] tag content = false
  /-- the name may be spelled in another case -/
  spells_closed : Spells name closed
  /-- white space only -/
  gap_blank : ∀ c ∈ gap, isBlank c = true

namespace Written

variable {name : Text}

/-- The opening tag, after its `<`. -/
def inner (w : Written name) : Text := w.opened ++ (w.attributes ++ ['>'])

/-- The closing tag, after its `<`. -/
def outer (w : Written name) : Text := '/' :: (w.closed ++ w.gap ++ ['>'])

/-- The block that is written. -/
def block (w : Written name) : Block := ⟨'<' :: w.inner, w.content, '<' :: w.outer⟩

/-- A written block as a text, with its two brackets in view. -/
theorem text_block (w : Written name) :
    w.block.text = '<' :: (w.inner ++ (w.content ++ '<' :: w.outer)) := by
  simp [Block.text, block]

/-- There is no bracket inside of a start tag that is written out. -/
theorem not_mem_inner (w : Written name) (hname : IsWord name) : '<' ∉ w.inner := by
  have h := w.spells_opened.not_mem hname (d := '<') (by decide) (by decide)
  simp [inner, h, w.attributes_plain.1]

/-- There is none inside of an end tag either. -/
theorem not_mem_outer (w : Written name) (hname : IsWord name) : '<' ∉ w.outer := by
  have h₁ := w.spells_closed.not_mem hname (d := '<') (by decide) (by decide)
  have h₂ : '<' ∉ w.gap := fun h => absurd (w.gap_blank '<' h) (by decide)
  simp [outer, h₁, h₂]

/-- A written block is found. -/
theorem block?_text (w : Written name) (hname : IsWord name) (htag : name ∈ tags) (r : Text) :
    block? name (w.block.text ++ r) = some (w.block, r) := by
  have ho : IsOpening name w.block.opening :=
    ⟨w.opened, w.attributes, w.spells_opened, w.attributes_apart, w.attributes_plain.2,
      by simp [block, inner]⟩
  have hc : IsClosing name w.block.closing :=
    ⟨w.closed, w.gap, w.spells_closed, w.gap_blank, rfl⟩
  refine block?_eq_some_iff.2 ⟨ho, by simp [Block.text], ?_⟩
  refine untilClosing?_eq_some_iff.2 ⟨hc, rfl, fun s hs hsc => ?_⟩
  -- the content mentions no closing tag, and none reaches into the one of the block
  rw [← Option.not_isSome_iff_eq_none, block, List.cons_append, closing?_append_tag hname hs,
    closing?_isSome_iff]
  rintro ⟨tag, ⟨n, g, hn, -, rfl⟩, hp⟩
  refine not_prefix_of_mentions (w.content_quiet name htag).2 hn hs hsc (List.IsPrefix.trans ?_ hp)
  simp

/-- A written block is read as characters for another name. -/
theorem parts_text (w : Written name) {other : Text} (hname : IsWord name) (hother : IsWord other)
    (htag : other ∈ tags) (hne : ∀ x, ¬ other.map fold <+: name.map fold ++ x) (r : Text) :
    parts other (w.block.text ++ r) = w.block.text.map Part.char ++ parts other r := by
  have hopen (v : Text) : block? other ('<' :: (w.inner ++ v)) = none := by
    refine block?_eq_none_of_not_prefix fun n hn hp => ?_
    have hp := (List.cons_prefix_cons.1 hp).2.map fold
    rw [hn.map_fold, inner, List.append_assoc, List.map_append, w.spells_opened.map_fold] at hp
    exact hne _ hp
  have hclose (v : Text) : block? other ('<' :: (w.outer ++ v)) = none := by
    refine block?_eq_none_of_not_prefix fun n hn hp => ?_
    have hp := (List.cons_prefix_cons.1 hp).2
    cases n with
    | nil =>
      -- only an empty name is spelled by an empty text
      refine hne [] ?_
      rw [List.length_eq_zero_iff.1 hn.length_eq.symm]
      exact List.nil_prefix
    | cons d n =>
      obtain rfl := (List.cons_prefix_cons.1 hp).1
      exact hn.not_mem hother (by decide) (by decide) (List.mem_cons_self ..)
  have e : w.block.text ++ r = '<' :: (w.inner ++ (w.content ++ '<' :: (w.outer ++ r))) := by
    simp [text_block]
  rw [e, parts_cons_of_none (hopen _), parts_append_of_not_mem (w.not_mem_inner hname),
    parts_append_of_mentions hother (w.content_quiet other htag).1, parts_cons_of_none (hclose _),
    parts_append_of_not_mem (w.not_mem_outer hname), text_block]
  simp only [List.map_cons, List.map_append, List.cons_append, List.append_assoc]

end Written

/-- A piece of a source. -/
inductive Piece
  | markup (t : Text)
  | script (w : Written scriptTag)
  | style (w : Written styleTag)

namespace Piece

/-- The text of a piece. -/
def text : Piece → Text
  | markup t => t
  | script w => w.block.text
  | style w => w.block.text

/-- The markup in a piece. -/
def markupText : Piece → Text
  | markup t => t
  | _ => []

/-- The script in a piece. -/
def scriptText : Piece → Text
  | script w => w.content
  | _ => []

/-- The style in a piece. -/
def styleText : Piece → Text
  | style w => w.content
  | _ => []

/-- What is left of a piece when script blocks are gone. -/
def leftText : Piece → Text
  | markup t => t
  | script _ => []
  | style w => w.block.text

/-- A piece as segments. -/
def segments : Piece → List Segment
  | markup t => t.map .char
  | script w => [.first w.block]
  | style w => [.second w.block]

end Piece

/-- What looks like the beginning of a tag in a source whose pieces are cut off at their first `<`
is in the markup already. -/
theorem cons_prefix_of_flatMap {name n s : Text} {f : Piece → Text} {ps : List Piece}
    (hf : ∀ p, f p = p.markupText ∨ ∃ v, f p = '<' :: v) (hname : IsWord name) (hn : Spells name n)
    (hs : s ≠ []) (h : '<' :: n <+: s ++ ps.flatMap f) :
    '<' :: n <+: s ++ ps.flatMap Piece.markupText := by
  induction ps generalizing s with
  | nil => exact h
  | cons p ps ih =>
    rw [List.flatMap_cons] at h ⊢
    rcases hf p with e | ⟨v, e⟩
    · rw [e, ← List.append_assoc] at h
      rw [← List.append_assoc]
      exact ih (by simp [hs]) h
    · rw [e, List.cons_append] at h
      exact (cons_prefix_of_append_tag hname hn hs h).trans (List.prefix_append s _)

/-- Markup that mentions no tag begins no block, whatever follows it. -/
theorem block?_eq_none_of_markup {name t : Text} {c : Char} {f : Piece → Text} {ps : List Piece}
    (hf : ∀ p, f p = p.markupText ∨ ∃ v, f p = '<' :: v) (hname : IsWord name)
    (h : mentions ['<'] name (c :: t ++ ps.flatMap Piece.markupText) = false) :
    block? name (c :: t ++ ps.flatMap f) = none := by
  refine block?_eq_none_of_not_prefix fun n hn hp => ?_
  have hp := cons_prefix_of_flatMap hf hname hn (List.cons_ne_nil c t) hp
  exact not_prefix_of_mentions h hn (by simp) (List.suffix_refl _) hp

theorem Piece.text_cut (p : Piece) : p.text = p.markupText ∨ ∃ v, p.text = '<' :: v := by
  cases p with
  | markup t => exact Or.inl rfl
  | script w => exact Or.inr ⟨_, w.text_block⟩
  | style w => exact Or.inr ⟨_, w.text_block⟩

theorem Piece.leftText_cut (p : Piece) :
    p.leftText = p.markupText ∨ ∃ v, p.leftText = '<' :: v := by
  cases p with
  | markup t => exact Or.inl rfl
  | script w => exact Or.inl rfl
  | style w => exact Or.inr ⟨_, w.text_block⟩

/-- What is taken from segments is taken from pieces, if the two agree on every piece. -/
theorem flatMap_segments {k : Segment → Text} {f : Piece → Text} (ps : List Piece)
    (h : ∀ p : Piece, p.segments.flatMap k = f p) :
    (ps.flatMap Piece.segments).flatMap k = ps.flatMap f := by
  rw [List.flatMap_assoc]
  exact congrArg ps.flatMap (funext h)

theorem flatMap_map_char {k : Segment → Text} (hk : ∀ c, k (.char c) = [c]) (t : Text) :
    (t.map Segment.char).flatMap k = t := by
  rw [List.flatMap_map, funext hk]
  exact List.flatMap_singleton' t

theorem flatMap_map_char_eq_nil {k : Segment → Text} (hk : ∀ c, k (.char c) = []) (t : Text) :
    (t.map Segment.char).flatMap k = [] := by
  rw [List.flatMap_map]
  exact List.flatMap_eq_nil_iff.2 fun c _ => hk c

/-- What is left of the segments is what is left of the pieces. -/
theorem flatMap_leftText (ps : List Piece) :
    (ps.flatMap Piece.segments).flatMap Segment.leftText = ps.flatMap Piece.leftText := by
  refine flatMap_segments ps fun p => ?_
  cases p with
  | markup t => exact flatMap_map_char (fun _ => rfl) t
  | script w => rfl
  | style w => exact List.append_nil _

/-- The characters outside of both kinds of blocks are those of the markup. -/
theorem flatMap_outside (ps : List Piece) :
    (ps.flatMap Piece.segments).flatMap Segment.outside = ps.flatMap Piece.markupText := by
  refine flatMap_segments ps fun p => ?_
  cases p with
  | markup t => exact flatMap_map_char (fun _ => rfl) t
  | script w => rfl
  | style w => rfl

/-- The contents of the scripts are those of the script pieces. -/
theorem flatMap_firstContent (ps : List Piece) :
    (ps.flatMap Piece.segments).flatMap Segment.firstContent = ps.flatMap Piece.scriptText := by
  refine flatMap_segments ps fun p => ?_
  cases p with
  | markup t => exact flatMap_map_char_eq_nil (fun _ => rfl) t
  | script w => exact List.append_nil _
  | style w => rfl

/-- The contents of the styles are those of the style pieces. -/
theorem flatMap_secondContent (ps : List Piece) :
    (ps.flatMap Piece.segments).flatMap Segment.secondContent = ps.flatMap Piece.styleText := by
  refine flatMap_segments ps fun p => ?_
  cases p with
  | markup t => exact flatMap_map_char_eq_nil (fun _ => rfl) t
  | script w => rfl
  | style w => exact List.append_nil _

/-- Markup in front of pieces that are shared out. -/
theorem sharing_append {ps : List Piece} (t : Text)
    (h : Sharing scriptTag styleTag (ps.flatMap Piece.text) (ps.flatMap Piece.segments))
    (hm : ∀ tag ∈ tags, mentions ['<'] tag (t ++ ps.flatMap Piece.markupText) = false) :
    Sharing scriptTag styleTag (t ++ ps.flatMap Piece.text)
      (t.map Segment.char ++ ps.flatMap Piece.segments) := by
  induction t with
  | nil => exact h
  | cons c t ih =>
    have hscript := hm scriptTag (by decide)
    have hstyle := hm styleTag (by decide)
    have ih := ih fun tag ht => mentions_of_suffix (hm tag ht) (List.suffix_cons c _)
    refine ih.cons_char ?_ ?_ ?_
    · exact block?_eq_none_of_markup Piece.text_cut isWord_scriptTag hscript
    · exact block?_eq_none_of_markup Piece.text_cut isWord_styleTag hstyle
    · -- when the scripts are gone, the rest of the source is cut off at `<` as well
      rw [ih.strip_first, List.flatMap_append, flatMap_map_char (fun _ => rfl), flatMap_leftText]
      exact block?_eq_none_of_markup Piece.leftText_cut isWord_styleTag hstyle

/-- **Pieces are segments**: the blocks that are found are those that were written. -/
theorem sharing_pieces (ps : List Piece)
    (hm : ∀ tag ∈ tags, mentions ['<'] tag (ps.flatMap Piece.markupText) = false) :
    Sharing scriptTag styleTag (ps.flatMap Piece.text) (ps.flatMap Piece.segments) := by
  induction ps with
  | nil => exact Sharing.nil scriptTag styleTag
  | cons p ps ih =>
    have ih := ih fun tag ht => mentions_of_suffix (hm tag ht) (List.suffix_append _ _)
    -- each piece is read whole, whatever follows it
    cases p with
    | markup t => exact sharing_append t ih hm
    | script w =>
      exact ih.cons_first (w.block?_text isWord_scriptTag (by decide) _)
        (w.parts_text isWord_scriptTag isWord_styleTag (by decide) styleTag_differs _)
    | style w =>
      exact ih.cons_second isWord_styleTag
        (w.parts_text isWord_styleTag isWord_scriptTag (by decide) scriptTag_differs _)
        (w.block?_text isWord_styleTag (by decide) _)

/-- **The split gives back the pieces**: the scripts and the styles in their order, and the markup
around them as one text. -/
theorem ofBody_pieces (ps : List Piece)
    (hm : ∀ tag ∈ tags, mentions ['<'] tag (ps.flatMap Piece.markupText) = false) :
    ofBody (ps.flatMap Piece.text) =
      ⟨EmptyAttribute.drop (HexReference.restore (ps.flatMap Piece.markupText)),
        ps.flatMap Piece.scriptText, ps.flatMap Piece.styleText⟩ := by
  rw [ofBody_eq_of_sharing (sharing_pieces ps hm), flatMap_outside, flatMap_firstContent,
    flatMap_secondContent]

/-- A script block with attributes, in mixed case. -/
def mixedScript : Written scriptTag where
  opened := "Script".toList
  attributes := " lang='ts'".toList
  content := "if (a < b) f()".toList
  closed := "SCRIPT".toList
  gap := [' ', '\n']
  spells_opened := rfl
  attributes_apart := rfl
  attributes_plain := by decide
  content_quiet := by decide
  spells_closed := rfl
  gap_blank := forall_mem_of_all (by decide)

/-- A bare style block. -/
def bareStyle : Written styleTag where
  opened := "style".toList
  attributes := []
  content := "b > i".toList
  closed := "style".toList
  gap := []
  spells_opened := rfl
  attributes_apart := rfl
  attributes_plain := by decide
  content_quiet := by decide
  spells_closed := rfl
  gap_blank := forall_mem_of_all (by decide)

/-- The blocks are taken out of the middle of a tag, whose halves come together. -/
theorem ofBody_pieces_interleaved :
    (∀ tag ∈ tags, mentions ['<'] tag
      ([.markup "<scr".toList, .style bareStyle, .script mixedScript, .markup "een>".toList].flatMap
        Piece.markupText) = false) ∧
    ofBody ([.markup "<scr".toList, .style bareStyle, .script mixedScript,
        .markup "een>".toList].flatMap Piece.text) =
      ⟨EmptyAttribute.drop (HexReference.restore "<screen>".toList), "if (a < b) f()".toList,
        "b > i".toList⟩ :=
  ⟨by decide, ofBody_pieces _ (by decide)⟩

end Showcase.Payload

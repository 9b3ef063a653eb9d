import Showcase.Proofs.TagBlock.Sharing
import Showcase.Proofs.Text.Search

/-!
# Blocks as matches of a pattern

Removing blocks and reading their contents are told here without a word about how a text is gone
over. A block is an opening tag, a content and a closing tag such that no closing tag begins in the
content (`IsBlock`); these are the matches of a pattern, and a search for the pattern splits every
text into blocks and the texts around them. The parts of a text are just these
(`parts_of_splits`), so what `strip` leaves are the texts around the blocks, and what `fetch` reads
are the contents of the same blocks (`exists_blocks`).

The name may be any text. One with a `<` or a `>` in it is of no use, but it is read by the same
rule.
-/

namespace Showcase.TagBlock

open Text

/-- A block of the name, where the text `r` follows it. -/
structure IsBlock (name : Text) (b : Block) (r : Text) : Prop where
  /-- it begins with an opening tag -/
  opening : IsOpening name b.opening
  /-- it ends with a closing tag -/
  closing : IsClosing name b.closing
  /-- no closing tag begins in the content -/
  first : ∀ s, s ≠ [] → s <:+ b.content →
    ∀ tag, IsClosing name tag → ¬ tag <+: s ++ (b.closing ++ r)

theorem closing?_eq_none_iff {name t : Text} :
    closing? name t = none ↔ ∀ tag, IsClosing name tag → ¬ tag <+: t := by
  rw [← Option.not_isSome_iff_eq_none, closing?_isSome_iff, not_exists]
  exact forall_congr' fun tag => not_and

theorem isBlock_iff {name r : Text} {b : Block} :
    IsBlock name b r ↔ block? name (b.text ++ r) = some (b, r) := by
  have e : b.text ++ r = b.opening ++ (b.content ++ (b.closing ++ r)) := by simp [Block.text]
  rw [block?_eq_some_iff, untilClosing?_eq_some_iff]
  constructor
  · intro h
    exact ⟨h.opening, e, h.closing, rfl, fun s hs hsb => closing?_eq_none_iff.2 (h.first s hs hsb)⟩
  · rintro ⟨ho, -, hc, -, hf⟩
    exact ⟨ho, hc, fun s hs hsb => closing?_eq_none_iff.1 (hf s hs hsb)⟩

/-- The pattern whose matches are the blocks of a name. -/
def blocks (name : Text) : Pattern Block where
  text := Block.text
  Finds := IsBlock name
  text_ne_nil h := List.length_pos_iff.1 (length_text_pos (isBlock_iff.1 h))
  unique h h' e := by
    have h := isBlock_iff.1 h
    rw [e, isBlock_iff.1 h'] at h
    exact (Prod.mk.inj (Option.some.inj h)).1.symm

theorem starts_blocks_iff {name t : Text} :
    (blocks name).Starts t ↔ (block? name t).isSome = true := by
  rw [Option.isSome_iff_exists]
  constructor
  · rintro ⟨b, r, h, rfl⟩
    exact ⟨(b, r), isBlock_iff.1 h⟩
  · rintro ⟨⟨b, r⟩, h⟩
    obtain rfl := eq_append_of_block? h
    exact ⟨b, r, isBlock_iff.2 h, rfl⟩

theorem parts_append_of_vacant {name u r : Text} (h : (blocks name).Vacant u r) :
    parts name (u ++ r) = u.map Part.char ++ parts name r := by
  refine parts_append_of_none fun s hs hsu => ?_
  rw [← Option.not_isSome_iff_eq_none, ← starts_blocks_iff]
  exact h s hs hsu

/-- The parts of a text are the blocks that a search finds, and the characters around them. -/
theorem parts_of_splits {name t u : Text} {bs : List (Block × Text)}
    (h : (blocks name).Splits t u bs) :
    parts name t = u.map Part.char ++ bs.flatMap fun b => .block b.1 :: b.2.map Part.char := by
  induction h with
  | @last u h =>
    have e := parts_append_of_vacant h
    rw [parts_nil, List.append_nil] at e
    exact e
  | @found t u v b bs h hb _ ih =>
    have hparts : parts name ((blocks name).text b ++ t) = .block b :: parts name t :=
      parts_of_block (isBlock_iff.1 hb)
    rw [parts_append_of_vacant h, hparts, ih]
    rfl

theorem strip_of_splits {name t u : Text} {bs : List (Block × Text)}
    (h : (blocks name).Splits t u bs) : strip name t = u ++ bs.flatMap Prod.snd := by
  rw [strip, parts_of_splits h, List.flatMap_append, flatMap_outside_map_char, List.flatMap_assoc]
  refine congrArg (fun f => u ++ bs.flatMap f) (funext fun b => ?_)
  exact flatMap_outside_map_char b.2

theorem fetch_of_splits {name t u : Text} {bs : List (Block × Text)}
    (h : (blocks name).Splits t u bs) : fetch name t = bs.flatMap fun b => b.1.content := by
  rw [fetch, parts_of_splits h, List.flatMap_append, flatMap_inside_map_char, List.nil_append,
    List.flatMap_assoc]
  refine congrArg bs.flatMap (funext fun b => ?_)
  rw [List.flatMap_cons, flatMap_inside_map_char, List.append_nil]
  rfl

/-- Only a text without a block stays as it is. -/
theorem strip_eq_self_iff_of_splits {name t u : Text} {bs : List (Block × Text)}
    (h : (blocks name).Splits t u bs) : strip name t = t ↔ bs = [] := by
  cases h with
  | last h =>
    have e := strip_of_splits (.last h)
    rw [List.flatMap_nil, List.append_nil] at e
    exact iff_of_true e rfl
  | @found t _ _ b _ hu hb ht =>
    refine iff_of_false (hasBlock_iff_strip_ne.1 ?_) (List.cons_ne_nil _ _)
    exact ⟨_, List.suffix_append u _, starts_blocks_iff.1 ⟨b, t, hb, rfl⟩⟩

/-- **Removing and reading see the same blocks**: those that a search of the text finds. -/
theorem exists_blocks (name t : Text) :
    ∃ u bs, (∀ u' bs', (blocks name).Splits t u' bs' ↔ u' = u ∧ bs' = bs) ∧
      t = u ++ bs.flatMap (fun b => b.1.opening ++ b.1.content ++ b.1.closing ++ b.2) ∧
      strip name t = u ++ bs.flatMap Prod.snd ∧
      fetch name t = bs.flatMap (fun b => b.1.content) ∧
      (strip name t = t ↔ bs = []) := by
  obtain ⟨u, bs, h⟩ := (blocks name).exists_splits t
  refine ⟨u, bs, h.iff, h.text_eq, strip_of_splits h, fetch_of_splits h, ?_⟩
  exact strip_eq_self_iff_of_splits h

end Showcase.TagBlock

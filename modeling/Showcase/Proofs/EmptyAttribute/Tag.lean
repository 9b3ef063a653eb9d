import Showcase.Proofs.EmptyAttribute.Drops
import Showcase.Proofs.Text.Basic
import Showcase.Proofs.Text.Search

/-!
# Tags as matches of a pattern

Between its brackets a tag has characters outside of quotes and quoted values (`Piece`, `Tag`). The
scanner that looks for the end of a tag finds exactly these (`tag?_text`, `exists_tag_of_tag?`), and
the pieces can be told from the text (`eq_of_textOf_eq`). So tags are the matches of a pattern
(`tags`), and a search for the pattern splits every text into tags and the texts around them.
-/

namespace Showcase.EmptyAttribute

open Text

/-! ## Tags -/

/-- A piece of a tag. -/
inductive Piece
  /-- a character outside of quotes -/
  | plain (c : Char)
  /-- a value and the mark before and after it -/
  | quoted (mark : Char) (value : Text)
  deriving DecidableEq

namespace Piece

/-- The text of a piece. -/
def text : Piece → Text
  | plain c => [c]
  | quoted mark value => mark :: (value ++ [mark])

/-- Outside of quotes there is no bracket and no quote, and a value ends at the first mark. -/
def IsSound : Piece → Prop
  | plain c => c ∉ ['<', '>', '"', '\'']
  | quoted mark value => mark ∈ ['"', '\''] ∧ mark ∉ value

end Piece

/-- The text of several pieces. -/
def textOf (ps : List Piece) : Text := ps.flatMap Piece.text

/-- A tag: what stands between `<` and `>`. -/
structure Tag where
  /-- the pieces of the tag -/
  pieces : List Piece
  /-- each of them is a character or a value -/
  sound : ∀ p ∈ pieces, p.IsSound

/-- The text of a tag. -/
def Tag.text (m : Tag) : Text := '<' :: (textOf m.pieces ++ ['>'])

theorem textOf_cons (p : Piece) (ps : List Piece) : textOf (p :: ps) = p.text ++ textOf ps := rfl

theorem textOf_plain (c : Char) (ps : List Piece) : textOf (.plain c :: ps) = c :: textOf ps := rfl

theorem textOf_quoted (mark : Char) (v : Text) (ps : List Piece) :
    textOf (.quoted mark v :: ps) = mark :: (v ++ mark :: textOf ps) := by
  simp [textOf_cons, Piece.text]

/-! ## Scanning a tag -/

/-- Inside of quotes, only the mark that began them counts. -/
theorem tagEnd?_append_of_not_mem {mark : Char} {v : Text} (hv : mark ∉ v) (t : Text) :
    tagEnd? (some mark) (v ++ mark :: t) =
      (tagEnd? none t).map fun x => (v ++ mark :: x.1, x.2) := by
  induction v with
  | nil => rw [List.nil_append, tagEnd?, if_pos rfl]; rfl
  | cons c v ih =>
    rw [List.mem_cons, not_or] at hv
    rw [List.cons_append, tagEnd?, if_neg (Ne.symm hv.1), ih hv.2, Option.map_map]
    rfl

/-- A sound piece is passed as a whole. -/
theorem tagEnd?_append_piece {p : Piece} (hp : p.IsSound) (t : Text) :
    tagEnd? none (p.text ++ t) = (tagEnd? none t).map fun x => (p.text ++ x.1, x.2) := by
  cases p with
  | plain c =>
    simp only [Piece.IsSound, List.mem_cons, List.not_mem_nil, or_false, not_or] at hp
    obtain ⟨hlt, hgt, hdouble, hsingle⟩ := hp
    simp [Piece.text, tagEnd?, hlt, hgt, hdouble, hsingle]
  | quoted mark v =>
    obtain ⟨hmark, hv⟩ := hp
    have hquote : mark = '"' ∨ mark = '\'' := by simpa using hmark
    have hbracket : mark ≠ '>' ∧ mark ≠ '<' := by
      rcases hquote with rfl | rfl <;> decide
    have e : (Piece.quoted mark v).text ++ t = mark :: (v ++ mark :: t) := by simp [Piece.text]
    rw [e, tagEnd?, if_neg hbracket.1, if_neg hbracket.2, if_pos hquote,
      tagEnd?_append_of_not_mem hv, Option.map_map]
    simp [Piece.text, Function.comp_def]

/-- So the end of a tag is the first bracket behind its pieces. -/
theorem tagEnd?_textOf {ps : List Piece} (hps : ∀ p ∈ ps, p.IsSound) (t : Text) :
    tagEnd? none (textOf ps ++ '>' :: t) = some (textOf ps ++ ['>'], t) := by
  induction ps with
  | nil => rfl
  | cons p ps ih =>
    obtain ⟨hp, hps⟩ := List.forall_mem_cons.1 hps
    rw [textOf_cons, List.append_assoc, tagEnd?_append_piece hp, ih hps, Option.map_some,
      List.append_assoc]

/-- **A tag is found where it is written.** -/
theorem tag?_text (m : Tag) (t : Text) : tag? (m.text ++ t) = some (m.text, t) := by
  have e : m.text ++ t = '<' :: (textOf m.pieces ++ '>' :: t) := by simp [Tag.text]
  rw [e, tag?, tagEnd?_textOf m.sound]
  rfl

/-- The pieces that a scan has passed when it finds the end of a tag; inside of quotes the rest of a
value comes first. -/
def Passes : (quote : Option Char) → Text → Prop
  | none, a => ∃ ps, (∀ p ∈ ps, p.IsSound) ∧ a = textOf ps ++ ['>']
  | some mark, a =>
    ∃ v ps, mark ∉ v ∧ (∀ p ∈ ps, p.IsSound) ∧ a = v ++ mark :: (textOf ps ++ ['>'])

/-- What is passed on the way to the end of a tag is made of pieces. -/
theorem passes_of_tagEnd? {q : Option Char} {t a r : Text} (hq : ∀ mark ∈ q, mark ∈ ['"', '\''])
    (h : tagEnd? q t = some (a, r)) : Passes q a := by
  fun_induction tagEnd? q t generalizing a with
  | case1 => cases h
  | case2 t =>
    obtain ⟨rfl, -⟩ := Prod.mk.inj (Option.some.inj h)
    exact ⟨[], List.forall_mem_nil _, rfl⟩
  | case3 => cases h
  | case4 c t hgt hlt ih =>
    simp only [Option.map_eq_some_iff, Prod.mk.injEq, Prod.exists] at h
    obtain ⟨a, _, h, rfl, rfl⟩ := h
    by_cases hc : c = '"' ∨ c = '\''
    · -- a value begins
      rw [if_pos hc] at h ih
      have hmark : c ∈ ['"', '\''] := by simpa using hc
      obtain ⟨v, ps, hv, hps, rfl⟩ := ih (by simpa using hc) h
      refine ⟨.quoted c v :: ps, List.forall_mem_cons.2 ⟨⟨hmark, hv⟩, hps⟩, ?_⟩
      rw [textOf_quoted, List.cons_append, List.append_assoc, List.cons_append]
    · rw [if_neg hc] at h ih
      obtain ⟨ps, hps, rfl⟩ := ih (by simp) h
      refine ⟨.plain c :: ps, List.forall_mem_cons.2 ⟨?_, hps⟩, rfl⟩
      rw [not_or] at hc
      simp [Piece.IsSound, hlt, hgt, hc]
  | case5 mark c t ih =>
    simp only [Option.map_eq_some_iff, Prod.mk.injEq, Prod.exists] at h
    obtain ⟨a, _, h, rfl, rfl⟩ := h
    by_cases hc : c = mark
    · -- the value ends
      rw [if_pos hc] at h ih
      obtain ⟨ps, hps, rfl⟩ := ih (by simp) h
      exact ⟨[], ps, List.not_mem_nil, hps, by rw [hc]; rfl⟩
    · rw [if_neg hc] at h ih
      obtain ⟨v, ps, hv, hps, rfl⟩ := ih hq h
      exact ⟨c :: v, ps, by simp [hv, Ne.symm hc], hps, rfl⟩

/-- **What is found is a tag**, with pieces that tell how it was passed. -/
theorem exists_tag_of_tag? {t a r : Text} (h : tag? t = some (a, r)) :
    ∃ m : Tag, a = m.text ∧ t = m.text ++ r := by
  have e := (eq_append_of_tag? h).1
  rw [tag?.eq_def] at h
  split at h
  · simp only [Option.map_eq_some_iff, Prod.mk.injEq, Prod.exists] at h
    obtain ⟨a, _, h, rfl, rfl⟩ := h
    obtain ⟨ps, hps, rfl⟩ := passes_of_tagEnd? (by simp) h
    exact ⟨⟨ps, hps⟩, rfl, e⟩
  · cases h

/-- The pieces of a text can be told from the text. -/
theorem eq_of_textOf_eq {ps ps' : List Piece} (hps : ∀ p ∈ ps, p.IsSound)
    (hps' : ∀ p ∈ ps', p.IsSound) (e : textOf ps = textOf ps') : ps = ps' := by
  have hquote {c : Char} (hc : (Piece.plain c).IsSound) : c ∉ ['"', '\''] :=
    fun h => hc (List.mem_cons_of_mem _ (List.mem_cons_of_mem _ h))
  induction ps generalizing ps' with
  | nil =>
    cases ps' with
    | nil => rfl
    | cons p' ps' => cases p' <;> cases e
  | cons p ps ih =>
    obtain ⟨hp, hqs⟩ := List.forall_mem_cons.1 hps
    cases ps' with
    | nil => cases p <;> cases e
    | cons p' ps' =>
      obtain ⟨hp', hqs'⟩ := List.forall_mem_cons.1 hps'
      cases p with
      | plain c =>
        cases p' with
        | plain c' =>
          obtain ⟨rfl, et⟩ := List.cons.inj e
          rw [ih hqs hqs' et]
        | quoted mark' v' => exact absurd ((List.cons.inj e).1 ▸ hp'.1) (hquote hp)
      | quoted mark v =>
        cases p' with
        | plain c' => exact absurd ((List.cons.inj e).1 ▸ hp.1) (hquote hp')
        | quoted mark' v' =>
          rw [textOf_quoted, textOf_quoted] at e
          obtain ⟨rfl, ev⟩ := List.cons.inj e
          -- both values end at the first mark
          have h : cut? [mark] (v' ++ mark :: textOf ps') = some (v, textOf ps) :=
            cut?_singleton_eq_some_iff.2 ⟨hp.2, ev.symm⟩
          rw [cut?_singleton_eq_some_iff.2 ⟨hp'.2, rfl⟩] at h
          obtain ⟨rfl, et⟩ := Prod.mk.inj (Option.some.inj h)
          rw [ih hqs hqs' et.symm]

/-- The pattern whose matches are the tags. -/
def tags : Pattern Tag where
  text := Tag.text
  Finds _ _ := True
  text_ne_nil _ := List.cons_ne_nil _ _
  unique {m m' r s} _ _ e := by
    have h := tag?_text m r
    rw [e, tag?_text, Option.some.injEq, Prod.mk.injEq] at h
    obtain ⟨ps, hps⟩ := m
    obtain ⟨ps', hps'⟩ := m'
    obtain rfl := eq_of_textOf_eq hps' hps (List.append_cancel_right (List.cons.inj h.1).2)
    rfl

theorem starts_tags_iff {t : Text} : tags.Starts t ↔ (tag? t).isSome = true := by
  rw [Option.isSome_iff_exists]
  constructor
  · rintro ⟨m, r, -, rfl⟩
    exact ⟨_, tag?_text m r⟩
  · rintro ⟨⟨a, r⟩, h⟩
    obtain ⟨m, -, rfl⟩ := exists_tag_of_tag? h
    exact ⟨m, r, trivial, rfl⟩

end Showcase.EmptyAttribute

import Mathlib.Data.List.Chain
import Showcase.Page.Spelling
import Showcase.Proofs.Page.Slug

/-!
# The form of slugs

The steps from a title to its slug follow one another: the title is spelled in ASCII, put into small
letters, rid of marks, and its gaps become hyphens, which are trimmed at the ends. What one of them
has put right no later one spoils: whatever the title and the table of spellings, the slug has the
form `IsSlug` (`isSlug_ofTitle`). Going through the steps once more makes no difference to a text of
this form, if the table spells ASCII as it is (`IsSlug.ofTitle_eq`). So the texts of this form are
those that are slugs of themselves (`slug_of_slug`).
-/

namespace Showcase.Slug

open Text

/-- A character that slugs are made of. -/
def isPlain (c : Char) : Bool := ('a' ≤ c && c ≤ 'z') || isDigit c || c == '_' || c == '-'

/-- The two characters are not both hyphens. -/
def MayFollow (c d : Char) : Prop := c = '-' → d ≠ '-'

instance : DecidableRel MayFollow := fun c d => inferInstanceAs (Decidable (c = '-' → d ≠ '-'))

/-- The form of a slug. -/
structure IsSlug (t : Text) : Prop where
  /-- it is not empty -/
  ne_nil : t ≠ []
  /-- it has only small letters, digits, underscores and hyphens -/
  plain : ∀ c ∈ t, isPlain c = true
  /-- there are no two hyphens in a row -/
  single : t.IsChain MayFollow
  /-- it begins with no hyphen and no underscore -/
  first : ∀ c ∈ t.head?, isEdge c = false
  /-- nor does it end with one -/
  last : ∀ c ∈ t.getLast?, isEdge c = false

/-- ASCII is spelled as it is, and everything else is spelled in ASCII. -/
structure Transliteration.IsAscii (spell : Transliteration) : Prop where
  own : ∀ c : Char, c.toNat < 128 → spell c = [c]
  ascii : ∀ c : Char, ∀ d ∈ spell c, d.toNat < 128

/-! ## Slugs have the form -/

theorem isPlain_small {c : Char} (h : isWordChar c = true) :
    isPlain (small c) = true ∧ small c ≠ '-' :=
  forall_isWordChar (P := fun c => isPlain (small c) = true ∧ small c ≠ '-') (by decide +kernel) h

/-- Inside a gap that has been written, no other hyphen comes first. -/
theorem head?_hyphenate_true (t : Text) : (hyphenate true t).head? ≠ some '-' := by
  induction t with
  | nil => simp [hyphenate]
  | cons c t ih =>
    rw [hyphenate, if_pos rfl]
    split
    · exact ih
    · split
      · next hword => simpa using (isPlain_small hword).2
      · exact ih

theorem isChain_hyphenate (inGap : Bool) (t : Text) : (hyphenate inGap t).IsChain MayFollow := by
  fun_induction hyphenate inGap t with
  | case1 => exact List.IsChain.nil
  | case2 d t hgap ih => exact ih
  | case3 inGap d t hgap hout ih =>
    refine List.isChain_cons.2 ⟨?_, ih⟩
    rintro d hd - rfl
    exact head?_hyphenate_true t hd
  | case4 inGap d t hgap hword ih =>
    refine List.isChain_cons.2 ⟨?_, ih⟩
    intro e he hhyphen
    exact absurd hhyphen (isPlain_small hword).2
  | case5 inGap d t hgap hword ih => exact ih

theorem isSlug_ofTitle (spell : Transliteration) (title : Text) : IsSlug (ofTitle spell title) := by
  -- a title without letters has the fallback as its slug, which is checked as it is
  rcases ofTitle_cases spell title with e | ⟨e, hne⟩
  · rw [e]
    have hplain : fallback.all isPlain = true := by decide +kernel
    have hfirst : fallback.head? = some 's' := by decide +kernel
    have hlast : fallback.getLast? = some 'n' := by decide +kernel
    refine ⟨by decide +kernel, List.all_eq_true.1 hplain, by decide +kernel, ?_, ?_⟩
    · simp [hfirst, isEdge]
    · simp [hlast, isEdge]
  · rw [e]
    refine ⟨hne, ?_, ?_, ?_, ?_⟩
    · intro c hc
      exact forall_mem_hyphenate (P := fun c => isPlain c = true) rfl
        (fun _ hword => (isPlain_small hword).1) (mem_of_mem_trim hc)
    · exact List.IsChain.infix (isChain_hyphenate false _) (isInfix_trim _)
    · intro c hc
      exact of_mem_head?_trim hc
    · intro c hc
      exact of_mem_getLast?_trim hc

/-! ## Texts of the form are slugs -/

theorem of_isPlain {c : Char} (h : isPlain c = true) :
    c.toNat < 128 ∧ (c = '-' ∨ isGap c = false ∧ isWordChar c = true ∧ small c = c) := by
  have hascii : c.toNat < 128 := by
    simp only [isPlain, isDigit, Bool.or_eq_true, Bool.and_eq_true, decide_eq_true_eq, beq_iff_eq,
      Char.le_def, UInt32.le_iff_toNat_le] at h
    rcases h with ((⟨-, h⟩ | ⟨-, h⟩) | rfl) | rfl
    · exact Nat.lt_of_le_of_lt h (by decide)
    · exact Nat.lt_of_le_of_lt h (by decide)
    · decide
    · decide
  refine ⟨hascii, ?_⟩
  revert h
  exact forall_ascii (P := fun c => isPlain c = true →
    c = '-' ∨ isGap c = false ∧ isWordChar c = true ∧ small c = c) (by decide +kernel) hascii

/-- Single hyphens between plain characters are written as they are. -/
theorem hyphenate_eq_self {t : Text} (hplain : ∀ c ∈ t, isPlain c = true)
    (hsingle : t.IsChain MayFollow) {inGap : Bool} (hgap : inGap = true → t.head? ≠ some '-') :
    hyphenate inGap t = t := by
  -- a gap is open only behind a hyphen, and no second one follows
  induction t generalizing inGap with
  | nil => rfl
  | cons c t ih =>
    obtain ⟨hc, ht⟩ := List.forall_mem_cons.1 hplain
    obtain ⟨hnext, hrest⟩ := List.isChain_cons.1 hsingle
    rw [hyphenate]
    rcases (of_isPlain hc).2 with rfl | ⟨hletter, hword, hsmall⟩
    · have hout : inGap ≠ true := fun h => hgap h rfl
      rw [if_pos (by decide), if_neg hout, ih ht hrest]
      rintro - hhead
      exact hnext _ hhead rfl rfl
    · rw [if_neg (by simp [hletter]), if_pos hword, hsmall, ih ht hrest]
      simp

/-- A text of the form is the slug of itself. -/
theorem IsSlug.ofTitle_eq {t : Text} (h : IsSlug t) {spell : Transliteration}
    (hspell : spell.IsAscii) : ofTitle spell t = t := by
  have hspelled : t.flatMap spell = t := by
    rw [List.flatMap_congr fun c hc => hspell.own c (of_isPlain (h.plain c hc)).1,
      List.flatMap_singleton']
  have hslug : ofAscii t = t := by
    rw [ofAscii, hyphenate_eq_self h.plain h.single (by simp), trim_eq_self h.first h.last]
  rw [ofTitle, hspelled, hslug]
  cases t with
  | nil => exact absurd rfl h.ne_nil
  | cons c t => rfl

/-- **Slugs.** Every title has a slug of the form of slugs, and the texts of this form are those
that are slugs of themselves. So the slug of a slug is that slug. -/
theorem slug_of_slug {spell : Transliteration} (hspell : spell.IsAscii) (title : Text) :
    IsSlug (ofTitle spell title) ∧
      ofTitle spell (ofTitle spell title) = ofTitle spell title ∧
      (ofTitle spell title = title ↔ IsSlug title) := by
  have hslug := isSlug_ofTitle spell title
  refine ⟨hslug, hslug.ofTitle_eq hspell, ?_, ?_⟩
  · intro e
    exact e ▸ hslug
  · intro h
    exact h.ofTitle_eq hspell

theorem isAscii_spelling : spelling.IsAscii where
  own := fun _ => spelling_ascii
  ascii := by
    intro c d hd
    -- the table is looked through once
    have hall : (spellings.all fun s => s.2.toList.all (·.toNat < 128)) = true := by decide +kernel
    rw [spelling] at hd
    split at hd
    · next hc =>
      obtain rfl := List.mem_singleton.1 hd
      exact hc
    · split at hd
      · next s hs =>
        have hs := List.all_eq_true.1 hall s (List.mem_of_find?_eq_some hs)
        exact of_decide_eq_true (List.all_eq_true.1 hs d hd)
      · cases hd

/-- A title in another script, with marks, and gaps around them. -/
def markedTitle : Text := "_基础 - &  用法_".toList

theorem slug_of_slug_markedTitle :
    spelling.IsAscii ∧ ofTitle spelling markedTitle = "ji-chu-yong-fa".toList ∧
      ofTitle spelling "ji-chu-yong-fa".toList = "ji-chu-yong-fa".toList := by
  have htitle : ofTitle spelling markedTitle = "ji-chu-yong-fa".toList := by decide +kernel
  refine ⟨isAscii_spelling, htitle, ?_⟩
  rw [← htitle]
  exact (slug_of_slug isAscii_spelling markedTitle).2.1

end Showcase.Slug

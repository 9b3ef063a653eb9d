import Mathlib.Data.List.Nodup
import Mathlib.Data.List.Perm.Subperm
import Showcase.Markup.Html
import Showcase.Proofs.Text.Basic

/-!
# Ids of headings

* A slug is never empty and has nothing in it but letters, digits, underscores and hyphens
  (`ofTitle_ne_nil`, `isSlugChar_of_mem_ofTitle`), so it is written in HTML as it is
  (`escape_eq_self`).
* The numbered forms of a slug are different from each other (`numberedSlug_injective`). There is
  one more of them to look at than there are ids that are taken, so the form that is chosen is free
  (`freeSlug_not_mem`).
-/

namespace Showcase

namespace Text

/-- Different numbers are written differently. -/
theorem ofNat_injective : Function.Injective ofNat := by
  intro m n h
  rw [ofNat, ofNat, Nat.toList_repr, Nat.toList_repr] at h
  rw [← @Nat.ofDigitChars_ten_toDigits m, h, Nat.ofDigitChars_ten_toDigits]

theorem isDigit_of_mem_ofNat {n : Nat} {c : Char} (h : c ∈ ofNat n) : isDigit c = true := by
  rw [ofNat, Nat.toList_repr] at h
  have hdigit := Nat.isDigit_of_mem_toDigits (by decide) (by decide) h
  simp only [Char.isDigit, Bool.and_eq_true, decide_eq_true_eq] at hdigit
  simp only [isDigit, Bool.and_eq_true, decide_eq_true_eq, Char.le_def]
  exact hdigit

/-- A text without the characters that markup needs is written as it is. -/
theorem escape_eq_self {t : Text} (h : ∀ c ∈ t, c ∉ ['&', '<', '>', '"']) : escape t = t := by
  have hchar (c : Char) (hc : c ∈ t) : escapeChar c = [c] := by
    have := h c hc
    simp only [List.mem_cons, List.not_mem_nil, or_false, not_or] at this
    rw [escapeChar, if_neg this.1, if_neg this.2.1, if_neg this.2.2.1, if_neg this.2.2.2]
  rw [escape, List.flatMap_congr hchar, List.flatMap_singleton']

end Text

/-! ## Characters of slugs -/

namespace Slug

/-- A character that may stand in a slug. -/
def isSlugChar (c : Char) : Bool := isWordChar c || c == '-'

theorem isSlugChar_of_isWordChar {c : Char} (h : isWordChar c = true) : isSlugChar c = true := by
  rw [isSlugChar, h, Bool.true_or]

/-- What holds of all word characters can be computed. -/
theorem forall_isWordChar {P : Char → Prop}
    (h : ∀ n : Fin 128, isWordChar (Char.ofNat n) = true → P (Char.ofNat n)) {c : Char}
    (hc : isWordChar c = true) : P c := by
  rw [isWordChar, Bool.or_eq_true, beq_iff_eq] at hc
  rcases hc with hc | rfl
  · exact Text.forall_alphanumeric (fun n hn => h n (by rw [isWordChar, hn, Bool.true_or])) hc
  · exact h ⟨95, by decide⟩ rfl

theorem isWordChar_small {c : Char} (h : isWordChar c = true) : isWordChar (small c) = true :=
  forall_isWordChar (P := fun c => isWordChar (small c) = true) (by decide +kernel) h

/-- What holds of hyphens and of the small forms of word characters holds of all that is written. -/
theorem forall_mem_hyphenate {P : Char → Prop} (hgap : P '-')
    (hword : ∀ c, isWordChar c = true → P (small c)) {inGap : Bool} {t : Text} {c : Char}
    (h : c ∈ hyphenate inGap t) : P c := by
  fun_induction hyphenate inGap t with
  | case1 => cases h
  | case2 d t hgap ih => exact ih h
  | case3 inGap d t hgap' hout ih =>
    rcases List.mem_cons.1 h with rfl | h
    · exact hgap
    · exact ih h
  | case4 inGap d t hgap' hd ih =>
    rcases List.mem_cons.1 h with rfl | h
    · exact hword d hd
    · exact ih h
  | case5 inGap d t hgap' hd ih => exact ih h

/-- Hyphens are all that stands between words. -/
theorem isSlugChar_of_mem_hyphenate {inGap : Bool} {t : Text} {c : Char}
    (h : c ∈ hyphenate inGap t) : isSlugChar c = true :=
  forall_mem_hyphenate (P := fun c => isSlugChar c = true) rfl
    (fun _ hc => isSlugChar_of_isWordChar (isWordChar_small hc)) h

/-- A slug is that of the title's letters and digits, or the fallback. -/
theorem ofTitle_cases (spell : Transliteration) (title : Text) :
    ofTitle spell title = fallback ∨
      ofTitle spell title = ofAscii (title.flatMap spell) ∧ ofAscii (title.flatMap spell) ≠ [] := by
  rw [ofTitle]
  split
  · exact Or.inl rfl
  · next h => exact Or.inr ⟨rfl, h⟩

/-- No slug is empty: a title without letters has one all the same. -/
theorem ofTitle_ne_nil (spell : Transliteration) (title : Text) : ofTitle spell title ≠ [] := by
  rcases ofTitle_cases spell title with e | ⟨e, h⟩
  · rw [e]
    decide
  · rwa [e]

/-- The slug of a title has only characters of slugs. -/
theorem isSlugChar_of_mem_ofTitle {spell : Transliteration} {title : Text} {c : Char}
    (h : c ∈ ofTitle spell title) : isSlugChar c = true := by
  rcases ofTitle_cases spell title with e | ⟨e, -⟩
  · rw [e] at h
    exact Text.forall_mem_of_all (P := fun c => isSlugChar c = true) (by decide) c h
  · rw [e] at h
    exact isSlugChar_of_mem_hyphenate (Text.mem_of_mem_trim h)

end Slug

/-! ## Numbered slugs -/

namespace Html

theorem numberedSlug_zero (slug : Text) : numberedSlug slug 0 = slug := if_pos rfl

theorem numberedSlug_of_pos {n : Nat} (h : 0 < n) (slug : Text) :
    numberedSlug slug n = slug ++ '-' :: Text.ofNat n := if_neg (Nat.ne_of_gt h)

/-- The numbered forms of a slug are different from each other. -/
theorem numberedSlug_injective (slug : Text) : Function.Injective (numberedSlug slug) := by
  intro m n h
  rcases Nat.eq_zero_or_pos m with rfl | hm <;> rcases Nat.eq_zero_or_pos n with rfl | hn
  · rfl
  · rw [numberedSlug_zero, numberedSlug_of_pos hn] at h
    cases List.self_eq_append_right.1 h
  · rw [numberedSlug_zero, numberedSlug_of_pos hm] at h
    cases List.self_eq_append_right.1 h.symm
  · rw [numberedSlug_of_pos hm, numberedSlug_of_pos hn] at h
    exact Text.ofNat_injective (List.cons.inj (List.append_cancel_left h)).2

/-- Numbering a slug keeps it from being empty. -/
theorem numberedSlug_ne_nil {slug : Text} (h : slug ≠ []) (n : Nat) : numberedSlug slug n ≠ [] := by
  rw [numberedSlug]
  split
  · exact h
  · exact List.append_ne_nil_of_left_ne_nil h _

/-- Numbering a slug brings in a hyphen and digits only. -/
theorem isSlugChar_of_mem_numberedSlug {slug : Text}
    (hslug : ∀ c ∈ slug, Slug.isSlugChar c = true) {n : Nat} {c : Char}
    (h : c ∈ numberedSlug slug n) : Slug.isSlugChar c = true := by
  rw [numberedSlug] at h
  split at h
  · exact hslug c h
  · rcases List.mem_append.1 h with h | h
    · exact hslug c h
    · rcases List.mem_cons.1 h with rfl | h
      · rfl
      · refine Slug.isSlugChar_of_isWordChar ?_
        rw [Slug.isWordChar, Text.isDigit_of_mem_ofNat h, Bool.or_true, Bool.true_or]

/-! ## Free slugs -/

/-- The form that is chosen is free, unless all that were looked at are taken. -/
theorem freeSlugFrom_cases (slug : Text) (taken : List Text) (tries n : Nat) :
    ∃ k, freeSlugFrom slug taken tries n = numberedSlug slug k ∧
      (numberedSlug slug k ∈ taken →
        ∀ i, n ≤ i → i ≤ n + tries → numberedSlug slug i ∈ taken) := by
  -- the number that is chosen is taken only if all that were tried are
  induction tries generalizing n with
  | zero =>
    refine ⟨n, rfl, fun h i hn hi => ?_⟩
    obtain rfl : i = n := Nat.le_antisymm hi hn
    exact h
  | succ tries ih =>
    rw [freeSlugFrom]
    split
    · next hn =>
      obtain ⟨k, e, hk⟩ := ih (n + 1)
      refine ⟨k, e, fun h i hi hi' => ?_⟩
      rcases Nat.eq_or_lt_of_le hi with rfl | hi
      · exact hn
      · exact hk h i hi (by omega)
    · next hn => exact ⟨n, rfl, fun h => absurd h hn⟩

/-- An id is a numbered form of the heading's slug. -/
theorem exists_freeSlug (slug : Text) (taken : List Text) :
    ∃ n, freeSlug slug taken = numberedSlug slug n :=
  (freeSlugFrom_cases slug taken taken.length 0).imp fun _ h => h.1

/-- **A new id is not taken.** -/
theorem freeSlug_not_mem (slug : Text) (taken : List Text) : freeSlug slug taken ∉ taken := by
  obtain ⟨k, e, hk⟩ := freeSlugFrom_cases slug taken taken.length 0
  rw [freeSlug, e]
  intro h
  -- all forms that were looked at are taken, and they are more than the ids that are
  have hnodup := (List.nodup_range (n := taken.length + 1)).map (numberedSlug_injective slug)
  have hsubset : (List.range (taken.length + 1)).map (numberedSlug slug) ⊆ taken := by
    intro id hid
    obtain ⟨i, hi, rfl⟩ := List.mem_map.1 hid
    rw [List.mem_range] at hi
    exact hk h i (Nat.zero_le i) (by omega)
  have hlength := (List.subperm_of_subset hnodup hsubset).length_le
  rw [List.length_map, List.length_range] at hlength
  omega

/-- A free slug is not empty either. -/
theorem freeSlug_ne_nil {slug : Text} (h : slug ≠ []) (taken : List Text) :
    freeSlug slug taken ≠ [] := by
  obtain ⟨n, e⟩ := exists_freeSlug slug taken
  rw [e]
  exact numberedSlug_ne_nil h n

/-- **The id of a heading has only characters of slugs**, whatever is taken. -/
theorem isSlugChar_of_mem_freeSlug {spell : Slug.Transliteration} {title : Text}
    {taken : List Text} {c : Char} (h : c ∈ freeSlug (Slug.ofTitle spell title) taken) :
    Slug.isSlugChar c = true := by
  obtain ⟨n, e⟩ := exists_freeSlug (Slug.ofTitle spell title) taken
  rw [e] at h
  exact isSlugChar_of_mem_numberedSlug (fun _ => Slug.isSlugChar_of_mem_ofTitle) h

/-- An id is written in HTML as it is. -/
theorem escape_freeSlug (spell : Slug.Transliteration) (title : Text) (taken : List Text) :
    Text.escape (freeSlug (Slug.ofTitle spell title) taken) =
      freeSlug (Slug.ofTitle spell title) taken :=
  Text.escape_eq_self fun _ hc => Text.not_mem_of_all (isSlugChar_of_mem_freeSlug hc) (by decide)

end Html

end Showcase

import Showcase.Demo.Marker
import Showcase.Proofs.Text.Basic

/-!
# Markers with a description

Behind the keyword and some white space any text may stand, and the description is that text without
the white space at its ends (`description?_gap`). It may be blank altogether: then the white space
behind the keyword is trimmed with it, and the marker is a bare keyword.

Main statement: `isValid_iff_isMarker`. A text is a demo marker exactly if it is written in one of
two ways (`IsMarker`), and then its description is the one it is written with.
-/

namespace Showcase.Marker

open Text

/-! ## Reading a marker -/

section

variable {before gap : Text} (hbefore : ∀ c ∈ before, isBlank c = true)

include hbefore

/-- A marker is read from its keyword on, and white space at its end does not count. -/
theorem description?_append (t : Text) :
    description? (before ++ (keyword ++ t)) =
      match trimEnd isBlank t with
      | [] => some []
      | c :: r => if isBlank c then some (strip r) else none := by
  have hlast : isBlank 'o' = false := by decide
  have hstrip : strip (before ++ (keyword ++ t)) = keyword ++ trimEnd isBlank t := by
    rw [strip, trim, List.dropWhile_append_of_pos hbefore]
    exact trimEnd_append_cons hlast ['d', 'e', 'm'] t
  rw [description?, hstrip, after?_append]
  cases trimEnd isBlank t with
  | nil => rfl
  | cons c r => rfl

theorem description?_of_blank {after : Text} (hafter : ∀ c ∈ after, isBlank c = true) :
    description? (before ++ (keyword ++ after)) = some [] := by
  rw [description?_append hbefore, trimEnd_eq_nil hafter]

/-- **The description of a marker** is what stands behind the keyword and some white space, trimmed.
It makes no difference how much of the white space is taken for a part of it. -/
theorem description?_gap (hne : gap ≠ []) (hgap : ∀ c ∈ gap, isBlank c = true) (t : Text) :
    description? (before ++ (keyword ++ (gap ++ t))) = some (strip t) := by
  rcases all_or_last isBlank t with h | ⟨a, c, w, rfl, hc, hw⟩
  · have hall : ∀ c ∈ gap ++ t, isBlank c = true := fun c hc =>
      (List.mem_append.1 hc).elim (hgap c) (h c)
    rw [description?_of_blank hbefore hall, strip, trim, dropWhile_eq_nil h]
    rfl
  · obtain ⟨g, gap, rfl⟩ := List.exists_cons_of_ne_nil hne
    obtain ⟨hg, hgap⟩ := List.forall_mem_cons.1 hgap
    have htrim : trimEnd isBlank (g :: gap ++ (a ++ c :: w)) =
        g :: (gap ++ trimEnd isBlank (a ++ c :: w)) := by
      rw [trimEnd_append_cons hc, ← List.append_assoc, trimEnd_append_cons hc, List.append_assoc]
      rfl
    rw [description?_append hbefore, htrim]
    simp only [hg, if_true]
    rw [strip, trim_append_left hgap, trim_trimEnd, strip]

end

/-- The usual marker has one space before the keyword and one behind it. -/
theorem description?_keyword (d : Text) :
    description? (' ' :: (keyword ++ ' ' :: d)) = some (strip d) :=
  have hspace : ∀ c ∈ [' '], isBlank c = true := List.forall_mem_singleton.2 rfl
  description?_gap hspace (List.cons_ne_nil _ _) hspace d

theorem isValid_keyword (d : Text) : isValid (' ' :: (keyword ++ ' ' :: d)) = true := by
  rw [isValid, description?_keyword]
  rfl

theorem description_keyword (d : Text) :
    description (' ' :: (keyword ++ ' ' :: d)) = strip d := by
  rw [description, description?_keyword]
  rfl

/-! ## Writing a marker -/

/-- What a description can be: any text without white space at its ends. -/
structure IsTrimmed (t : Text) : Prop where
  /-- there is something -/
  ne_nil : t ≠ []
  /-- it begins with a character that is no white space -/
  head : ∀ c ∈ t.head?, isBlank c = false
  /-- and ends with one -/
  last : ∀ c ∈ t.getLast?, isBlank c = false

/-- How a marker is written: the keyword, and possibly white space and a description behind it, with
white space around it all. -/
inductive IsMarker : (marker description : Text) → Prop
  | bare {before after : Text} (hbefore : isBlankText before = true)
      (hafter : isBlankText after = true) : IsMarker (before ++ keyword ++ after) []
  | described {before gap description after : Text} (hbefore : isBlankText before = true)
      (hne : gap ≠ []) (hgap : isBlankText gap = true) (hdescription : IsTrimmed description)
      (hafter : isBlankText after = true) :
      IsMarker (before ++ keyword ++ gap ++ description ++ after) description

theorem isTrimmed_strip {t : Text} (h : ∃ c ∈ t, isBlank c = false) : IsTrimmed (strip t) where
  ne_nil := by
    intro hnil
    obtain ⟨c, hc, hink⟩ := h
    have hinked := inked_strip t
    rw [hnil] at hinked
    exact List.filter_eq_nil_iff.1 hinked.symm c hc (by rw [hink]; rfl)
  head _ := of_mem_head?_trim
  last _ := of_mem_getLast?_trim

variable {marker d : Text}

theorem IsMarker.description?_eq (h : IsMarker marker d) : description? marker = some d := by
  cases h with
  | bare hbefore hafter =>
    rw [List.append_assoc]
    exact description?_of_blank (List.all_eq_true.1 hbefore) (List.all_eq_true.1 hafter)
  | described hbefore hne hgap hd hafter =>
    simp only [List.append_assoc]
    rw [description?_gap (List.all_eq_true.1 hbefore) hne (List.all_eq_true.1 hgap), strip,
      trim_append_right (List.all_eq_true.1 hafter), trim_eq_self hd.head hd.last]

/-- A text that is read as a marker is its keyword and its description, with the white space that
was trimmed: around the text, and around what stands behind the keyword. -/
theorem isMarker_of_description? (h : description? marker = some d) : IsMarker marker d := by
  obtain ⟨before, after, hmarker, hbefore, hafter⟩ := exists_eq_append_trim isBlank marker
  rw [← strip] at hmarker
  rw [description?] at h
  cases hkeyword : after? keyword (strip marker) with
  | none =>
    rw [hkeyword] at h
    cases h
  | some t =>
    have hstrip : strip marker = keyword ++ t := after?_eq_some_iff.1 hkeyword
    rw [hkeyword] at h
    rw [hstrip] at hmarker
    -- a bare keyword has no description; behind a longer one there is a gap
    cases t with
    | nil =>
      obtain rfl := Option.some.inj h
      rw [hmarker, List.append_nil]
      exact .bare (List.all_eq_true.2 hbefore) (List.all_eq_true.2 hafter)
    | cons g t =>
      obtain ⟨hg, rfl⟩ : isBlank g = true ∧ strip t = d := by simpa using h
      -- the marker was stripped, so what stands behind the gap is not blank
      have hink : ∃ c ∈ t, isBlank c = false := exists_mem_of_trim_eq hstrip hg
      obtain ⟨v, w, ht, hv, hw⟩ := exists_eq_append_trim isBlank t
      have hwritten : marker = before ++ keyword ++ (g :: v) ++ strip t ++ (w ++ after) := by
        rw [hmarker]
        conv => lhs; rw [ht]
        simp only [strip, List.append_assoc, List.cons_append]
      rw [hwritten]
      exact .described (List.all_eq_true.2 hbefore) (List.cons_ne_nil g v)
        (List.all_eq_true.2 (List.forall_mem_cons.2 ⟨hg, hv⟩)) (isTrimmed_strip hink)
        (List.all_eq_true.2 fun c hc => (List.mem_append.1 hc).elim (hw c) (hafter c))

theorem description?_eq_some_iff : description? marker = some d ↔ IsMarker marker d :=
  ⟨isMarker_of_description?, IsMarker.description?_eq⟩

/-- **What a marker is.** A text is a demo marker exactly if it is written as one, with a
description or without. What it is written with is then its description, so there is only one way to
read it. A text that is no marker has an empty description. -/
theorem isValid_iff_isMarker (marker : Text) :
    (isValid marker = true ↔ ∃ d, IsMarker marker d) ∧
      (∀ d, IsMarker marker d → description marker = d) ∧
      (isValid marker = false → description marker = []) := by
  refine ⟨?_, fun d h => ?_, fun h => ?_⟩
  · rw [isValid, Option.isSome_iff_exists]
    exact exists_congr fun d => description?_eq_some_iff
  · rw [description, h.description?_eq]
    rfl
  · rw [isValid, Option.isSome_eq_false_iff, Option.isNone_iff_eq_none] at h
    rw [description, h]
    rfl

/-- A description that goes over two lines and has the keyword and colons in it. -/
def twoLines : Text := "::: demo\nof a demo:".toList

theorem isTrimmed_twoLines : IsTrimmed twoLines where
  ne_nil := List.cons_ne_nil _ _
  head c hc := by
    obtain rfl : ':' = c := Option.some.inj hc
    rfl
  last c hc := by
    obtain rfl : ':' = c := Option.some.inj hc
    rfl

/-- A marker with that description, and white space of other scripts. -/
def wideMarker : Text := ['\u3000'] ++ keyword ++ ['\u2003', '\n'] ++ twoLines ++ ['\x1c']

/-- The wide marker has its description, and a word that begins with the keyword has none. -/
theorem isValid_iff_isMarker_wideMarker :
    IsMarker wideMarker twoLines ∧ isValid wideMarker = true ∧
      description wideMarker = twoLines ∧ isValid "demonstration".toList = false ∧
      description "demonstration".toList = [] := by
  have hmarker : IsMarker wideMarker twoLines :=
    .described rfl (List.cons_ne_nil _ _) rfl isTrimmed_twoLines rfl
  have hword : isValid "demonstration".toList = false := by decide
  obtain ⟨hvalid, hdescription, -⟩ := isValid_iff_isMarker wideMarker
  exact ⟨hmarker, hvalid.2 ⟨twoLines, hmarker⟩, hdescription twoLines hmarker, hword,
    (isValid_iff_isMarker "demonstration".toList).2.2 hword⟩

end Showcase.Marker

import Showcase.Text.Basic

/-!
# Empty attributes

Tools that print markup put `disabled=""` where the author wrote `disabled`. `EmptyAttribute.drop`
takes such assignments out of tags and leaves all other text alone.

A tag runs from `<` to the first `>` outside of quotes. A further `<` outside of quotes, or a quote
that nothing closes, means that the `<` began no tag.

Main statement: `eq_append_of_tag?` (a tag and what follows it make up the text).
-/

namespace Showcase.EmptyAttribute

/-- What is left of a tag, up to and with its `>`, and what follows it. The scan is outside of
quotes, or inside the given one. -/
def tagEnd? : (quote : Option Char) → Text → Option (Text × Text)
  | _, [] => none
  | none, c :: t =>
    if c = '>' then some (['>'], t)
    else if c = '<' then none
    else (tagEnd? (if c = '"' ∨ c = '\'' then some c else none) t).map fun x => (c :: x.1, x.2)
  | some q, c :: t => (tagEnd? (if c = q then none else some q) t).map fun x => (c :: x.1, x.2)

/-- The tag at the beginning of the text, and what follows it. -/
def tag? : Text → Option (Text × Text)
  | '<' :: t => (tagEnd? none t).map fun x => ('<' :: x.1, x.2)
  | _ => none

theorem eq_append_of_tagEnd? {q : Option Char} {t a r : Text} (h : tagEnd? q t = some (a, r)) :
    t = a ++ r ∧ a ≠ [] := by
  fun_induction tagEnd? q t generalizing a with
  | case1 => cases h
  | case2 t =>
    simp only [Option.some.injEq, Prod.mk.injEq] at h
    obtain ⟨rfl, rfl⟩ := h
    simp
  | case3 => cases h
  | case4 c t _ _ ih =>
    simp only [Option.map_eq_some_iff, Prod.mk.injEq, Prod.exists] at h
    obtain ⟨a', _, h, rfl, rfl⟩ := h
    simpa using (ih h).1
  | case5 q c t ih =>
    simp only [Option.map_eq_some_iff, Prod.mk.injEq, Prod.exists] at h
    obtain ⟨a', _, h, rfl, rfl⟩ := h
    simpa using (ih h).1

theorem eq_append_of_tag? {t a r : Text} (h : tag? t = some (a, r)) : t = a ++ r ∧ a ≠ [] := by
  rw [tag?.eq_def] at h
  split at h
  · simp only [Option.map_eq_some_iff, Prod.mk.injEq, Prod.exists] at h
    obtain ⟨a', _, h, rfl, rfl⟩ := h
    simpa using (eq_append_of_tagEnd? h).1
  · cases h

/-- A tag without its empty assignments. -/
def bare (tag : Text) : Text := Text.replaceAll "=\"\"".toList [] tag

/-- The text with the empty assignments in its tags taken out. -/
def drop (t : Text) : Text :=
  match _h : tag? t with
  | some (tag, r) => bare tag ++ drop r
  | none =>
    match t with
    | [] => []
    | c :: r => c :: drop r
termination_by t.length
decreasing_by
  · obtain ⟨e, ne⟩ := eq_append_of_tag? _h
    have := List.length_pos_iff.2 ne
    rw [e, List.length_append]
    omega
  · simp

end Showcase.EmptyAttribute

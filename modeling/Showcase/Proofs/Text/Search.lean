import Showcase.Text.Basic

/-!
# Searching for a pattern

A pattern is searched for in a text from left to right: the first place at which it matches counts,
and the search goes on behind the match. What such a search finds is described here without a
procedure: the text falls into matches and the texts before, between and behind them, and at no
place in these does a match begin (`Pattern.Splits`).

A match may depend on what follows it, as a block depends on where its closing tag is found, so a
match is always spoken of together with the text behind it (`Pattern.Finds`). All that a pattern is
asked for is that a match is not empty and that there is at most one match at each place. Then every
text falls apart in exactly one way (`Pattern.exists_splits`, `Pattern.Splits.iff`).
-/

namespace Showcase.Text

/-- A pattern that texts are searched for. -/
structure Pattern (α : Type) where
  /-- the text of a match -/
  text : α → Text
  /-- the pattern finds the match where the given text follows it -/
  Finds : α → Text → Prop
  /-- a match is not empty -/
  text_ne_nil : ∀ {a r}, Finds a r → text a ≠ []
  /-- there is at most one match at each place -/
  unique : ∀ {a b r s}, Finds a r → Finds b s → text a ++ r = text b ++ s → a = b

namespace Pattern

variable {α : Type} (P : Pattern α)

/-- A match begins at the beginning of the text. -/
def Starts (t : Text) : Prop := ∃ a r, P.Finds a r ∧ t = P.text a ++ r

/-- No match begins in `u`, where `r` follows it. -/
def Vacant (u r : Text) : Prop := ∀ s, s ≠ [] → s <:+ u → ¬ P.Starts (s ++ r)

/-- A search of the first text finds the matches in the list: the text is `u`, and then each match
and the text behind it. -/
inductive Splits : (t u : Text) → List (α × Text) → Prop
  | last {u : Text} (h : P.Vacant u []) : Splits u u []
  | found {t u v : Text} {a : α} {ms : List (α × Text)} (h : P.Vacant u (P.text a ++ t))
      (ha : P.Finds a t) (ht : Splits t v ms) : Splits (u ++ (P.text a ++ t)) u ((a, v) :: ms)

variable {P}

/-! ## Texts without a match -/

theorem vacant_nil (r : Text) : P.Vacant [] r :=
  fun _ hs hsu => absurd (List.suffix_nil.1 hsu) hs

theorem Vacant.cons {c : Char} {u r : Text} (hc : ¬ P.Starts (c :: (u ++ r))) (h : P.Vacant u r) :
    P.Vacant (c :: u) r := by
  intro s hs hsu
  rcases List.suffix_cons_iff.1 hsu with rfl | hsu
  · exact hc
  · exact h s hs hsu

/-- Where the first match begins does not depend on how the text is split. -/
theorem Vacant.eq_of_append_eq {u u' r r' : Text} (h : P.Vacant u r) (h' : P.Vacant u' r')
    (hr : r = [] ∨ P.Starts r) (hr' : r' = [] ∨ P.Starts r') (e : u ++ r = u' ++ r') :
    u = u' ∧ r = r' := by
  -- a text between the two would be empty, or begin with a match
  have key {v w s : Text} (h : P.Vacant (v ++ w) s) (hs : w ++ s = [] ∨ P.Starts (w ++ s)) :
      w = [] := by
    refine Classical.byContradiction fun hw => ?_
    rcases hs with hs | hs
    · exact hw (List.append_eq_nil_iff.1 hs).1
    · exact h w hw (List.suffix_append v w) hs
  rcases List.append_eq_append_iff.1 e with ⟨w, rfl, rfl⟩ | ⟨w, rfl, rfl⟩
  · obtain rfl := key h' hr
    exact ⟨(List.append_nil u).symm, rfl⟩
  · obtain rfl := key h hr'
    exact ⟨List.append_nil u', rfl⟩

/-! ## Searches -/

theorem Splits.text_eq {t u : Text} {ms : List (α × Text)} (h : P.Splits t u ms) :
    t = u ++ ms.flatMap fun m => P.text m.1 ++ m.2 := by
  induction h with
  | last => exact (List.append_nil _).symm
  | found _ _ _ ih =>
    rw [List.flatMap_cons, List.append_assoc, ← ih]

theorem Splits.nil : P.Splits [] [] [] := .last (vacant_nil [])

/-- A text that begins with a match. -/
theorem Splits.match_cons {t u : Text} {a : α} {ms : List (α × Text)} (ha : P.Finds a t)
    (h : P.Splits t u ms) : P.Splits (P.text a ++ t) [] ((a, u) :: ms) :=
  .found (u := []) (vacant_nil _) ha h

/-- A text that begins with a character at which no match begins. -/
theorem Splits.char_cons {c : Char} {t u : Text} {ms : List (α × Text)}
    (hc : ¬ P.Starts (c :: t)) (h : P.Splits t u ms) : P.Splits (c :: t) (c :: u) ms := by
  cases h with
  | last h => exact .last (h.cons (by rwa [List.append_nil]))
  | found h ha ht => exact .found (u := c :: u) (h.cons hc) ha ht

/-- **Every text can be searched.** -/
theorem exists_splits (P : Pattern α) (t : Text) : ∃ u ms, P.Splits t u ms := by
  -- a match may be of any length, so the induction is on the length of the text
  induction hn : t.length using Nat.strongRecOn generalizing t with
  | ind n ih =>
    by_cases hs : P.Starts t
    · obtain ⟨a, r, ha, rfl⟩ := hs
      have hpos := List.length_pos_iff.2 (P.text_ne_nil ha)
      rw [List.length_append] at hn
      obtain ⟨u, ms, h⟩ := ih r.length (by omega) r rfl
      exact ⟨[], (a, u) :: ms, h.match_cons ha⟩
    · cases t with
      | nil => exact ⟨[], [], .nil⟩
      | cons c t =>
        rw [List.length_cons] at hn
        obtain ⟨u, ms, h⟩ := ih t.length (by omega) t rfl
        exact ⟨c :: u, ms, h.char_cons hs⟩

theorem Splits.unique {t u u' : Text} {ms ms' : List (α × Text)} (h : P.Splits t u ms)
    (h' : P.Splits t u' ms') : u' = u ∧ ms' = ms := by
  induction h generalizing u' ms' with
  | @last u hu =>
    cases h' with
    | last => exact ⟨rfl, rfl⟩
    | @found t _ _ a _ hu' ha _ =>
      obtain ⟨-, e⟩ :=
        hu.eq_of_append_eq hu' (.inl rfl) (.inr ⟨a, t, ha, rfl⟩) (List.append_nil _)
      exact absurd (List.append_eq_nil_iff.1 e.symm).1 (P.text_ne_nil ha)
  | @found t u v a ms hu ha ht ih =>
    have hstart : P.Starts (P.text a ++ t) := ⟨a, t, ha, rfl⟩
    -- the text is named, so that both ways to split it can be told apart by cases
    generalize e : u ++ (P.text a ++ t) = s at h'
    cases h' with
    | last hu' =>
      rw [← List.append_nil u'] at e
      obtain ⟨-, e⟩ := hu.eq_of_append_eq hu' (.inr hstart) (.inl rfl) e
      exact absurd (List.append_eq_nil_iff.1 e).1 (P.text_ne_nil ha)
    | @found t' _ _ a' _ hu' ha' ht' =>
      have hstart' : P.Starts (P.text a' ++ t') := ⟨a', t', ha', rfl⟩
      obtain ⟨rfl, e'⟩ := hu.eq_of_append_eq hu' (.inr hstart) (.inr hstart') e
      obtain rfl := P.unique ha ha' e'
      obtain rfl := List.append_cancel_left e'
      obtain ⟨rfl, rfl⟩ := ih ht'
      exact ⟨rfl, rfl⟩

/-- **A search has one outcome.** -/
theorem Splits.iff {t u : Text} {ms : List (α × Text)} (h : P.Splits t u ms) (u' : Text)
    (ms' : List (α × Text)) : P.Splits t u' ms' ↔ u' = u ∧ ms' = ms := by
  constructor
  · exact h.unique
  · rintro ⟨rfl, rfl⟩
    exact h

end Pattern

end Showcase.Text

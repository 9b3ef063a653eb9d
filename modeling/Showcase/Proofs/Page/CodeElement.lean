import Showcase.Page.Listing
import Showcase.Proofs.Text.Basic

/-!
# Which code element the highlighter takes up

The highlighter's step looks for three forms of an opening tag, one form after the other, and each
of them all over the HTML. So it does not go by the order of the elements: it takes the first
element of the form that is looked for first among those that occur (`highlight_eq`). This is the
first code element exactly if that one has this form (`highlight_first`); otherwise the first
element stays as it is and a later one is rewritten.
-/

namespace Showcase.Listing

open Text

/-! ## Forms -/

/-- The opening tags that make room for the class of the highlighter. -/
inductive Form
  /-- marked raw, with a class -/
  | classed
  /-- marked raw, without one -/
  | marked
  /-- without any attribute -/
  | plain
  deriving DecidableEq

namespace Form

/-- What the tag begins with. -/
def beginning : Form → Text
  | classed => "<code v-pre class=\"".toList
  | marked => "<code v-pre>".toList
  | plain => "<code>".toList

/-- What is written for the beginning. -/
def highlighted : Form → Text
  | classed => "<code class=\"hljs ".toList
  | marked => "<code class=\"hljs\">".toList
  | plain => "<code class=\"hljs\">".toList

/-- The place in the order in which forms are looked for. -/
def rank : Form → Nat
  | classed => 0
  | marked => 1
  | plain => 2

/-- All forms, in this order. -/
def all : List Form := [classed, marked, plain]

theorem mem_all (f : Form) : f ∈ all := by cases f <;> decide

/-- The ranks tell the forms apart. -/
theorem eq_of_rank_eq {f g : Form} (h : f.rank = g.rank) : f = g := by
  revert h
  cases f <;> cases g <;> decide

/-- Rewriting changes the length of the HTML, and differently for each form. -/
theorem eq_of_lengths {f g : Form}
    (h : f.highlighted.length + g.beginning.length = g.highlighted.length + f.beginning.length) :
    f = g := by
  revert h
  cases f <;> cases g <;> decide

theorem highlighted_length_ne (f : Form) : f.highlighted.length ≠ f.beginning.length := by
  cases f <;> decide

theorem beginning_ne_nil (f : Form) : f.beginning ≠ [] := by cases f <;> decide

end Form

/-- The form that is looked for first among those that occur. -/
def found? (html : Text) : Option Form := Form.all.find? fun f => has html f.beginning

/-- No form is found exactly if none is in the HTML. -/
theorem found?_eq_none_iff {html : Text} :
    found? html = none ↔ ∀ f : Form, ¬ f.beginning <:+: html := by
  rw [found?, List.find?_eq_none]
  simp only [has_iff]
  exact ⟨fun h f => h f f.mem_all, fun h f _ => h f⟩

/-- The form that is found is the first of those that are there. -/
theorem rank_le_of_found? {html : Text} {f g : Form} (h : found? html = some f)
    (hg : g.beginning <:+: html) : f.rank ≤ g.rank := by
  obtain ⟨-, before, after, e, hbefore⟩ := List.find?_eq_some_iff_append.1 h
  have hsorted : Form.all.Pairwise fun f g => f.rank < g.rank := by decide
  have hmem := g.mem_all
  rw [e] at hsorted hmem
  obtain ⟨-, hsorted, -⟩ := List.pairwise_append.1 hsorted
  rcases List.mem_append.1 hmem with hmem | hmem
  · -- a form that is looked for earlier would have been found
    have := hbefore g hmem
    rw [has_iff.2 hg] at this
    cases this
  · rcases List.mem_cons.1 hmem with rfl | hmem
    · exact Nat.le_refl _
    · exact Nat.le_of_lt ((List.pairwise_cons.1 hsorted).1 g hmem)

/-- A form that is found is in the HTML. -/
theorem infix_of_found? {html : Text} {f : Form} (h : found? html = some f) :
    f.beginning <:+: html :=
  has_iff.1 (List.find?_eq_some_iff_append.1 h).1

/-- **The step of the highlighter** rewrites the first tag of the form that is found. -/
theorem highlight_eq (html : Text) :
    highlight html =
      (found? html).elim html fun f => replaceFirst f.beginning f.highlighted html := by
  -- in the last place it is not asked whether the form is there, but replacing is then no change
  have hnone : has html Form.plain.beginning = false →
      replaceFirst Form.plain.beginning Form.plain.highlighted html = html := fun h => by
    rw [has, Option.isSome_eq_false_iff, Option.isNone_iff_eq_none] at h
    rw [replaceFirst, h]
  simp only [found?, Form.all, List.find?_cons, List.find?_nil]
  rw [highlight]
  split
  · next h =>
    rw [show has html Form.classed.beginning = true from h]
    rfl
  · next h =>
    rw [show has html Form.classed.beginning = false from Bool.eq_false_iff.2 h]
    split
    · next h =>
      rw [show has html Form.marked.beginning = true from h]
      rfl
    · next h =>
      rw [show has html Form.marked.beginning = false from Bool.eq_false_iff.2 h]
      cases hp : has html Form.plain.beginning with
      | true => rfl
      | false => exact hnone hp

/-! ## Code elements -/

/-- A code element begins at the beginning of the text. -/
def StartsCode (t : Text) : Prop := "<code>".toList <+: t ∨ "<code ".toList <+: t

/-- The first code element of `u ++ r` begins where `r` does. -/
structure IsFirstCode (u r : Text) : Prop where
  /-- one begins there -/
  starts : StartsCode r
  /-- none begins earlier -/
  first : ∀ s, s ≠ [] → s <:+ u → ¬ StartsCode (s ++ r)

theorem Form.startsCode {f : Form} {t : Text} (h : f.beginning <+: t) : StartsCode t := by
  cases f with
  | classed => exact .inr (.trans (by decide) h)
  | marked => exact .inr (.trans (by decide) h)
  | plain => exact .inl h

theorem IsFirstCode.replaceFirst {u s : Text} {f : Form} (h : IsFirstCode u (f.beginning ++ s)) :
    replaceFirst f.beginning f.highlighted (u ++ (f.beginning ++ s)) =
      u ++ (f.highlighted ++ s) := by
  have hcut := cut?_of_first f.beginning_ne_nil
    fun v hv hvu hp => h.first v hv hvu (Form.startsCode hp)
  rw [Text.replaceFirst, hcut]
  exact List.append_assoc u f.highlighted s

/-- Highlighting replaces one beginning. -/
theorem length_highlight {html : Text} {f : Form} (h : found? html = some f) :
    (highlight html).length + f.beginning.length = html.length + f.highlighted.length := by
  rw [highlight_eq, h]
  exact length_replaceFirst _ (infix_of_found? h)

/-- The HTML stays as it is only if there is nothing to rewrite. -/
theorem highlight_eq_self_iff {html : Text} :
    highlight html = html ↔ ∀ f : Form, ¬ f.beginning <:+: html := by
  rw [← found?_eq_none_iff]
  cases hfound : found? html with
  | none =>
    rw [highlight_eq, hfound]
    exact iff_of_true rfl rfl
  | some f =>
    refine iff_of_false (fun h => ?_) (Option.some_ne_none f)
    have hlen := length_highlight hfound
    rw [h] at hlen
    exact absurd (by omega) f.highlighted_length_ne

/-- The first code element is the one that is rewritten exactly if no form that is looked for
earlier occurs. -/
theorem IsFirstCode.highlight_iff {u s : Text} {f : Form} (h : IsFirstCode u (f.beginning ++ s)) :
    highlight (u ++ (f.beginning ++ s)) = u ++ (f.highlighted ++ s) ↔
      ∀ g : Form, g.beginning <:+: u ++ (f.beginning ++ s) → f.rank ≤ g.rank := by
  have hf : f.beginning <:+: u ++ (f.beginning ++ s) := List.infix_append' ..
  cases hfound : found? (u ++ (f.beginning ++ s)) with
  | none => exact absurd hf (found?_eq_none_iff.1 hfound f)
  | some k =>
    constructor
    · intro e g hg
      -- the form that is found is told by the length of the result
      have hlen := length_highlight hfound
      rw [e] at hlen
      simp only [List.length_append] at hlen
      obtain rfl : f = k := Form.eq_of_lengths (by omega)
      exact rank_le_of_found? hfound hg
    · intro hle
      have hle := hle k (infix_of_found? hfound)
      obtain rfl : f = k := Form.eq_of_rank_eq (Nat.le_antisymm hle (rank_le_of_found? hfound hf))
      rw [highlight_eq, hfound]
      exact h.replaceFirst

/-- **When the highlighter takes up the first code element.** If the first one has a form, it is
rewritten, and nothing else is, exactly if no form that is looked for earlier occurs anywhere. The
HTML stays as it is exactly if no form occurs anywhere; in particular, if there is no code element.
So where the first one has no form, it stays exactly if no later one has any. -/
theorem highlight_first (html : Text) :
    (∀ u f s, IsFirstCode u (Form.beginning f ++ s) → html = u ++ (f.beginning ++ s) →
      (highlight html = u ++ (f.highlighted ++ s) ↔
        ∀ g : Form, g.beginning <:+: html → f.rank ≤ g.rank)) ∧
      (highlight html = html ↔ ∀ g : Form, ¬ g.beginning <:+: html) ∧
      ((∀ s, s <:+ html → ¬ StartsCode s) → highlight html = html) := by
  refine ⟨?_, highlight_eq_self_iff, fun hnone => highlight_eq_self_iff.2 fun f hf => ?_⟩
  · rintro u f s hfirst rfl
    exact hfirst.highlight_iff
  · obtain ⟨a, b, rfl⟩ := hf
    rw [List.append_assoc] at hnone
    exact hnone _ (List.suffix_append a _) (Form.startsCode (List.prefix_append _ b))

/-- Two code elements, of which only the second one has a form. -/
def twoElements : Text := "<code class=\"language-js\">x</code><code>y</code>".toList

/-- The first code element has no form, and the second one is rewritten. -/
theorem highlight_second :
    IsFirstCode [] twoElements ∧ (∀ f : Form, ¬ f.beginning <+: twoElements) ∧
      highlight twoElements =
        "<code class=\"language-js\">x</code><code class=\"hljs\">y</code>".toList := by
  refine ⟨⟨?_, fun s hs hsu => absurd (List.suffix_nil.1 hsu) hs⟩, fun f => ?_, ?_⟩
  · exact .inr (by decide)
  · cases f <;> decide
  · decide

end Showcase.Listing

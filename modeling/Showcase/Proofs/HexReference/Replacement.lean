import Mathlib.Logic.Function.Iterate
import Mathlib.Logic.Relation
import Showcase.Proofs.HexReference.Border

/-!
# Replacing references one at a time

A pass replaces the references of a text all together. Here one of them is replaced, wherever it
stands (`Replace`).

* Each replacement makes the text seven code points shorter, so a sequence of replacements ends
  (`wellFounded_replace`).
* A pass is such a sequence, and so are all passes together (`replacements_settle`). What passes end
  in is a text in which nothing is left to replace (`not_replace_settle`).
-/

namespace Showcase.HexReference

open Relation

/-- The text is a reference to the code point. -/
def IsReference (w : Points) (n : Nat) : Prop :=
  ∃ x a b c d, (x = 120 ∨ x = 88) ∧ number? a b c d = some n ∧ w = [38, 35, x, a, b, c, d, 59]

theorem reference?_eq_some_iff_isReference {t r : Points} {n : Nat} :
    reference? t = some (n, r) ↔ ∃ w, IsReference w n ∧ t = w ++ r := by
  rw [reference?_eq_some_iff]
  constructor
  · rintro ⟨x, a, b, c, d, hx, hn, rfl⟩
    exact ⟨_, ⟨x, a, b, c, d, hx, hn, rfl⟩, rfl⟩
  · rintro ⟨_, ⟨x, a, b, c, d, hx, hn, rfl⟩, rfl⟩
    exact ⟨x, a, b, c, d, hx, hn, rfl⟩

/-- One reference of a text is replaced by the code point that it stands for. -/
inductive Replace : Points → Points → Prop
  | intro (a b : Points) {w : Points} {n : Nat} (h : IsReference w n) :
      Replace (a ++ (w ++ b)) (a ++ n :: b)

theorem Replace.cons {s t : Points} (h : Replace s t) (n : Nat) : Replace (n :: s) (n :: t) := by
  obtain ⟨a, b, hw⟩ := h
  exact .intro (n :: a) b hw

theorem Replace.length_eq {s t : Points} (h : Replace s t) : s.length = t.length + 7 := by
  obtain ⟨a, b, x, c, d, e, f, -, -, rfl⟩ := h
  simp only [List.length_append, List.length_cons, List.length_nil]
  omega

/-- **There is no endless sequence of replacements.** -/
theorem wellFounded_replace : WellFounded fun t s => Replace s t := by
  refine Subrelation.wf (fun h => ?_) (measure List.length).wf
  have := h.length_eq
  exact Nat.lt_of_lt_of_eq (Nat.lt_add_of_pos_right (by decide)) this.symm

/-! ## Passes -/

theorem replacements_cons {s t : Points} (n : Nat) (h : ReflTransGen Replace s t) :
    ReflTransGen Replace (n :: s) (n :: t) :=
  h.lift (n :: ·) fun _ _ h => h.cons n

theorem replacements_pass (t : Points) : ReflTransGen Replace t (pass t) := by
  fun_induction pass t with
  | case1 t n r h ih =>
    obtain ⟨w, hw, rfl⟩ := reference?_eq_some_iff_isReference.1 h
    exact (replacements_cons n ih).head (.intro [] r hw)
  | case2 => exact .refl
  | case3 n r _ ih => exact replacements_cons n ih

/-- **All passes together are a sequence of replacements.** -/
theorem replacements_settle (t : Points) : ReflTransGen Replace t (settle t) := by
  fun_induction settle t with
  | case1 => exact .refl
  | case2 t _ ih => exact (replacements_pass t).trans ih

theorem exists_settle_eq_iterate (t : Points) : ∃ n, settle t = pass^[n] t := by
  fun_induction settle t with
  | case1 t _ => exact ⟨0, rfl⟩
  | case2 t _ ih =>
    obtain ⟨n, e⟩ := ih
    exact ⟨n + 1, by rw [e, Function.iterate_succ_apply]⟩

/-- A text that a pass does not change has no reference in it. -/
theorem reference?_of_pass_eq {t u v : Points} (h : pass t = t) (e : t = u ++ v) :
    reference? v = none := by
  fun_induction pass t generalizing u with
  | case1 t n r hr _ =>
    -- a replaced reference makes the text shorter, so the pass would have changed it
    have := length_of_reference? hr
    have := length_pass_le r
    have := congrArg List.length h
    simp only [List.length_cons] at this
    omega
  | case2 =>
    obtain ⟨-, rfl⟩ := List.append_eq_nil_iff.1 e.symm
    rfl
  | case3 n r hr ih =>
    cases u with
    | nil => rw [← hr, e, List.nil_append]
    | cons k u =>
      obtain ⟨rfl, rfl⟩ := List.cons.inj e
      exact ih (List.cons.inj h).2 rfl

/-- **Passes end in a text in which nothing is left to replace.** -/
theorem not_replace_settle (t u : Points) : ¬ Replace (settle t) u := by
  intro h
  generalize e : settle t = s at h
  obtain ⟨a, b, hw⟩ := h
  have hnone := reference?_of_pass_eq (pass_settle t) e
  rw [reference?_eq_some_iff_isReference.2 ⟨_, hw, rfl⟩] at hnone
  cases hnone

/-! ## Ends of sequences -/

/-- Where two steps can be made one after the other unless they are the same, sequences of steps
that cannot go on end in one place. -/
theorem eq_of_ends {r : Points → Points → Prop}
    (hr : ∀ {t u v}, r t u → r t v → ∃ x, ReflGen r u x ∧ ReflGen r v x) {t u v : Points}
    (hu : ReflTransGen r t u) (hv : ReflTransGen r t v) (hu' : ∀ x, ¬ r u x) (hv' : ∀ x, ¬ r v x) :
    u = v := by
  have hd : ∀ a b c, r a b → r a c → ∃ d, ReflGen r b d ∧ ReflTransGen r c d := by
    intro a b c hb hc
    obtain ⟨x, hx, hx'⟩ := hr hb hc
    exact ⟨x, hx, hx'.to_reflTransGen⟩
  obtain ⟨x, hux, hvx⟩ := church_rosser hd hu hv
  rcases hux.cases_head with rfl | ⟨y, hy, -⟩
  · rcases hvx.cases_head with rfl | ⟨z, hz, -⟩
    · rfl
    · exact absurd hz (hv' z)
  · exact absurd hy (hu' y)

end Showcase.HexReference

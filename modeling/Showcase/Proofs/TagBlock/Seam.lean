import Showcase.Proofs.TagBlock.Shape

/-!
# Seams

Removing a block brings the texts before and after it together. To speak about what comes of that,
the place of a removed block is kept here as a mark in the text, a seam.

* A sewn text is a list of characters and seams; `text` forgets the seams (`Sewn.text`).
* `cut` removes the blocks of a name and leaves a seam for each. Without the seams it is `strip`
  (`text_cut`).
* A stretch of a sewn text is a run of characters with no seam among them. A cut makes no new
  stretches (`stretch_of_cut`), and none of those that are left has a block in it
  (`not_hasBlock_of_stretch`). So a block in a stripped text always lies across a seam.
-/

namespace Showcase.TagBlock

open Text

/-- A text with marks (`none`) where something was removed. -/
abbrev Sewn := List (Option Char)

namespace Sewn

/-- The text, with its seams forgotten. -/
def text (m : Sewn) : Text := m.filterMap id

/-- A text without seams. -/
def whole (t : Text) : Sewn := t.map some

/-- What follows the first `n` characters. -/
def skip : (n : Nat) → Sewn → Sewn
  | 0, m => m
  | _ + 1, [] => []
  | n + 1, none :: m => skip (n + 1) m
  | n + 1, some _ :: m => skip n m

@[simp] theorem text_nil : text [] = [] := rfl

@[simp] theorem text_cons_none (m : Sewn) : text (none :: m) = text m := rfl

@[simp] theorem text_cons_some (c : Char) (m : Sewn) : text (some c :: m) = c :: text m := rfl

@[simp] theorem text_append (m m' : Sewn) : text (m ++ m') = text m ++ text m' :=
  List.filterMap_append

theorem text_whole (t : Text) : text (whole t) = t := by
  rw [text, whole, List.filterMap_map]
  exact List.filterMap_some ..

theorem text_skip (n : Nat) (m : Sewn) : text (skip n m) = (text m).drop n := by
  fun_induction skip n m with
  | case1 m => rfl
  | case2 n => rfl
  | case3 n m ih => exact ih
  | case4 n c m ih => exact ih

theorem length_skip_le (n : Nat) (m : Sewn) : (skip n m).length ≤ m.length - n := by
  fun_induction skip n m with
  | case1 m => exact Nat.le_refl _
  | case2 n => exact Nat.zero_le _
  | case3 n m ih =>
    rw [List.length_cons]
    omega
  | case4 n c m ih =>
    rw [List.length_cons]
    omega

/-- Skipping takes from the front only. -/
theorem skip_suffix (n : Nat) (m : Sewn) : skip n m <:+ m := by
  fun_induction skip n m with
  | case1 m => exact List.suffix_refl m
  | case2 n => exact List.suffix_refl []
  | case3 n m ih => exact ih.trans (List.suffix_cons none m)
  | case4 n c m ih => exact ih.trans (List.suffix_cons (some c) m)

/-- The text `w` stands in the sewn text with no seam in it. -/
def Stretch (m : Sewn) (w : Text) : Prop := whole w <:+: m

end Sewn

open Sewn

/-- The sewn text without its blocks of a name, which leave seams. -/
def cut (name : Text) (m : Sewn) : Sewn :=
  match m with
  | [] => []
  | none :: m => none :: cut name m
  | some c :: m =>
    match _h : block? name (c :: text m) with
    | some (b, _) => none :: cut name (skip b.text.length (some c :: m))
    | none => some c :: cut name m
termination_by m.length
decreasing_by
  · simp
  · have := length_skip_le b.text.length (some c :: m)
    have := length_text_pos _h
    rw [List.length_cons] at *
    omega
  · simp

theorem cut_nil (name : Text) : cut name [] = [] := by rw [cut]

theorem cut_cons_none (name : Text) (m : Sewn) : cut name (none :: m) = none :: cut name m := by
  rw [cut]

/-- A block at the front is cut out, and leaves a seam. -/
theorem cut_of_block {name r : Text} {c : Char} {m : Sewn} {b : Block}
    (h : block? name (c :: text m) = some (b, r)) :
    cut name (some c :: m) = none :: cut name (skip b.text.length (some c :: m)) := by
  rw [cut]
  split
  · next b' r' h' =>
    rw [h, Option.some.injEq, Prod.mk.injEq] at h'
    rw [h'.1]
  · next h' =>
    rw [h] at h'
    cases h'

theorem cut_cons_of_none {name : Text} {c : Char} {m : Sewn}
    (h : block? name (c :: text m) = none) : cut name (some c :: m) = some c :: cut name m := by
  rw [cut]
  split
  · next b r h' =>
    rw [h] at h'
    cases h'
  · rfl

/-- **Cutting is stripping**, with the seams in view. -/
theorem text_cut (name : Text) (m : Sewn) : text (cut name m) = strip name (text m) := by
  fun_induction cut name m with
  | case1 => rw [text_nil, strip, parts_nil, List.flatMap_nil]
  | case2 m ih => exact ih
  | case3 c m b r h ih =>
    have hr : (c :: text m).drop b.text.length = r := by
      rw [eq_append_of_block? h, List.drop_left]
    rw [text_cons_none, ih, text_skip, text_cons_some, hr, strip, strip, parts_of_block h]
    rfl
  | case4 c m h ih =>
    rw [text_cons_some, ih, text_cons_some, strip, strip, parts_cons_of_none h]
    rfl

/-- What begins a cut without a seam is left as it was. -/
theorem prefix_of_cut {name w : Text} {m : Sewn} (h : whole w <+: cut name m) : whole w <+: m := by
  induction m generalizing w with
  | nil =>
    rw [cut_nil] at h
    exact h
  | cons o m ih =>
    cases w with
    | nil => exact List.nil_prefix
    | cons d w =>
      cases o with
      -- a seam is no character, so the front ends before it
      | none =>
        rw [cut_cons_none] at h
        exact absurd (List.cons_prefix_cons.1 h).1 (by simp)
      | some c =>
        cases hb : block? name (c :: text m) with
        | none =>
          rw [cut_cons_of_none hb] at h
          obtain ⟨e, h⟩ := List.cons_prefix_cons.1 h
          exact List.cons_prefix_cons.2 ⟨e, ih h⟩
        -- a block becomes a seam
        | some x =>
          rw [cut_of_block hb] at h
          exact absurd (List.cons_prefix_cons.1 h).1 (by simp)

/-- A stretch does not begin at a seam. -/
theorem stretch_cons_none {w : Text} {m : Sewn} (h : Stretch (none :: m) w) : Stretch m w := by
  rcases List.infix_cons_iff.1 h with h | h
  · cases w with
    | nil => exact List.nil_infix
    | cons c w => exact absurd (List.cons_prefix_cons.1 h).1 (by simp)
  · exact h

/-- A cut makes no new stretches. -/
theorem stretch_of_cut {name w : Text} {m : Sewn} (h : Stretch (cut name m) w) : Stretch m w := by
  fun_induction cut name m with
  | case1 => exact h
  | case2 m ih => exact (ih (stretch_cons_none h)).trans (List.suffix_cons none m).isInfix
  | case3 c m b r hb ih =>
    exact (ih (stretch_cons_none h)).trans (skip_suffix _ _).isInfix
  | case4 c m hb ih =>
    rcases List.infix_cons_iff.1 h with h | h
    · rw [← cut_cons_of_none hb] at h
      exact (prefix_of_cut h).isInfix
    · exact (ih h).trans (List.suffix_cons _ m).isInfix

/-- No block begins in a stretch that a cut leaves: it would have been found there. -/
theorem block?_eq_none_of_stretch {name w : Text} {m : Sewn} (hname : IsWord name)
    (h : Stretch (cut name m) w) : block? name w = none := by
  cases hw : block? name w with
  | none => rfl
  | some x =>
    obtain ⟨b, r⟩ := x
    exfalso
    fun_induction cut name m with
    | case1 =>
      have e := List.map_eq_nil_iff.1 (List.infix_nil.1 h)
      rw [e, block?_nil] at hw
      cases hw
    | case2 m ih => exact ih (stretch_cons_none h)
    | case3 c m b r hb ih => exact ih (stretch_cons_none h)
    | case4 c m hb ih =>
      rcases List.infix_cons_iff.1 h with h | h
      · -- the stretch is at the beginning, so the block in it is the one that was not found
        rw [← cut_cons_of_none hb] at h
        obtain ⟨m', e⟩ := prefix_of_cut h
        have e := congrArg text e
        rw [text_cons_some, text_append, text_whole, eq_append_of_block? hw, List.append_assoc] at e
        rw [← e, block?_append hname hw] at hb
        cases hb
      · exact ih h

/-- **A cut leaves no block in a stretch.** -/
theorem not_hasBlock_of_stretch {name w : Text} {m : Sewn} (hname : IsWord name)
    (h : Stretch (cut name m) w) : ¬ HasBlock name w := by
  rintro ⟨s, ⟨a, rfl⟩, hs⟩
  have h : Stretch (cut name m) s := by
    refine List.IsInfix.trans ?_ h
    rw [whole, whole, List.map_append]
    exact (List.suffix_append _ _).isInfix
  rw [block?_eq_none_of_stretch hname h] at hs
  cases hs

end Showcase.TagBlock

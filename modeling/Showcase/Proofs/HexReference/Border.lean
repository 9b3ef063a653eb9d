import Showcase.Text.HexReference

/-!
# Borders of references

A reference begins with `&` and goes on with characters of a small class (`isInner`). So at a
character of no such kind a text falls into two halves that have nothing to do with each other:

* no reference reaches over the border, and a pass goes over the halves one by one
  (`pass_append_of_border`);
* the same holds for all passes together, for the joining of halves of surrogate pairs, and so for
  the whole restoration (`restore_append`): a text that begins with such a character and has no `&`
  in it is kept, wherever it stands.
-/

namespace Showcase.HexReference

/-- A code point that a reference may have after its first one. -/
def isInner (n : Nat) : Bool := n == 35 || n == 59 || n == 88 || n == 120 || (digit? n).isSome

/-! ## One reference -/

/-- Only digits make a number. -/
theorem isInner_of_number? {a b c d n : Nat} (h : number? a b c d = some n) :
    isInner a = true ∧ isInner b = true ∧ isInner c = true ∧ isInner d = true := by
  simp only [number?, Option.bind_eq_bind, Option.bind_eq_some_iff] at h
  obtain ⟨_, ha, _, hb, _, hc, _, hd, _⟩ := h
  simp [isInner, ha, hb, hc, hd]

/-- Behind its first character, a reference has inner characters only. -/
theorem isInner_of_mem_reference {x a b c d n m : Nat} (hx : x = 120 ∨ x = 88)
    (hn : number? a b c d = some n) (hm : m ∈ [35, x, a, b, c, d, 59]) : isInner m = true := by
  obtain ⟨ha, hb, hc, hd⟩ := isInner_of_number? hn
  simp only [List.mem_cons, List.not_mem_nil, or_false] at hm
  rcases hm with rfl | rfl | rfl | rfl | rfl | rfl | rfl
  · rfl
  · rcases hx with rfl | rfl <;> rfl
  · exact ha
  · exact hb
  · exact hc
  · exact hd
  · rfl

/-- What a reference is, character by character. -/
theorem reference?_eq_some_iff {t r : Points} {n : Nat} :
    reference? t = some (n, r) ↔
      ∃ x a b c d, (x = 120 ∨ x = 88) ∧ number? a b c d = some n ∧
        t = [38, 35, x, a, b, c, d, 59] ++ r := by
  constructor
  · intro h
    rw [reference?.eq_def] at h
    split at h
    · next amp hash x a b c d semicolon t =>
      split at h
      · next hc =>
        obtain ⟨rfl, rfl, hx, rfl⟩ := hc
        simp only [Option.map_eq_some_iff, Prod.mk.injEq] at h
        obtain ⟨m, hm, rfl, rfl⟩ := h
        exact ⟨x, a, b, c, d, hx, hm, rfl⟩
      · cases h
    · cases h
  · rintro ⟨x, a, b, c, d, hx, hn, rfl⟩
    simp [reference?, hx, hn]

theorem reference?_cons_of_ne {n : Nat} (hn : n ≠ 38) (t : Points) :
    reference? (n :: t) = none := by
  rw [← Option.not_isSome_iff_eq_none, Option.isSome_iff_exists]
  rintro ⟨⟨m, r⟩, h⟩
  obtain ⟨x, a, b, c, d, -, -, e⟩ := reference?_eq_some_iff.1 h
  exact hn (List.cons.inj e).1

/-- A reference does not depend on what follows it. -/
theorem reference?_append {t r : Points} {n : Nat} (h : reference? t = some (n, r)) (u : Points) :
    reference? (t ++ u) = some (n, r ++ u) := by
  obtain ⟨x, a, b, c, d, hx, hn, rfl⟩ := reference?_eq_some_iff.1 h
  exact reference?_eq_some_iff.2 ⟨x, a, b, c, d, hx, hn, List.append_assoc _ r u⟩

/-- A reference that begins before a border ends before it. -/
theorem reference?_append_of_border {t v : Points} {n h : Nat} (hh : isInner h = false)
    (ht : reference? (n :: t) = none) : reference? (n :: (t ++ h :: v)) = none := by
  rw [← List.cons_append, ← Option.not_isSome_iff_eq_none, Option.isSome_iff_exists]
  rintro ⟨⟨m, r⟩, hr⟩
  obtain ⟨x, a, b, c, d, hx, hm, e⟩ := reference?_eq_some_iff.1 hr
  rcases List.append_eq_append_iff.1 e with ⟨s, e₁, e₂⟩ | ⟨s, e₁, -⟩
  · cases s with
    | nil =>
      -- the reference ends at the border
      rw [List.append_nil] at e₁
      have := reference?_eq_some_iff.2 ⟨x, a, b, c, d, hx, hm, (List.append_nil _).symm⟩
      rw [e₁, ht] at this
      cases this
    | cons k s =>
      -- the border is one of its later characters
      obtain ⟨rfl, -⟩ := List.cons.inj e₂
      have hk : h ∈ [35, x, a, b, c, d, 59] := by
        rw [List.cons_append] at e₁
        rw [(List.cons.inj e₁).2]
        exact List.mem_append_right t (List.mem_cons_self ..)
      rw [isInner_of_mem_reference hx hm hk] at hh
      cases hh
  · have := reference?_eq_some_iff.2 ⟨x, a, b, c, d, hx, hm, e₁⟩
    rw [ht] at this
    cases this

/-! ## Passes -/

/-- A pass goes over the texts before and after a border one by one. -/
theorem pass_append_of_border {h : Nat} (hh : isInner h = false) (t v : Points) :
    pass (t ++ h :: v) = pass t ++ pass (h :: v) := by
  -- whatever the pass does at a place in `t`, it does there in the longer text as well
  fun_induction pass t with
  | case1 t n r hr ih => rw [pass_of_reference (reference?_append hr _), ih, List.cons_append]
  | case2 => rfl
  | case3 n r hr ih =>
    rw [List.cons_append, pass_cons_of_none (reference?_append_of_border hh hr), ih,
      List.cons_append]

/-- A pass goes over text in which no reference begins. -/
theorem pass_append_of_not_mem {w : Points} (hw : 38 ∉ w) (t : Points) :
    pass (w ++ t) = w ++ pass t := by
  induction w with
  | nil => rfl
  | cons n w ih =>
    rw [List.mem_cons, not_or] at hw
    rw [List.cons_append, pass_cons_of_none (reference?_cons_of_ne (Ne.symm hw.1) _), ih hw.2,
      List.cons_append]

/-- Begins with a border, and has no beginning of a reference in it. -/
def IsFirm (w : Points) : Prop := (∃ h s, w = h :: s ∧ isInner h = false) ∧ 38 ∉ w

variable {w : Points}

/-- **A pass goes through firm text**: no reference reaches across it. -/
theorem pass_append (hw : IsFirm w) (t u : Points) :
    pass (t ++ (w ++ u)) = pass t ++ (w ++ pass u) := by
  obtain ⟨⟨h, s, rfl, hh⟩, hw⟩ := hw
  rw [← pass_append_of_not_mem hw]
  exact pass_append_of_border hh t (s ++ u)

/-- What a pass leaves as it is has settled. -/
theorem settle_of_pass {t : Points} (h : pass t = t) : settle t = t := by
  rw [settle, if_pos h]

/-- A pass more or less does not matter. -/
theorem settle_pass (t : Points) : settle (pass t) = settle t := by
  by_cases h : pass t = t
  · rw [h]
  · rw [settle.eq_def t, if_neg h]

/-- All passes together go over the texts around a firm one, one by one. -/
theorem settle_append (hw : IsFirm w) (t u : Points) :
    settle (t ++ (w ++ u)) = settle t ++ (w ++ settle u) := by
  induction hn : (t ++ (w ++ u)).length using Nat.strongRecOn generalizing t u with
  | ind n ih =>
    by_cases h : pass (t ++ (w ++ u)) = t ++ (w ++ u)
    · -- nothing to replace in the whole, so nothing in its parts
      have e := h
      rw [pass_append hw] at e
      have ht := length_pass_le t
      have hu := length_pass_le u
      have hl := congrArg List.length e
      simp only [List.length_append] at hl
      obtain ⟨et, e⟩ := List.append_inj e (by omega)
      have eu := List.append_cancel_left e
      rw [settle_of_pass h, settle_of_pass et, settle_of_pass eu]
    · have hlt : (pass (t ++ (w ++ u))).length < n := by
        have := length_pass_le (t ++ (w ++ u))
        have : (pass (t ++ (w ++ u))).length ≠ (t ++ (w ++ u)).length :=
          fun e => h (pass_eq_self_of_length e)
        omega
      rw [pass_append hw] at hlt
      rw [← settle_pass, pass_append hw, ih _ hlt _ _ rfl, settle_pass, settle_pass]

/-! ## Halves -/

theorem joinPairs_cons_of_not_high {n : Nat} (hn : isHigh n = false) (t : Points) :
    joinPairs (n :: t) = n :: joinPairs t := by
  cases t with
  | nil => rfl
  | cons m t => rw [joinPairs, hn, Bool.false_and, if_neg Bool.false_ne_true]

/-- Pairs end before what is no second half. -/
theorem joinPairs_append_of_not_low {h : Nat} (hh : isLow h = false) (t v : Points) :
    joinPairs (t ++ h :: v) = joinPairs t ++ joinPairs (h :: v) := by
  fun_induction joinPairs t with
  | case1 => rfl
  | case2 n =>
    -- the last code point before `h` could only be joined with a low half
    rw [List.singleton_append, joinPairs, hh, Bool.and_false, if_neg Bool.false_ne_true,
      List.singleton_append]
  | case3 n m t hp ih =>
    rw [List.cons_append, List.cons_append, joinPairs, if_pos hp, ih, List.cons_append]
  | case4 n m t hp ih =>
    rw [List.cons_append, List.cons_append, joinPairs, if_neg hp, ← List.cons_append, ih,
      List.cons_append]

/-- Characters are no part of pairs. -/
theorem joinPairs_append_of_not_half {w : Points} (hw : ∀ n ∈ w, isHalf n = false) (t : Points) :
    joinPairs (w ++ t) = w ++ joinPairs t := by
  induction w with
  | nil => rfl
  | cons n w ih =>
    obtain ⟨hn, hw⟩ := List.forall_mem_cons.1 hw
    rw [isHalf, Bool.or_eq_false_iff] at hn
    rw [List.cons_append, joinPairs_cons_of_not_high hn.1, ih hw, List.cons_append]

/-- A character is no half of a pair. -/
theorem isHalf_toNat (c : Char) : isHalf c.toNat = false := by
  have hv : c.toNat < 0xD800 ∨ 0xDFFF < c.toNat ∧ c.toNat < 0x110000 := c.valid
  simp only [isHalf, isHigh, isLow, Bool.or_eq_false_iff, Bool.and_eq_false_iff,
    decide_eq_false_iff_not]
  omega

theorem written_toNat (c : Char) : written c.toNat = [c] := by
  rw [written, isHalf_toNat, if_neg Bool.false_ne_true, Char.ofNat_toNat]

/-- Writing the code points of a text gives it back. -/
theorem flatMap_written_points (t : Text) : (points t).flatMap written = t := by
  rw [points, List.flatMap_map, funext written_toNat]
  exact List.flatMap_singleton' t

/-! ## The whole restoration -/

/-- A text has no halves. -/
theorem isHalf_of_mem_points {t : Text} {n : Nat} (h : n ∈ points t) : isHalf n = false := by
  obtain ⟨c, -, rfl⟩ := List.mem_map.1 h
  exact isHalf_toNat c

/-- **A firm text is kept**, wherever it stands. -/
theorem restore_append {w : Text} (hw : IsFirm (points w)) (t u : Text) :
    restore (t ++ (w ++ u)) = restore t ++ (w ++ restore u) := by
  have hsettle := settle_append hw (points t) (points u)
  obtain ⟨⟨h, s, e, -⟩, -⟩ := hw
  have hhalf : isLow h = false := by
    have : isHalf h = false := isHalf_of_mem_points (e ▸ List.mem_cons_self ..)
    rw [isHalf, Bool.or_eq_false_iff] at this
    exact this.2
  have hjoin (a b : Points) :
      joinPairs (a ++ (points w ++ b)) = joinPairs a ++ (points w ++ joinPairs b) := by
    rw [← joinPairs_append_of_not_half (fun n => isHalf_of_mem_points), e, List.cons_append,
      joinPairs_append_of_not_low hhalf]
  rw [restore, points, List.map_append, List.map_append, ← points, ← points, ← points, hsettle,
    hjoin, List.flatMap_append, List.flatMap_append, flatMap_written_points, restore, restore]

end Showcase.HexReference

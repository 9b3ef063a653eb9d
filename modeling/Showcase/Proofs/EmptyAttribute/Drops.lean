import Showcase.Demo.EmptyAttribute

/-!
# What dropping can do

Which assignments are dropped depends on how the text is read as tags. For what is kept, that does
not matter: the new text is the old one less some occurrences of `=""` (`Drops`, `drops_drop`). So a
text with no `=` and no quote in it is kept, wherever it stands (`Drops.append_inv`).
-/

namespace Showcase.EmptyAttribute

/-- The second text is the first one, less some empty assignments. -/
inductive Drops : Text → Text → Prop
  | nil : Drops [] []
  | keep {t t' : Text} (c : Char) (h : Drops t t') : Drops (c :: t) (c :: t')
  | drop {t t' : Text} (h : Drops t t') : Drops ('=' :: '"' :: '"' :: t) t'

theorem Drops.refl : (t : Text) → Drops t t
  | [] => .nil
  | c :: t => .keep c (Drops.refl t)

theorem Drops.append {t t' u u' : Text} (ht : Drops t t') (hu : Drops u u') :
    Drops (t ++ u) (t' ++ u') := by
  induction ht with
  | nil => exact hu
  | keep c _ ih => exact .keep c ih
  | drop _ ih => exact .drop ih

theorem Drops.length_le {t t' : Text} (h : Drops t t') : t'.length ≤ t.length := by
  induction h with
  | nil => exact Nat.le_refl 0
  | keep c _ ih => exact Nat.succ_le_succ ih
  | drop _ ih => exact Nat.le_trans ih (Nat.le_add_right _ 3)

theorem Drops.mem_of_mem {t t' : Text} (h : Drops t t') {c : Char} (hc : c ∈ t') : c ∈ t := by
  induction h with
  | nil => exact hc
  | keep d _ ih =>
    rcases List.mem_cons.1 hc with rfl | hc
    · exact List.mem_cons_self ..
    · exact List.mem_cons_of_mem d (ih hc)
  | drop _ ih => exact List.mem_append_right ['=', '"', '"'] (ih hc)

/-- Here `k` characters have been read as part of an assignment already. -/
theorem drops_replaceFrom (k : Nat) (t : Text) :
    Drops (t.drop k) (Text.replaceFrom "=\"\"".toList [] k t) := by
  fun_induction Text.replaceFrom "=\"\"".toList [] k t with
  | case1 k =>
    rw [List.drop_nil]
    exact .nil
  | case2 k c t ih => exact ih
  | case3 c t h ih =>
    obtain ⟨r, e⟩ := Text.startsWith_iff.1 h
    obtain ⟨rfl, rfl⟩ := List.cons.inj e
    exact .drop ih
  | case4 c t h ih => exact .keep c ih

theorem drops_bare (t : Text) : Drops t (bare t) := drops_replaceFrom 0 t

theorem drops_drop (t : Text) : Drops t (drop t) := by
  fun_induction drop t with
  | case1 t tag r h ih =>
    rw [(eq_append_of_tag? h).1]
    exact (drops_bare tag).append ih
  | case2 => exact .nil
  | case3 c r h ih => exact .keep c ih

/-! ## What is kept -/

theorem Drops.append_inv_left {w u s : Text} (hw : '=' ∉ w) (h : Drops (w ++ u) s) :
    ∃ u', s = w ++ u' ∧ Drops u u' := by
  induction w generalizing s with
  | nil => exact ⟨s, rfl, h⟩
  | cons c w ih =>
    rw [List.mem_cons, not_or] at hw
    generalize e : c :: w ++ u = x at h
    cases h with
    | nil => cases e
    | keep d h =>
      obtain ⟨rfl, rfl⟩ := List.cons.inj e
      obtain ⟨u', rfl, hu⟩ := ih hw.2 h
      exact ⟨u', rfl, hu⟩
    | drop h => exact absurd (List.cons.inj e).1.symm hw.1

/-- **A text with no `=` and no quote in it is kept**, wherever it stands. -/
theorem Drops.append_inv {t w u s : Text} (hne : w ≠ []) (heq : '=' ∉ w) (hquote : '"' ∉ w)
    (h : Drops (t ++ (w ++ u)) s) :
    ∃ t' u', s = t' ++ (w ++ u') ∧ Drops t t' ∧ Drops u u' := by
  -- a quote that comes after `t` is none of `w`
  have hfirst {r : Text} : w ++ u ≠ '"' :: r := by
    obtain ⟨c, w, rfl⟩ := List.exists_cons_of_ne_nil hne
    intro e
    exact hquote ((List.cons.inj e).1 ▸ List.mem_cons_self ..)
  generalize e : t ++ (w ++ u) = x at h
  induction h generalizing t with
  | nil =>
    rw [List.append_eq_nil_iff, List.append_eq_nil_iff] at e
    exact absurd e.2.1 hne
  | keep c h ih =>
    cases t with
    | nil =>
      obtain ⟨u', e', hu⟩ := Drops.append_inv_left heq (e ▸ Drops.keep c h)
      exact ⟨[], u', e', .nil, hu⟩
    | cons d t =>
      obtain ⟨rfl, e'⟩ := List.cons.inj e
      obtain ⟨t', u', rfl, ht, hu⟩ := ih e'
      exact ⟨d :: t', u', rfl, .keep d ht, hu⟩
  | drop h ih =>
    -- the assignment lies in `t`: it would reach into `w` with a quote, or begin in it with `=`
    match t with
    | [] =>
      obtain ⟨u', e', hu⟩ := Drops.append_inv_left heq (e ▸ Drops.drop h)
      exact ⟨[], u', e', .nil, hu⟩
    | [_] => exact absurd (List.cons.inj e).2 hfirst
    | [_, _] => exact absurd (List.cons.inj (List.cons.inj e).2).2 hfirst
    | a :: b :: c :: t =>
      simp only [List.cons_append, List.cons.injEq] at e
      obtain ⟨rfl, rfl, rfl, e'⟩ := e
      obtain ⟨t', u', rfl, ht, hu⟩ := ih e'
      exact ⟨t', u', rfl, .drop ht, hu⟩

end Showcase.EmptyAttribute

import Mathlib.Data.List.Basic
import Showcase.Proofs.HexReference.AnyOrder
import Showcase.Proofs.Text.Utf8

/-!
# What restoration leaves

Restoration has something to do in a text unless every reference of it stands for a half of a
surrogate pair, is written as restoration itself writes halves, and makes no pair with the next one.
Such a text is final (`IsFinal`), and these are just the texts that restoration leaves as they are
and the texts that come out of it (`restore_eq_self_iff_isFinal`).

* What comes out is spelled from a text in which nothing is left to exchange. A reference in it is
  one of the spelled halves: no other begins inside of one or reaches into one
  (`exists_of_reference`), and none is put together from code points that are no halves, since it
  would have been exchanged.
* In a final text, an exchange does not change what is spelled (`Exchange.flatMap_spelled`), so none
  of the exchanges that restoration makes does.
-/

namespace Showcase.HexReference

open Relation

/-! ## Spelling -/

/-- What is written for a code point, as code points. -/
def spelled (n : Nat) : Points :=
  if isHalf n then points ("&#x".toList ++ Text.hex true 4 n ++ [';']) else [n]

theorem points_written {n : Nat} (hn : n < 0x110000) : points (written n) = spelled n := by
  rw [written, spelled]
  split
  · rfl
  · next h => rw [points, List.map_singleton, toNat_ofNat hn (Bool.eq_false_iff.2 h)]

theorem points_flatMap_written {u : Points} (hu : ∀ n ∈ u, n < 0x110000) :
    points (u.flatMap written) = u.flatMap spelled := by
  rw [points, List.map_flatMap]
  exact List.flatMap_congr fun n hn => points_written (hu n hn)

/-- What `restore` gives, in code points: the halves that remain are spelled out. -/
theorem points_restore (t : Text) :
    points (restore t) = (restored (points t)).flatMap spelled :=
  points_flatMap_written (lt_of_exchanges (exchanges_restored _))

/-- A text is told by its code points. -/
theorem points_injective : Function.Injective points :=
  List.map_injective_iff.2 fun _ _ h => Char.toNat_inj.1 h

theorem spelled_of_not_half {n : Nat} (h : isHalf n = false) : spelled n = [n] := by
  rw [spelled, h, if_neg Bool.false_ne_true]

/-- Text without halves is spelled as it is. -/
theorem flatMap_spelled_eq_self {w : Points} (hw : ∀ n ∈ w, isHalf n = false) :
    w.flatMap spelled = w := by
  induction w with
  | nil => rfl
  | cons n w ih =>
    obtain ⟨hn, hw⟩ := List.forall_mem_cons.1 hw
    rw [List.flatMap_cons, spelled_of_not_half hn, ih hw, List.singleton_append]

/-! ## Digits -/

/-- The digits that are written: figures and capitals. -/
theorem hexDigit_toNat (v : Fin 16) :
    (Text.hexDigit true v).toNat = if v.val < 10 then 48 + v.val else 55 + v.val := by
  revert v
  decide

/-- A digit that is no small letter is written for its value. -/
theorem hexDigit_of_digit? {a v : Nat} (h : digit? a = some v) (ha : ¬ (97 ≤ a ∧ a ≤ 102)) :
    (Text.hexDigit true v).toNat = a := by
  have hv := digit?_lt h
  have e := hexDigit_toNat ⟨v, hv⟩
  simp only at e
  rw [e]
  simp only [digit?] at h
  split at h
  -- a decimal digit, and then a capital letter; the small letters are excluded
  · obtain rfl := Option.some.inj h
    rw [if_pos (by omega)]
    omega
  · split at h
    · obtain rfl := Option.some.inj h
      rw [if_neg (by omega)]
      omega
    · cases h

/-- A code point that only other spellings of references have: a capital x, or a digit that is a
small letter. -/
def isVariant (m : Nat) : Bool := m == 88 || (97 ≤ m && m ≤ 102)

/-- The digits that halves are spelled with have one form only. -/
theorem isVariant_hexDigit (v : Nat) : isVariant (Text.hexDigit true (v % 16)).toNat = false := by
  have e := hexDigit_toNat ⟨v % 16, Nat.mod_lt v (by decide)⟩
  simp only at e
  have : v % 16 < 16 := Nat.mod_lt v (by decide)
  simp only [isVariant, e, Bool.or_eq_false_iff, beq_eq_false_iff_ne, Bool.and_eq_false_iff,
    decide_eq_false_iff_not]
  split <;> omega

/-! ## Halves as they are spelled -/

section

variable {n : Nat}

/-- A half is spelled with four digits. -/
theorem spelled_of_half (h : isHalf n = true) :
    spelled n = [38, 35, 120, (Text.hexDigit true (n / 16 / 16 / 16 % 16)).toNat,
      (Text.hexDigit true (n / 16 / 16 % 16)).toNat, (Text.hexDigit true (n / 16 % 16)).toNat,
      (Text.hexDigit true (n % 16)).toNat, 59] := by
  rw [spelled, if_pos h]
  rfl

/-- **A half is spelled as a reference** to it, so decoding it once more finds it again. -/
theorem isReference_spelled (h : isHalf n = true) : IsReference (spelled n) n := by
  obtain ⟨a, b, c, d, e, hd⟩ := exists_points_hex (lt_of_isHalf h)
  refine ⟨120, a, b, c, d, .inl rfl, hd, ?_⟩
  rw [spelled, if_pos h, points_append, points_append, e]
  rfl

/-- Nothing in such a reference has another form. -/
theorem not_isVariant_of_mem_spelled (h : isHalf n = true) {m : Nat} (hm : m ∈ spelled n) :
    isVariant m = false := by
  rw [spelled_of_half h] at hm
  simp only [List.mem_cons, List.not_mem_nil, or_false] at hm
  rcases hm with rfl | rfl | rfl | rfl | rfl | rfl | rfl | rfl
  · rfl
  · rfl
  · rfl
  · exact isVariant_hexDigit _
  · exact isVariant_hexDigit _
  · exact isVariant_hexDigit _
  · exact isVariant_hexDigit _
  · rfl

/-- A half has one spelling without variants. -/
theorem eq_spelled_of_isReference {w : Points} (hw : IsReference w n) (h : isHalf n = true)
    (hv : ∀ m ∈ w, isVariant m = false) : w = spelled n := by
  obtain ⟨x, a, b, c, d, hx, hn, rfl⟩ := hw
  simp only [number?, Option.bind_eq_bind, Option.bind_eq_some_iff, Option.pure_def,
    Option.some.injEq] at hn
  obtain ⟨p, ha, q, hb, r, hc, s, hd, rfl⟩ := hn
  simp only [List.forall_mem_cons, isVariant, Bool.or_eq_false_iff, beq_eq_false_iff_ne,
    Bool.and_eq_false_iff, decide_eq_false_iff_not] at hv
  obtain ⟨-, -, ⟨hx', -⟩, ⟨-, ha'⟩, ⟨-, hb'⟩, ⟨-, hc'⟩, ⟨-, hd'⟩, -⟩ := hv
  obtain rfl := hx.resolve_right hx'
  -- the digits of the number are the values of the four digits
  have hp := digit?_lt ha
  have hq := digit?_lt hb
  have hr := digit?_lt hc
  have hs := digit?_lt hd
  have h₁ : (((p * 16 + q) * 16 + r) * 16 + s) / 16 / 16 / 16 % 16 = p := by omega
  have h₂ : (((p * 16 + q) * 16 + r) * 16 + s) / 16 / 16 % 16 = q := by omega
  have h₃ : (((p * 16 + q) * 16 + r) * 16 + s) / 16 % 16 = r := by omega
  have h₄ : (((p * 16 + q) * 16 + r) * 16 + s) % 16 = s := by omega
  rw [spelled_of_half h, h₁, h₂, h₃, h₄, hexDigit_of_digit? ha (by omega),
    hexDigit_of_digit? hb (by omega), hexDigit_of_digit? hc (by omega),
    hexDigit_of_digit? hd (by omega)]

end

/-! ## References in spelled texts -/

/-- A reference begins with an `&` and has no other one. -/
theorem IsReference.exists_cons {w : Points} {n : Nat} (h : IsReference w n) :
    ∃ v, w = 38 :: v ∧ 38 ∉ v ∧ ∀ m ∈ w, isHalf m = false := by
  obtain ⟨x, a, b, c, d, hx, hn, rfl⟩ := h
  have hinner (m : Nat) (hm : m ∈ [35, x, a, b, c, d, 59]) := isInner_of_mem_reference hx hn hm
  refine ⟨_, rfl, fun hmem => ?_, List.forall_mem_cons.2 ⟨rfl, fun m hm => ?_⟩⟩
  · have := isOpener_of_isInner (hinner 38 hmem)
    cases this
  · have := le_of_isInner (hinner m hm)
    simp only [isHalf, isHigh, isLow, Bool.or_eq_false_iff, Bool.and_eq_false_iff,
      decide_eq_false_iff_not]
    omega

theorem spelled_ne_nil (n : Nat) : spelled n ≠ [] := by
  rw [spelled]
  split <;> exact List.cons_ne_nil _ _

/-- Without an `&`, a beginning of a spelled text has only code points that stand for themselves. -/
theorem prefix_of_flatMap_spelled {u v b : Points} (hv : 38 ∉ v)
    (e : u.flatMap spelled = v ++ b) : ∃ u', u = v ++ u' ∧ b = u'.flatMap spelled := by
  induction v generalizing u with
  | nil => exact ⟨u, rfl, e.symm⟩
  | cons m v ih =>
    rw [List.mem_cons, not_or] at hv
    cases u with
    | nil => cases e
    | cons k u =>
      rw [List.flatMap_cons] at e
      cases hk : isHalf k with
      -- a half is spelled with an ampersand at its front, which `v` does not have
      | true =>
        obtain ⟨w, hw, -⟩ := (isReference_spelled hk).exists_cons
        rw [hw] at e
        exact absurd (List.cons.inj e).1 hv.1
      | false =>
        rw [spelled_of_not_half hk, List.singleton_append, List.cons_append] at e
        obtain ⟨rfl, htail⟩ := List.cons.inj e
        obtain ⟨u', rfl, rfl⟩ := ih hv.2 htail
        exact ⟨u', rfl, rfl⟩

/-- What is restored stays so when its front is taken off. -/
theorem IsRestored.of_suffix {u v : Points} (hu : IsRestored u) (h : v <:+ u) : IsRestored v := by
  obtain ⟨a, rfl⟩ := h
  intro s hs
  have := hs.append a []
  rw [List.append_nil] at this
  exact hu _ this

/-- What is spelled for one code point has no `&` but in its first place. -/
theorem eq_nil_of_spelled {k : Nat} {a s : Points} (h : spelled k = a ++ 38 :: s) : a = [] := by
  cases a with
  | nil => rfl
  | cons m a =>
    cases hk : isHalf k with
    | true =>
      obtain ⟨v, hv, hamp, -⟩ := (isReference_spelled hk).exists_cons
      rw [hv] at h
      exact absurd ((List.cons.inj h).2 ▸ List.mem_append_right a (List.mem_cons_self ..)) hamp
    | false =>
      rw [spelled_of_not_half hk] at h
      simp at h

/-- **A reference in a spelled text is a half that is spelled**, if nothing is left to exchange. -/
theorem exists_of_reference {u a w b : Points} {n : Nat} (hu : IsRestored u)
    (hw : IsReference w n) (e : u.flatMap spelled = a ++ (w ++ b)) :
    ∃ u₁ u₂, u = u₁ ++ n :: u₂ ∧ isHalf n = true ∧ w = spelled n ∧ a = u₁.flatMap spelled ∧
      b = u₂.flatMap spelled := by
  obtain ⟨v, hv, hamp, -⟩ := hw.exists_cons
  induction u generalizing a with
  | nil => simp [hv] at e
  | cons k u ih =>
    have hrest := hu.of_suffix (List.suffix_cons k u)
    rw [List.flatMap_cons] at e
    rcases List.append_eq_append_iff.1 e with ⟨s, rfl, e'⟩ | ⟨s, hk, e'⟩
    · -- it begins after what is spelled for the first code point
      obtain ⟨u₁, u₂, rfl, hn, hspelled, rfl, rfl⟩ := ih hrest e'
      exact ⟨k :: u₁, u₂, rfl, hn, hspelled, rfl, rfl⟩
    · cases s with
      | nil =>
        obtain ⟨u₁, u₂, rfl, hn, hspelled, hnil, rfl⟩ := ih (a := []) hrest e'.symm
        refine ⟨k :: u₁, u₂, rfl, hn, hspelled, ?_, rfl⟩
        rw [List.flatMap_cons, ← hnil, hk, List.append_nil, List.append_nil]
      | cons j s =>
        obtain rfl : 38 = j := by
          rw [hv] at e'
          exact (List.cons.inj e').1
        obtain rfl := eq_nil_of_spelled hk
        rw [List.nil_append] at hk
        rw [← hk] at e'
        cases hhalf : isHalf k with
        | true =>
          obtain ⟨rfl, rfl, rfl⟩ := hw.piece.unique (isReference_spelled hhalf).piece e'
          exact ⟨[], u, rfl, hhalf, rfl, rfl, rfl⟩
        | false =>
          -- it would have been there before spelling
          rw [spelled_of_not_half hhalf, hv, List.singleton_append, List.cons_append] at e'
          obtain ⟨rfl, htail⟩ := List.cons.inj e'
          obtain ⟨u', rfl, -⟩ := prefix_of_flatMap_spelled hamp htail.symm
          have := Exchange.intro [] u' hw.piece
          rw [hv] at this
          exact absurd this (hu _)

/-! ## Final texts -/

/-- A text in which restoration has nothing to do. -/
structure IsFinal (t : Points) : Prop where
  /-- a reference has a small x and no small letter among its digits, and stands for a half -/
  reference : ∀ {w : Points} {n : Nat}, IsReference w n → w <:+: t →
    (∀ m ∈ w, isVariant m = false) ∧ isHalf n = true
  /-- no reference for a high half is followed by one for a low half -/
  apart : ∀ {v w : Points} {m n : Nat}, IsReference v m → IsReference w n → v ++ w <:+: t →
    ¬ (isHigh m = true ∧ isLow n = true)

/-- Exchanges in a text do not change what is spelled, if that is final. -/
theorem Exchange.flatMap_spelled {t u v : Points} (ht : IsFinal t) (h : Exchange u v)
    (hu : u.flatMap spelled = t) : v.flatMap spelled = t := by
  subst hu
  obtain ⟨a, b, h⟩ := h
  rename_i w n
  simp only [List.flatMap_append, List.flatMap_cons] at ht ⊢
  cases h with
  | reference hx hn =>
    -- the reference is spelled as it is
    have href : IsReference _ n := ⟨_, _, _, _, _, hx, hn, rfl⟩
    obtain ⟨-, -, -, hhalf⟩ := href.exists_cons
    rw [flatMap_spelled_eq_self hhalf] at ht ⊢
    obtain ⟨hv, hh⟩ := ht.reference href (List.infix_append' ..)
    rw [eq_spelled_of_isReference href hh hv]
  | @pair high low hh hl =>
    have hhigh : isHalf high = true := by rw [isHalf, hh, Bool.true_or]
    have hlow : isHalf low = true := by rw [isHalf, hl, Bool.or_true]
    refine absurd ⟨hh, hl⟩
      (ht.apart (isReference_spelled hhigh) (isReference_spelled hlow) ?_)
    rw [List.flatMap_cons, List.flatMap_singleton]
    exact List.infix_append' ..

/-- **Restored text is final once its halves are spelled out.** -/
theorem isFinal_flatMap_spelled {u : Points} (hu : IsRestored u) : IsFinal (u.flatMap spelled) where
  reference := by
    rintro w n hw ⟨a, b, e⟩
    rw [List.append_assoc] at e
    obtain ⟨-, -, -, hn, rfl, -, -⟩ := exists_of_reference hu hw e.symm
    exact ⟨fun m hm => not_isVariant_of_mem_spelled hn hm, hn⟩
  apart := by
    rintro v w m n hv hw ⟨a, b, e⟩ ⟨hm, hn⟩
    rw [List.append_assoc, List.append_assoc] at e
    obtain ⟨u₁, u₂, rfl, -, -, -, e₂⟩ := exists_of_reference hu hv e.symm
    have hrest : IsRestored u₂ := hu.of_suffix ((List.suffix_cons m u₂).trans
      (List.suffix_append u₁ _))
    obtain ⟨u₃, u₄, rfl, -, -, e₃, -⟩ := exists_of_reference (a := []) hrest hw e₂.symm
    -- the halves are neighbours
    have hnil : u₃ = [] := by
      cases u₃ with
      | nil => rfl
      | cons k u₃ =>
        have := (List.append_eq_nil_iff.1 e₃.symm).1
        exact absurd this (spelled_ne_nil k)
    rw [hnil] at hu
    exact hu _ (Exchange.intro u₁ u₄ (.pair hm hn))

/-! ## Restoration -/

/-- Final text is restored to itself. -/
theorem flatMap_spelled_restored {t : Points} (ht : IsFinal t)
    (hhalf : ∀ n ∈ t, isHalf n = false) : (restored t).flatMap spelled = t := by
  have h := exchanges_restored t
  generalize restored t = u at h
  induction h with
  | refl => exact flatMap_spelled_eq_self hhalf
  | tail _ h ih => exact h.flatMap_spelled ht ih

/-- **What restoration leaves.** -/
theorem restore_eq_self_iff_isFinal (t : Text) :
    (restore t = t ↔ IsFinal (points t)) ∧ IsFinal (points (restore t)) ∧
      points (restore t) = (restored (points t)).flatMap spelled ∧
      (∀ n ∈ points (restore t), isHalf n = false) ∧
      Text.decode (Text.utf8 (restore t)) = .ok (restore t) := by
  have hfinal : IsFinal (points (restore t)) := by
    rw [points_restore]
    exact isFinal_flatMap_spelled (isRestored_restored _)
  refine ⟨⟨fun h => ?_, fun h => points_injective ?_⟩, hfinal, points_restore t,
    fun n => isHalf_of_mem_points, Text.decode_utf8 _⟩
  · rw [← h]
    exact hfinal
  · rw [points_restore]
    exact flatMap_spelled_restored h fun n => isHalf_of_mem_points

end Showcase.HexReference

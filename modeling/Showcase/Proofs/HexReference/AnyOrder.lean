import Showcase.Proofs.HexReference.Confluence

/-!
# Restoration in any order

References may be replaced one at a time, at any place and in any order: this always ends, and it
ends in the text that passes end in (`replacements_end_iff`). Two references of a text are the same
or apart, so two replacements can be made one after the other (`Replace.diamond`); the rest is the
theory of `Replacement`.

What is made of that text is told sign by sign (`IsReading`). The signs of a text in code points are
pairs of halves, halves that are left over, and characters; a high half and a low half after it are
never left over. Restoration writes a pair as the character it makes, a half that is left over as a
reference, and a character as it is (`restore_in_any_order`).
-/

namespace Showcase.HexReference

open Relation

/-! ## Replacements -/

theorem IsReference.piece {w : Points} {n : Nat} (h : IsReference w n) : Piece w n := by
  obtain ⟨x, a, b, c, d, hx, hn, rfl⟩ := h
  exact .reference hx hn

/-- A replacement takes place somewhere in the text. -/
theorem replace_iff {t u : Points} :
    Replace t u ↔ ∃ a b w n, IsReference w n ∧ t = a ++ (w ++ b) ∧ u = a ++ n :: b := by
  constructor
  · rintro ⟨a, b, h⟩
    exact ⟨a, b, _, _, h, rfl, rfl⟩
  · rintro ⟨a, b, w, n, h, rfl, rfl⟩
    exact .intro a b h

/-- **Two replacements can be made one after the other**, unless they are the same. -/
theorem Replace.diamond {t u v : Points} (hu : Replace t u) (hv : Replace t v) :
    ∃ x, ReflGen Replace u x ∧ ReflGen Replace v x :=
  diamond_of_pieces IsReference.piece replace_iff hu hv

/-- **Sequences of replacements that cannot go on end in the text that passes end in.** -/
theorem replacements_end_iff {t u : Points} :
    (ReflTransGen Replace t u ∧ ∀ v, ¬ Replace u v) ↔ u = settle t := by
  constructor
  · rintro ⟨h, hu⟩
    exact eq_of_ends Replace.diamond h (replacements_settle t) hu (not_replace_settle t)
  · rintro rfl
    exact ⟨replacements_settle t, not_replace_settle t⟩

/-! ## Signs -/

/-- A sign of a text in code points. -/
inductive Sign
  /-- a character -/
  | char (c : Char)
  /-- a high half and a low half -/
  | pair (high low : Nat)
  /-- a half that is left over -/
  | half (n : Nat)

namespace Sign

/-- The code points of a sign. -/
def points : Sign → Points
  | char c => [c.toNat]
  | pair high low => [high, low]
  | half n => [n]

/-- The sign as restoration writes it. -/
def text : Sign → Text
  | char c => [c]
  | pair high low => [Char.ofNat (paired high low)]
  | half n => "&#x".toList ++ Text.hex true 4 n ++ [';']

/-- The halves of a sign are halves. -/
def IsSound : Sign → Prop
  | char _ => True
  | pair high low => isHigh high = true ∧ isLow low = true
  | half n => isHalf n = true

end Sign

/-- The signs are those of the text. -/
structure IsReading (signs : List Sign) (t : Points) : Prop where
  /-- they make up the text -/
  points_eq : t = signs.flatMap Sign.points
  /-- halves are where they should be -/
  sound : ∀ s ∈ signs, s.IsSound
  /-- no pair is left over -/
  no_pair : ∀ high low, isHigh high = true → isLow low = true →
    ¬ [Sign.half high, Sign.half low] <:+: signs

theorem not_isHigh_of_isLow {n : Nat} (h : isLow n = true) : isHigh n = false := by
  have := isOpener_of_isLow h
  rw [isOpener, Bool.or_eq_false_iff] at this
  exact this.2

/-- Two halves make a character. -/
theorem isHalf_paired (high low : Nat) : isHalf (paired high low) = false := by
  have := le_paired high low
  rw [← Bool.not_eq_true]
  intro h
  have := lt_of_isHalf h
  omega

/-- The signs after the first one are a reading of what follows it. -/
theorem IsReading.tail {s : Sign} {signs : List Sign} {t : Points}
    (h : IsReading (s :: signs) t) : IsReading signs (signs.flatMap Sign.points) where
  points_eq := rfl
  sound := (List.forall_mem_cons.1 h.sound).2
  no_pair high low hh hl hi :=
    h.no_pair high low hh hl (hi.trans (List.suffix_cons s signs).isInfix)

/-- A half that is left over does not make a pair with what follows it. -/
theorem IsReading.joinPairs_half {n : Nat} {signs : List Sign} {t : Points}
    (h : IsReading (.half n :: signs) t) :
    joinPairs (n :: signs.flatMap Sign.points) = n :: joinPairs (signs.flatMap Sign.points) := by
  -- a half joins only with a low one behind a high one
  have keep {m : Nat} {t : Points} (hm : isHigh n = true → isLow m = false) :
      joinPairs (n :: m :: t) = n :: joinPairs (m :: t) := by
    have hp : (isHigh n && isLow m) = false := by
      cases hn : isHigh n with
      | false => rfl
      | true => rw [hm hn, Bool.and_false]
    rw [joinPairs, hp, if_neg Bool.false_ne_true]
  cases signs with
  | nil => rfl
  | cons s signs =>
    have hs := h.sound s (by simp)
    -- no sign that may come next begins with such a half
    cases s with
    | char c =>
      refine keep fun _ => ?_
      have := isHalf_toNat c
      rw [isHalf, Bool.or_eq_false_iff] at this
      exact this.2
    | pair high low =>
      refine keep fun _ => ?_
      rw [← Bool.not_eq_true]
      intro hlow
      exact Bool.noConfusion ((not_isHigh_of_isLow hlow).symm.trans hs.1)
    | half m =>
      refine keep fun hn => ?_
      rw [← Bool.not_eq_true]
      intro hm
      exact h.no_pair n m hn hm (List.prefix_append _ signs).isInfix

/-- Joining pairs and writing what comes of it goes over a text sign by sign. -/
theorem IsReading.flatMap_written {signs : List Sign} {t : Points} (h : IsReading signs t) :
    (joinPairs t).flatMap written = signs.flatMap Sign.text := by
  induction signs generalizing t with
  | nil =>
    rw [h.points_eq]
    rfl
  | cons s signs ih =>
    have hs := h.sound s (List.mem_cons_self ..)
    rw [h.points_eq, List.flatMap_cons, List.flatMap_cons, ← ih h.tail]
    -- one case for each kind of sign; the induction goes over what follows it
    cases s with
    | char c =>
      have := isHalf_toNat c
      rw [isHalf, Bool.or_eq_false_iff] at this
      rw [Sign.points, List.singleton_append, joinPairs_cons_of_not_high this.1, List.flatMap_cons,
        written_toNat]
      rfl
    | pair high low =>
      have hp : (isHigh high && isLow low) = true := by rw [hs.1, hs.2]; rfl
      rw [Sign.points, List.cons_append, List.cons_append, joinPairs, if_pos hp, List.flatMap_cons,
        written, isHalf_paired, if_neg Bool.false_ne_true]
      rfl
    | half n =>
      have hn : isHalf n = true := hs
      rw [Sign.points, List.singleton_append, h.joinPairs_half, List.flatMap_cons, written,
        if_pos hn]
      rfl

theorem IsReading.nil : IsReading [] [] where
  points_eq := rfl
  sound := List.forall_mem_nil _
  no_pair high low _ _ h := by simp at h

/-- A sound sign may come first, unless it is a half that pairs with the next. -/
theorem IsReading.cons {s : Sign} {signs : List Sign} {t : Points} (h : IsReading signs t)
    (hs : s.IsSound)
    (hpair : ∀ high low rest, s = .half high → signs = .half low :: rest →
      isHigh high = true → isLow low = false) : IsReading (s :: signs) (s.points ++ t) where
  points_eq := by rw [List.flatMap_cons, ← h.points_eq]
  sound := List.forall_mem_cons.2 ⟨hs, h.sound⟩
  no_pair high low hh hl hi := by
    rcases List.infix_cons_iff.1 hi with ⟨rest, e⟩ | hi
    · obtain ⟨e₁, e₂⟩ := List.cons.inj e
      exact Bool.noConfusion ((hpair high low rest e₁.symm e₂.symm hh).symm.trans hl)
    · exact h.no_pair high low hh hl hi

/-- The sign of a single code point. -/
def signOf (n : Nat) : Sign := if isHalf n then .half n else .char (Char.ofNat n)

/-- Every code point is a sound sign by itself. -/
theorem isSound_signOf (n : Nat) : (signOf n).IsSound := by
  rw [signOf]
  split
  · next h => exact h
  · exact trivial

theorem points_signOf {n : Nat} (hn : n < 0x110000) : (signOf n).points = [n] := by
  rw [signOf]
  split
  · rfl
  · next h => exact congrArg (fun n => [n]) (toNat_ofNat hn (Bool.eq_false_iff.2 h))

theorem signOf_eq_half {n m : Nat} (h : signOf n = .half m) : n = m := by
  rw [signOf] at h
  split at h
  · exact Sign.half.inj h
  · cases h

/-- **Every text has signs.** -/
theorem exists_reading {t : Points} (ht : ∀ n ∈ t, n < 0x110000) :
    ∃ signs, IsReading signs t := by
  fun_induction joinPairs t with
  | case1 => exact ⟨[], .nil⟩
  | case2 n =>
    have h := IsReading.nil.cons (isSound_signOf n) (by simp)
    rw [points_signOf (ht n (List.mem_cons_self ..))] at h
    exact ⟨_, h⟩
  | case3 n m t hp ih =>
    rw [Bool.and_eq_true] at hp
    obtain ⟨signs, h⟩ := ih fun k hk => ht k (by simp [hk])
    exact ⟨_, h.cons (s := .pair n m) hp (by simp)⟩
  | case4 n m t hp ih =>
    obtain ⟨hn, ht⟩ := List.forall_mem_cons.1 ht
    obtain ⟨signs, h⟩ := ih ht
    have h := h.cons (isSound_signOf n) fun high low rest e e' hh => by
      -- the two halves are `n` and `m`
      obtain rfl := signOf_eq_half e
      obtain ⟨rfl, -⟩ := List.cons.inj (e' ▸ h.points_eq)
      rwa [hh, Bool.true_and, Bool.not_eq_true] at hp
    rw [points_signOf hn] at h
    exact ⟨_, h⟩

/-- **Restoration does not depend on an order.** Replacing references one at a time always ends, and
it ends in one text, which passes reach as well; what is written is read off the signs of that
text. -/
theorem restore_in_any_order (t : Text) :
    (WellFounded fun u s => Replace s u) ∧
      (∀ s u, (ReflTransGen Replace s u ∧ ∀ v, ¬ Replace u v) ↔ u = settle s) ∧
      (∀ s, ∃ n, settle s = pass^[n] s) ∧
      (∃ signs, IsReading signs (settle (points t))) ∧
      ∀ signs, IsReading signs (settle (points t)) → restore t = signs.flatMap Sign.text := by
  refine ⟨wellFounded_replace, fun s u => replacements_end_iff, exists_settle_eq_iterate, ?_, ?_⟩
  · exact exists_reading (lt_of_exchanges (exchanges_settle _))
  · exact fun signs h => h.flatMap_written

end Showcase.HexReference

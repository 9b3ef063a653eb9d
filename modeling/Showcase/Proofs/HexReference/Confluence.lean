import Showcase.Proofs.HexReference.Replacement

/-!
# Confluence of restoration

Restoration works in a fixed order: references first, in passes, and then halves of surrogate pairs.
The order does not matter. Both are exchanges of a *piece* of the text for one code point (`Piece`):
a reference for its number, and a high half with a low half for what they make.

* Each piece begins with a code point that no piece has in a later place, so two pieces of a text
  are the same or apart, and two exchanges can be made one after the other (`Exchange.diamond`).
* So what an exchange leads to does not depend on the order, and a text has one `restored` form,
  in which no piece is left.

A text that was restored is written with references again where halves are left over. Exchanging
those leads back to the restored form, and so a part of a text may be restored beforehand
(`restore_append_restore`): references and pairs that lie across its ends are found all the same.
-/

namespace Showcase.HexReference

open Relation

/-! ## Pieces -/

/-- A piece of a text and the code point that it stands for. -/
inductive Piece : Points → Nat → Prop
  | reference {x a b c d n : Nat} (hx : x = 120 ∨ x = 88) (hn : number? a b c d = some n) :
      Piece [38, 35, x, a, b, c, d, 59] n
  | pair {high low : Nat} (hh : isHigh high = true) (hl : isLow low = true) :
      Piece [high, low] (paired high low)

/-- A code point that a piece may begin with. -/
def isOpener (n : Nat) : Bool := n == 38 || isHigh n

/-- What a reference has in it is ASCII. -/
theorem le_of_isInner {n : Nat} (h : isInner n = true) : n ≤ 120 := by
  simp only [isInner, digit?, Bool.or_eq_true, beq_iff_eq] at h
  split at h
  · omega
  · split at h
    · omega
    · split at h
      · omega
      · simp only [Option.isSome_none, Bool.false_eq_true, or_false] at h
        omega

/-- A reference has only one `&`, and no half of a pair. -/
theorem isOpener_of_isInner {n : Nat} (h : isInner n = true) : isOpener n = false := by
  have hn := le_of_isInner h
  have hne : n ≠ 38 := by
    rintro rfl
    simp [isInner, digit?] at h
  simp only [isOpener, isHigh, Bool.or_eq_false_iff, beq_eq_false_iff_ne, Bool.and_eq_false_iff,
    decide_eq_false_iff_not]
  omega

/-- A low half opens nothing. -/
theorem isOpener_of_isLow {n : Nat} (h : isLow n = true) : isOpener n = false := by
  simp only [isLow, Bool.and_eq_true, decide_eq_true_eq] at h
  simp only [isOpener, isHigh, Bool.or_eq_false_iff, beq_eq_false_iff_ne, Bool.and_eq_false_iff,
    decide_eq_false_iff_not]
  omega

/-- A piece has an opener in its first place and nowhere else. -/
theorem Piece.exists_cons {w : Points} {n : Nat} (h : Piece w n) :
    ∃ k t, w = k :: t ∧ isOpener k = true ∧ ∀ m ∈ t, isOpener m = false := by
  cases h with
  | reference hx hn =>
    exact ⟨38, _, rfl, rfl, fun m hm => isOpener_of_isInner (isInner_of_mem_reference hx hn hm)⟩
  | @pair high low hh hl =>
    refine ⟨high, [low], rfl, by simp [isOpener, hh], fun m hm => ?_⟩
    obtain rfl := List.mem_singleton.1 hm
    exact isOpener_of_isLow hl

/-- Pieces are made of small code points. -/
theorem Piece.lt_of_mem {w : Points} {n k : Nat} (h : Piece w n) (hk : k ∈ w) : k < 0x10000 := by
  cases h with
  | reference hx hn =>
    rcases List.mem_cons.1 hk with rfl | hk
    · omega
    · have := le_of_isInner (isInner_of_mem_reference hx hn hk)
      omega
  | pair hh hl =>
    simp only [isHigh, isLow, Bool.and_eq_true, decide_eq_true_eq] at hh hl
    simp only [List.mem_cons, List.not_mem_nil, or_false] at hk
    omega

/-- Two pieces at one place are one piece. -/
theorem Piece.unique {w w' b b' : Points} {n n' : Nat} (h : Piece w n) (h' : Piece w' n')
    (e : w ++ b = w' ++ b') : w = w' ∧ n = n' ∧ b = b' := by
  cases h with
  | @reference x a b c d _ hx hn =>
    cases h' with
    | reference hx' hn' =>
      simp only [List.cons_append, List.nil_append, List.cons.injEq, true_and] at e
      obtain ⟨rfl, rfl, rfl, rfl, rfl, rfl⟩ := e
      exact ⟨rfl, Option.some.inj (hn.symm.trans hn'), rfl⟩
    | pair hh hl =>
      -- a reference begins with an ampersand, which is no half
      obtain ⟨rfl, -⟩ := List.cons.inj e
      cases hh
  | pair hh hl =>
    cases h' with
    | reference hx' hn' =>
      obtain ⟨rfl, -⟩ := List.cons.inj e
      cases hh
    | pair hh' hl' =>
      simp only [List.cons_append, List.nil_append, List.cons.injEq] at e
      obtain ⟨rfl, rfl, rfl⟩ := e
      exact ⟨rfl, rfl, rfl⟩

/-! ## Exchanges -/

/-- One piece of a text is exchanged for what it stands for. -/
inductive Exchange : Points → Points → Prop
  | intro (a b : Points) {w : Points} {n : Nat} (h : Piece w n) :
      Exchange (a ++ (w ++ b)) (a ++ n :: b)

/-- An exchange may be made inside of a text. -/
theorem Exchange.append {s t : Points} (h : Exchange s t) (a b : Points) :
    Exchange (a ++ (s ++ b)) (a ++ (t ++ b)) := by
  obtain ⟨u, v, hw⟩ := h
  simpa only [List.append_assoc, List.cons_append] using Exchange.intro (a ++ u) (v ++ b) hw

/-- What can be exchanged in a text can be exchanged in a longer one. -/
theorem exchanges_append {s t : Points} (h : ReflTransGen Exchange s t) (a b : Points) :
    ReflTransGen Exchange (a ++ (s ++ b)) (a ++ (t ++ b)) :=
  h.lift (fun u => a ++ (u ++ b)) fun _ _ h => h.append a b

/-- So may several exchanges. -/
theorem exchanges_cons {s t : Points} (n : Nat) (h : ReflTransGen Exchange s t) :
    ReflTransGen Exchange (n :: s) (n :: t) := by
  simpa only [List.append_nil, List.cons_append, List.nil_append] using exchanges_append h [n] []

/-- Of two pieces at different places, the second begins after the end of the first. -/
theorem Piece.apart {w w' b b' s : Points} {n n' k : Nat} (h : Piece w n) (h' : Piece w' n')
    (e : w ++ b = k :: s ++ (w' ++ b')) : ∃ m, k :: s = w ++ m ∧ b = m ++ (w' ++ b') := by
  rcases List.append_eq_append_iff.1 e with ⟨m, e₁, e₂⟩ | ⟨m, e₁, e₂⟩
  · exact ⟨m, e₁, e₂⟩
  · obtain ⟨j, t, rfl, -, ht⟩ := h.exists_cons
    obtain ⟨j', t', rfl, hj', -⟩ := h'.exists_cons
    cases m with
    | nil => exact ⟨[], by simpa using e₁.symm, by simpa using e₂.symm⟩
    | cons i m =>
      -- the second piece would begin inside the first one
      obtain ⟨rfl, -⟩ := List.cons.inj e₂
      obtain ⟨-, rfl⟩ := List.cons.inj e₁
      rw [ht _ (List.mem_append_right s (List.mem_cons_self ..))] at hj'
      cases hj'

/-- Two pieces of a text are the same, or each of them is still there when the other one has been
exchanged, and then both orders lead to one text. -/
theorem Piece.commute {a b a' b' w w' : Points} {n n' : Nat} (h : Piece w n) (h' : Piece w' n')
    (e : a ++ (w ++ b) = a' ++ (w' ++ b')) :
    a ++ n :: b = a' ++ n' :: b' ∨
      ∃ c d c' d', a ++ n :: b = c ++ (w' ++ d) ∧ a' ++ n' :: b' = c' ++ (w ++ d') ∧
        c ++ n' :: d = c' ++ n :: d' := by
  -- one of the two pieces begins first; if neither does, they are the same piece
  rcases List.append_eq_append_iff.1 e with ⟨s, rfl, es⟩ | ⟨s, rfl, es⟩
  · cases s with
    | nil =>
      obtain ⟨-, rfl, rfl⟩ := h.unique h' es
      exact .inl (by rw [List.append_nil])
    | cons k s =>
      obtain ⟨m, hm, rfl⟩ := h.apart h' es
      refine .inr ⟨a ++ n :: m, b', a, m ++ n' :: b', ?_, ?_, ?_⟩ <;> simp [hm]
  · cases s with
    | nil =>
      obtain ⟨-, rfl, rfl⟩ := h'.unique h es
      exact .inl (by rw [List.append_nil])
    | cons k s =>
      obtain ⟨m, hm, rfl⟩ := h'.apart h es
      refine .inr ⟨a', m ++ n :: b, a' ++ n' :: m, b, ?_, ?_, ?_⟩ <;> simp [hm]

/-- Exchanges of pieces of one kind can be made one after the other, unless they are the same. -/
theorem diamond_of_pieces {P : Points → Nat → Prop} {r : Points → Points → Prop}
    (hP : ∀ {w n}, P w n → Piece w n)
    (hr : ∀ {t u}, r t u ↔ ∃ a b w n, P w n ∧ t = a ++ (w ++ b) ∧ u = a ++ n :: b)
    {t u v : Points} (hu : r t u) (hv : r t v) : ∃ x, ReflGen r u x ∧ ReflGen r v x := by
  obtain ⟨a, b, w, n, h, rfl, rfl⟩ := hr.1 hu
  obtain ⟨a', b', w', n', h', e, rfl⟩ := hr.1 hv
  rcases (hP h).commute (hP h') e with e | ⟨c, d, c', d', eu, ev, ex⟩
  · rw [e]
    exact ⟨_, .refl, .refl⟩
  · refine ⟨c ++ n' :: d, .single (hr.2 ⟨c, d, w', n', h', eu, rfl⟩), ?_⟩
    exact .single (hr.2 ⟨c', d', w, n, h, ev, ex⟩)

/-- **An exchange**, by the piece that it takes and what it puts there. -/
theorem exchange_iff {t u : Points} :
    Exchange t u ↔ ∃ a b w n, Piece w n ∧ t = a ++ (w ++ b) ∧ u = a ++ n :: b := by
  constructor
  · rintro ⟨a, b, h⟩
    exact ⟨a, b, _, _, h, rfl, rfl⟩
  · rintro ⟨a, b, w, n, h, rfl, rfl⟩
    exact .intro a b h

/-- **Two exchanges can be made one after the other**, unless they are the same. -/
theorem Exchange.diamond {t u v : Points} (hu : Exchange t u) (hv : Exchange t v) :
    ∃ x, ReflGen Exchange u x ∧ ReflGen Exchange v x :=
  diamond_of_pieces id exchange_iff hu hv

/-- Nothing can be exchanged in the text. -/
def IsRestored (t : Points) : Prop := ∀ u, ¬ Exchange t u

/-- What exchanges lead to in the end does not depend on their order. -/
theorem IsRestored.unique {t u v : Points} (hu : ReflTransGen Exchange t u)
    (hv : ReflTransGen Exchange t v) (hu' : IsRestored u) (hv' : IsRestored v) : u = v :=
  eq_of_ends Exchange.diamond hu hv hu' hv'

/-! ## The restored form -/

/-- The text with nothing left to exchange in it. -/
def restored (t : Points) : Points := joinPairs (settle t)

/-- A reference that is replaced is exchanged. -/
theorem Replace.exchange {s t : Points} (h : Replace s t) : Exchange s t := by
  obtain ⟨a, b, x, c, d, e, f, hx, hn, rfl⟩ := h
  exact .intro a b (.reference hx hn)

/-- Passes over a text are exchanges. -/
theorem exchanges_settle (t : Points) : ReflTransGen Exchange t (settle t) :=
  (replacements_settle t).lift id fun _ _ h => h.exchange

/-- Joining pairs is a number of exchanges. -/
theorem exchanges_joinPairs (t : Points) : ReflTransGen Exchange t (joinPairs t) := by
  fun_induction joinPairs t with
  | case1 => exact .refl
  | case2 => exact .refl
  | case3 n m t h ih =>
    rw [Bool.and_eq_true] at h
    exact (exchanges_cons _ ih).head (Exchange.intro [] t (.pair h.1 h.2))
  | case4 n m t _ ih => exact exchanges_cons n ih

/-- So restoration is a number of exchanges. -/
theorem exchanges_restored (t : Points) : ReflTransGen Exchange t (restored t) :=
  (exchanges_settle t).trans (exchanges_joinPairs _)

/-- A pair makes a character beyond the first plane. -/
theorem le_paired (high low : Nat) : 0x10000 ≤ paired high low := by
  unfold paired
  omega

/-- Joining leaves small code points where they are. -/
theorem prefix_of_joinPairs {t w b : Points} (hw : ∀ n ∈ w, n < 0x10000)
    (h : joinPairs t = w ++ b) : ∃ b', t = w ++ b' ∧ b = joinPairs b' := by
  induction w generalizing t with
  | nil => exact ⟨t, rfl, h.symm⟩
  | cons k w ih =>
    obtain ⟨hk, hw'⟩ := List.forall_mem_cons.1 hw
    -- only a pair changes, and it becomes a large code point
    fun_cases joinPairs t with
    | case1 => cases h
    | case2 n =>
      obtain ⟨rfl, e⟩ := List.cons.inj h
      obtain ⟨b', e', rfl⟩ := ih (t := []) hw' e
      exact ⟨b', by rw [List.cons_append, ← e'], rfl⟩
    | case3 n m t hp =>
      rw [joinPairs, if_pos hp] at h
      have := le_paired n m
      have := (List.cons.inj h).1
      omega
    | case4 n m t hp =>
      rw [joinPairs, if_neg hp] at h
      obtain ⟨rfl, e⟩ := List.cons.inj h
      obtain ⟨b', e', rfl⟩ := ih hw' e
      exact ⟨b', by rw [List.cons_append, ← e'], rfl⟩

/-- A text after joining is what joining makes of a rest of the text before. -/
theorem suffix_of_joinPairs {t a b : Points} (h : joinPairs t = a ++ b) :
    ∃ u v, t = u ++ v ∧ b = joinPairs v := by
  fun_induction joinPairs t generalizing a with
  | case1 =>
    obtain ⟨-, rfl⟩ := List.append_eq_nil_iff.1 h.symm
    exact ⟨[], [], rfl, rfl⟩
  | case2 n =>
    cases a with
    | nil => exact ⟨[], [n], rfl, h.symm⟩
    | cons k a =>
      obtain ⟨-, rfl⟩ := List.append_eq_nil_iff.1 (List.cons.inj h).2.symm
      exact ⟨[n], [], rfl, rfl⟩
  -- a pair: the cut is before it, or behind the character that it becomes
  | case3 n m t hp ih =>
    cases a with
    | nil => exact ⟨[], n :: m :: t, rfl, by rw [joinPairs, if_pos hp]; exact h.symm⟩
    | cons k a =>
      obtain ⟨u, v, rfl, rfl⟩ := ih (List.cons.inj h).2
      exact ⟨n :: m :: u, v, rfl, rfl⟩
  | case4 n m t hp ih =>
    cases a with
    | nil => exact ⟨[], n :: m :: t, rfl, by rw [joinPairs, if_neg hp]; exact h.symm⟩
    | cons k a =>
      obtain ⟨u, v, e, rfl⟩ := ih (List.cons.inj h).2
      exact ⟨n :: u, v, by rw [e, List.cons_append], rfl⟩

/-- Nothing is left to exchange after references and then pairs have been exchanged. -/
theorem isRestored_restored (t : Points) : IsRestored (restored t) := by
  intro u hu
  generalize e : restored t = s at hu
  obtain ⟨a, b, h⟩ := hu
  obtain ⟨u, v, hv, e⟩ := suffix_of_joinPairs e
  obtain ⟨b', rfl, rfl⟩ := prefix_of_joinPairs (fun _ => h.lt_of_mem) e.symm
  cases h with
  | reference hx hn =>
    -- the reference would have been there before joining
    have := reference?_of_pass_eq (pass_settle t) hv
    rw [reference?_eq_some_iff.2 ⟨_, _, _, _, _, hx, hn, rfl⟩] at this
    cases this
  | @pair high low hh hl =>
    -- the pair would have been joined
    have hp : (isHigh high && isLow low) = true := by rw [hh, hl, Bool.true_and]
    have hlt : high < 0x10000 := (Piece.pair hh hl).lt_of_mem (List.mem_cons_self ..)
    have hle := le_paired high low
    simp only [List.cons_append, List.nil_append, joinPairs, if_pos hp, List.cons.injEq] at e
    omega

/-- Exchanges do not change what is restored in the end. -/
theorem restored_of_exchanges {t u : Points} (h : ReflTransGen Exchange t u) :
    restored t = restored u :=
  IsRestored.unique (exchanges_restored t) (h.trans (exchanges_restored u))
    (isRestored_restored t) (isRestored_restored u)

/-! ## Digits -/

theorem digit?_lt {n v : Nat} (h : digit? n = some v) : v < 16 := by
  simp only [digit?] at h
  split at h
  · obtain rfl := Option.some.inj h
    omega
  · split at h
    · obtain rfl := Option.some.inj h
      omega
    · split at h
      · obtain rfl := Option.some.inj h
        omega
      · cases h

/-- Four digits make a number of two bytes. -/
theorem lt_of_number? {a b c d n : Nat} (h : number? a b c d = some n) : n < 0x10000 := by
  simp only [number?, Option.bind_eq_bind, Option.bind_eq_some_iff, Option.pure_def,
    Option.some.injEq] at h
  obtain ⟨x, hx, y, hy, z, hz, w, hw, rfl⟩ := h
  have := digit?_lt hx
  have := digit?_lt hy
  have := digit?_lt hz
  have := digit?_lt hw
  omega

/-- A digit that is written is read as the same number. -/
theorem digit?_hexDigit (n : Nat) : digit? (Text.hexDigit true (n % 16)).toNat = some (n % 16) := by
  have h : ∀ v : Fin 16, digit? (Text.hexDigit true v).toNat = some v.val := by decide
  exact h ⟨n % 16, Nat.mod_lt n (by decide)⟩

/-- A number of four digits is read as it is written. -/
theorem exists_points_hex {n : Nat} (hn : n < 0x10000) :
    ∃ a b c d, points (Text.hex true 4 n) = [a, b, c, d] ∧ number? a b c d = some n := by
  refine ⟨_, _, _, _, rfl, ?_⟩
  simp only [number?, digit?_hexDigit, Option.bind_eq_bind, Option.bind_some, Option.pure_def,
    Option.some.injEq]
  omega

/-! ## Writing and restoring -/

/-- Exchanges make no code point that is too large. -/
theorem Exchange.forall_lt {t u : Points} (h : Exchange t u) (ht : ∀ n ∈ t, n < 0x110000) :
    ∀ n ∈ u, n < 0x110000 := by
  obtain ⟨a, b, hw⟩ := h
  rename_i w k
  have hk : k < 0x110000 := by
    cases hw with
    | reference hx hn => exact Nat.lt_trans (lt_of_number? hn) (by decide)
    | pair hh hl =>
      simp only [isHigh, isLow, Bool.and_eq_true, decide_eq_true_eq] at hh hl
      unfold paired
      omega
  simp only [List.forall_mem_append, List.forall_mem_cons] at ht ⊢
  exact ⟨ht.1, hk, ht.2.2⟩

theorem points_append (t u : Text) : points (t ++ u) = points t ++ points u :=
  List.map_append

/-- Halves are numbers of two bytes. -/
theorem lt_of_isHalf {n : Nat} (h : isHalf n = true) : n < 0x10000 := by
  simp only [isHalf, isHigh, isLow, Bool.or_eq_true, Bool.and_eq_true, decide_eq_true_eq] at h
  omega

/-- A number that is no half is that of a character. -/
theorem toNat_ofNat {n : Nat} (hn : n < 0x110000) (h : isHalf n = false) :
    (Char.ofNat n).toNat = n := by
  have hv : n.isValidChar := by
    simp only [isHalf, isHigh, isLow, Bool.or_eq_false_iff, Bool.and_eq_false_iff,
      decide_eq_false_iff_not] at h
    simp only [Nat.isValidChar]
    omega
  rw [Char.ofNat, dif_pos hv]
  rfl

/-- What is written for a code point leads back to it. -/
theorem exchanges_written {n : Nat} (hn : n < 0x110000) :
    ReflTransGen Exchange (points (written n)) [n] := by
  rw [written]
  split
  · next h =>
    obtain ⟨a, b, c, d, e, hd⟩ := exists_points_hex (lt_of_isHalf h)
    rw [points_append, points_append, e]
    exact .single (Exchange.intro [] [] (.reference (.inl rfl) hd))
  · next h =>
    rw [points, List.map_singleton, toNat_ofNat hn (Bool.eq_false_iff.2 h)]

/-- What is written for code points can be exchanged for them again. -/
theorem exchanges_flatMap_written {t : Points} (ht : ∀ n ∈ t, n < 0x110000) :
    ReflTransGen Exchange (points (t.flatMap written)) t := by
  induction t with
  | nil => exact .refl
  | cons n t ih =>
    obtain ⟨hn, ht⟩ := List.forall_mem_cons.1 ht
    rw [List.flatMap_cons, points_append]
    have h₁ := exchanges_append (exchanges_written hn) [] (points (t.flatMap written))
    exact h₁.trans (exchanges_cons n (ih ht))

/-- Exchanges lead to code points only. -/
theorem lt_of_exchanges {t : Text} {u : Points} (h : ReflTransGen Exchange (points t) u) :
    ∀ n ∈ u, n < 0x110000 := by
  induction h with
  | refl =>
    intro n hn
    obtain ⟨c, -, rfl⟩ := List.mem_map.1 hn
    have : c.toNat < 0xD800 ∨ 0xDFFF < c.toNat ∧ c.toNat < 0x110000 := c.valid
    omega
  | tail _ hs ih => exact hs.forall_lt ih

/-- What a restored text leads to is the restored form of what it was. -/
theorem exchanges_restore (t : Text) :
    ReflTransGen Exchange (points (restore t)) (restored (points t)) :=
  exchanges_flatMap_written (lt_of_exchanges (exchanges_restored _))

/-- **Restoring a part beforehand changes nothing**, whatever lies across its ends. -/
theorem restore_append_restore (a b c : Text) :
    restore (a ++ restore b ++ c) = restore (a ++ b ++ c) := by
  have h₁ : ReflTransGen Exchange (points (a ++ restore b ++ c))
      (points a ++ (restored (points b) ++ points c)) := by
    rw [points_append, points_append, List.append_assoc]
    exact exchanges_append (exchanges_restore b) _ _
  have h₂ : ReflTransGen Exchange (points (a ++ b ++ c))
      (points a ++ (restored (points b) ++ points c)) := by
    rw [points_append, points_append, List.append_assoc]
    exact exchanges_append (exchanges_restored _) _ _
  have h : restored (points (a ++ restore b ++ c)) = restored (points (a ++ b ++ c)) :=
    (restored_of_exchanges h₁).trans (restored_of_exchanges h₂).symm
  exact congrArg (List.flatMap written) h

end Showcase.HexReference

import Showcase.Proofs.Text.Basic
import Showcase.Text.Case

/-!
# Lower case is final

A text in lower case stays as it is when it is put into lower case again (`lower_lower`), and lower
case brings in no ASCII character but letters, and no white space (`mem_lower`).

Both come from one computation over the runs of the table (`isFinal_lowers`): where a run sends its
code points, no run sends them on, and no white space is there.
-/

namespace Showcase.Text

/-! ## Runs -/

/-- Stretches of code points to which lower case sends no others: ASCII without the small letters,
white space, the capital that becomes two letters, and the surrogates. -/
def unreached : List (Nat × Nat) :=
  [(0, 0x60), (0x7B, 0xA0), (0x130, 0x130), (0x1680, 0x1680), (0x2000, 0x205F), (0x3000, 0x3000),
    (0xD800, 0xDFFF)]

/-- The run has none of the code points from `low` to `high` that are `step` apart. -/
def CaseRun.isApart (low high step : Nat) (r : CaseRun) : Bool :=
  Nat.blt r.last low || Nat.blt high r.first
    || ((Nat.beq step 2 || Nat.beq low high) && Nat.beq r.step 2
      && Nat.beq ((low + r.first) % 2) 1)

/-- No run sends on what this one sends somewhere. -/
def CaseRun.isFinal (r : CaseRun) : Bool :=
  let low := (Int.ofNat r.first + r.shift).toNat
  let high := (Int.ofNat r.last + r.shift).toNat
  Nat.blt r.last 128 || (Nat.blt 0 low && Nat.blt high 0x110000
    && lowers.all (CaseRun.isApart low high r.step)
    && unreached.all fun s => Nat.blt s.2 low || Nat.blt high s.1)

theorem isFinal_lowers : lowers.all CaseRun.isFinal = true := by decide +kernel

/-- A run that is apart from code points does not send them anywhere. -/
theorem CaseRun.not_in_of_isApart {low high step k : Nat} {r : CaseRun}
    (h : r.isApart low high step = true) (hlow : low ≤ k) (hhigh : k ≤ high)
    (hstep : (k - low) % step = 0) :
    ¬ (r.first ≤ k && k ≤ r.last && (k - r.first) % r.step == 0) = true := by
  simp only [CaseRun.isApart, Bool.or_eq_true, Bool.and_eq_true, Nat.blt_eq, Nat.beq_eq] at h
  simp only [Bool.and_eq_true, decide_eq_true_eq, beq_iff_eq]
  rintro ⟨⟨h₁, h₂⟩, h₃⟩
  rcases h with (h | h) | ⟨⟨h, hstep'⟩, hodd⟩
  · omega
  · omega
  · -- both runs have every other code point, but not the same ones
    rw [hstep'] at h₃
    rcases h with h | h
    · rw [h] at hstep
      omega
    · omega

/-- What the runs send somewhere stays there, and it is a code point of no unreached stretch. -/
theorem shifted_lowers_cases {n : Nat} (hn : 128 ≤ n) :
    shifted lowers n = n ∨ shifted lowers (shifted lowers n) = shifted lowers n ∧
      shifted lowers n < 0x110000 ∧
      ∀ s ∈ unreached, shifted lowers n < s.1 ∨ s.2 < shifted lowers n := by
  rw [shifted.eq_def lowers n]
  split
  · next r hr =>
    refine Or.inr ?_
    have hin := List.find?_some hr
    simp only [Bool.and_eq_true, decide_eq_true_eq, beq_iff_eq] at hin
    obtain ⟨⟨hfirst, hlast⟩, hstep⟩ := hin
    -- what the table says about its runs was checked for each of them
    have hfinal := List.all_eq_true.1 isFinal_lowers r (List.mem_of_find?_eq_some hr)
    simp only [CaseRun.isFinal, Bool.or_eq_true, Bool.and_eq_true, Nat.blt_eq,
      List.all_eq_true] at hfinal
    obtain ⟨⟨⟨hlow, hhigh⟩, hruns⟩, hgaps⟩ := hfinal.resolve_left (by omega)
    simp only [Int.ofNat_eq_natCast] at hlow hhigh hruns hgaps ⊢
    refine ⟨?_, by omega, fun s hs => by have := hgaps s hs; omega⟩
    have hsame : ((n : Int) + r.shift).toNat - ((r.first : Int) + r.shift).toNat = n - r.first := by
      omega
    rw [shifted, List.find?_eq_none.2 fun r' hr' => CaseRun.not_in_of_isApart (hruns r' hr')
      (by omega) (by omega) (by rw [hsame, hstep])]
  · exact Or.inl rfl

/-! ## Characters -/

/-- A character that lower case brings in: a small letter, or one beyond ASCII that is no white
space. -/
def isLowered (c : Char) : Bool :=
  ('a' ≤ c && c ≤ 'z') || (decide (128 ≤ c.toNat) && !isBlank c)

theorem lowerChar_ascii {c : Char} (h : c.toNat < 128) :
    lowerChar c = [c] ∨ ∃ d, lowerChar c = [d] ∧ lowerChar d = [d] ∧ isLowered d = true := by
  have hc := forall_ascii
    (P := fun c => lowerAscii c = c ∨
      lowerChar (lowerAscii c) = [lowerAscii c] ∧ isLowered (lowerAscii c) = true) (by decide) h
  rw [lowerChar, if_pos h]
  exact hc.imp (fun e => by rw [e]) fun hd => ⟨_, rfl, hd⟩

theorem lowerAscii_of_lt {c : Char} (h : 0x60 < c.toNat) : lowerAscii c = c := by
  refine if_neg fun hc => ?_
  have h' : c.toNat ≤ 'Z'.toNat := hc.2
  simp only [Char.reduceToNat] at h'
  omega

/-- Where a run of the table sends a character, no run sends it on. -/
theorem lowerChar_shifted {c : Char} (h : 128 ≤ c.toNat) :
    Char.ofNat (shifted lowers c.toNat) = c ∨
      lowerChar (Char.ofNat (shifted lowers c.toNat)) = [Char.ofNat (shifted lowers c.toNat)] ∧
        isLowered (Char.ofNat (shifted lowers c.toNat)) = true := by
  refine (shifted_lowers_cases h).imp (fun e => by rw [e, Char.ofNat_toNat]) ?_
  generalize shifted lowers c.toNat = n
  rintro ⟨hfinal, hn, hgaps⟩
  simp only [unreached, List.forall_mem_cons] at hgaps
  obtain ⟨h₁, h₂, h₃, h₄, h₅, h₆, h₇, -⟩ := hgaps
  -- no run leads to a half of a surrogate pair or beyond the last character
  have hvalid : n.isValidChar := by
    simp only [Nat.isValidChar]
    omega
  have htoNat : (Char.ofNat n).toNat = n := by
    rw [Char.ofNat, dif_pos hvalid]
    rfl
  refine ⟨?_, ?_⟩
  · rw [lowerChar, htoNat]
    split
    · rw [lowerAscii_of_lt (by omega)]
    · rw [if_neg (by omega), hfinal]
  · have hletter : ('a' ≤ Char.ofNat n ∧ Char.ofNat n ≤ 'z') ↔ 97 ≤ n ∧ n ≤ 122 := by
      rw [Char.le_def, Char.le_def, UInt32.le_iff_toNat_le, UInt32.le_iff_toNat_le]
      simp only [Char.toNat_val, htoNat]
      rfl
    simp only [isLowered, isBlank, htoNat, Bool.or_eq_true, Bool.and_eq_true, decide_eq_true_eq,
      hletter, Bool.not_eq_true', Bool.or_eq_false_iff, Bool.and_eq_false_iff, beq_eq_false_iff_ne,
      decide_eq_false_iff_not]
    omega

/-- Lower case leaves a character as it is or brings in characters that are final. -/
theorem lowerChar_cases (c : Char) :
    lowerChar c = [c] ∨ ∀ d ∈ lowerChar c, lowerChar d = [d] ∧ isLowered d = true := by
  by_cases h : c.toNat < 128
  · refine (lowerChar_ascii h).imp_right fun ⟨d, hc, hd⟩ e he => ?_
    rw [hc, List.mem_singleton] at he
    exact he ▸ hd
  · rw [lowerChar, if_neg h]
    split
    · exact Or.inr (forall_mem_of_all (by decide +kernel))
    · simp only [List.mem_singleton, forall_eq, List.cons.injEq, and_true]
      exact lowerChar_shifted (by omega)

theorem lowerChar_ne_nil (c : Char) : lowerChar c ≠ [] := by
  rw [lowerChar]
  split
  · exact List.cons_ne_nil _ _
  · split <;> exact List.cons_ne_nil _ _

/-! ## Texts -/

theorem lowerChar_of_mem_lower {t : Text} {d : Char} (h : d ∈ lower t) : lowerChar d = [d] := by
  obtain ⟨c, -, hd⟩ := List.mem_flatMap.1 h
  rcases lowerChar_cases c with h | h
  · rw [h, List.mem_singleton] at hd
    rw [hd, h]
  · exact (h d hd).1

theorem lower_eq_self {t : Text} (h : ∀ c ∈ t, lowerChar c = [c]) : lower t = t := by
  induction t with
  | nil => rfl
  | cons c t ih =>
    obtain ⟨hc, ht⟩ := List.forall_mem_cons.1 h
    rw [lower, List.flatMap_cons, hc, ← lower, ih ht]
    rfl

/-- **Lower case is final.** -/
theorem lower_lower (t : Text) : lower (lower t) = lower t :=
  lower_eq_self fun _ h => lowerChar_of_mem_lower h

/-- Lower case brings in only letters and characters beyond ASCII that are no white space. -/
theorem mem_lower {t : Text} {d : Char} (h : d ∈ lower t) : d ∈ t ∨ isLowered d = true := by
  obtain ⟨c, hc, hd⟩ := List.mem_flatMap.1 h
  rcases lowerChar_cases c with h | h
  · rw [h, List.mem_singleton] at hd
    exact Or.inl (hd ▸ hc)
  · exact Or.inr (h d hd).2

/-- A text that begins with a letter of the alphabet does so in lower case. -/
theorem exists_lower_cons {c : Char} (hc : isLetter c = true) (t : Text) :
    ∃ d, isLetter d = true ∧ lower (c :: t) = d :: lower t := by
  have hlt : c.toNat < 128 := by
    simp only [isLetter, Bool.or_eq_true, Bool.and_eq_true, decide_eq_true_eq] at hc
    rcases hc with ⟨-, h⟩ | ⟨-, h⟩
    · exact Nat.lt_of_le_of_lt (show c.toNat ≤ 'z'.toNat from h) (by decide)
    · exact Nat.lt_of_le_of_lt (show c.toNat ≤ 'Z'.toNat from h) (by decide)
  have hletter := forall_ascii
    (P := fun c => isLetter c = true → isLetter (lowerAscii c) = true) (by decide) hlt hc
  refine ⟨lowerAscii c, hletter, ?_⟩
  rw [lower, List.flatMap_cons, lowerChar, if_pos hlt]
  rfl

end Showcase.Text

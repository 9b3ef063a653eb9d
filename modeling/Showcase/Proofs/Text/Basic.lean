import Showcase.Text.Blank

/-!
# Occurrences and trimming

* `has` tells whether a text occurs in another one (`has_iff`), and a cut at a character is the one
  before which the character does not stand (`cut?_singleton_eq_some_iff`).
* Replacing goes over the texts around a character that occurrences lack one by one
  (`replaceFrom_append_of_not_mem`).
* Texts with a separator between them begin with the first and end with the last of them
  (`prefix_joinWith`, `suffix_joinWith`).
* Trimming takes away nothing but white space (`inked_strip`).
* A text has either nothing but characters of a class, or a last character outside of it
  (`all_or_last`). Trimming does not reach beyond a character outside of the class, from either end
  (`dropWhile_append_cons`, `trimEnd_append_cons`), so it leaves a text with such characters at its
  ends (`of_mem_head?_trim`, `of_mem_getLast?_trim`), and leaves such a text alone (`trim_eq_self`).
  What it takes away is in the class (`exists_eq_append_trim`).
* The first of the words of a text stands between white space (`head?_words`).
-/

namespace Showcase.Text

/-- What holds of each of several given characters can be computed. -/
theorem forall_mem_of_all {P : Char → Prop} [DecidablePred P] {t : Text}
    (h : (t.all fun c => decide (P c)) = true) : ∀ c ∈ t, P c :=
  fun c hc => of_decide_eq_true (List.all_eq_true.1 h c hc)

/-- A character of a class is none of several characters outside of it. -/
theorem not_mem_of_all {cls : Char → Bool} {t : Text} {c : Char} (hc : cls c = true)
    (ht : t.all (!cls ·) = true) : c ∉ t := by
  intro hct
  have := List.all_eq_true.1 ht c hct
  rw [hc] at this
  cases this

/-- What holds of all ASCII characters can be computed. -/
theorem forall_ascii {P : Char → Prop} (h : ∀ n : Fin 128, P (Char.ofNat n)) {c : Char}
    (hc : c.toNat < 128) : P c := by
  have := h ⟨c.toNat, hc⟩
  rwa [Char.ofNat_toNat] at this

/-- Letters and digits are ASCII characters, so what holds of all of them can be computed. -/
theorem forall_alphanumeric {P : Char → Prop}
    (h : ∀ n : Fin 128, (isLetter (Char.ofNat n) || isDigit (Char.ofNat n)) = true →
      P (Char.ofNat n)) {c : Char} (hc : (isLetter c || isDigit c) = true) : P c := by
  have hascii : c.toNat < 128 := by
    simp only [isLetter, isDigit, Bool.or_eq_true, Bool.and_eq_true, decide_eq_true_eq,
      Char.le_def, UInt32.le_iff_toNat_le] at hc
    rcases hc with (⟨-, hc⟩ | ⟨-, hc⟩) | ⟨-, hc⟩ <;> exact Nat.lt_of_le_of_lt hc (by decide)
  revert hc
  exact forall_ascii (P := fun c => (isLetter c || isDigit c) = true → P c) h hascii

/-! ## Occurrences -/

/-- A search finds what is there. -/
theorem has_iff {t p : Text} : has t p = true ↔ p <:+: t := by
  rw [has]
  induction t with
  | nil =>
    rw [cut?, List.infix_nil]
    split
    · next h => exact ⟨fun _ => h, fun _ => rfl⟩
    · next h => exact ⟨fun h' => absurd h' Bool.false_ne_true, fun h' => absurd h' h⟩
  | cons c t ih =>
    rw [cut?, List.infix_cons_iff]
    split
    · next r h =>
      exact ⟨fun _ => Or.inl ⟨r, (after?_eq_some_iff.1 h).symm⟩, fun _ => rfl⟩
    · next h =>
      rw [Option.isSome_map, ih]
      refine ⟨Or.inr, fun h' => h'.resolve_left ?_⟩
      rintro ⟨r, e⟩
      rw [after?_eq_some_iff.2 e.symm] at h
      cases h

/-- A piece is found where it first stands. -/
theorem cut?_of_first {p a b : Text} (hp : p ≠ [])
    (h : ∀ s, s ≠ [] → s <:+ a → ¬ p <+: s ++ (p ++ b)) : cut? p (a ++ (p ++ b)) = some (a, b) := by
  induction a with
  | nil =>
    obtain ⟨c, p, rfl⟩ := List.exists_cons_of_ne_nil hp
    rw [List.nil_append, List.cons_append, cut?, ← List.cons_append, after?_append]
  | cons c a ih =>
    have hnone : after? p (c :: (a ++ (p ++ b))) = none := by
      rw [← Option.not_isSome_iff_eq_none, Option.isSome_iff_exists]
      rintro ⟨r, hr⟩
      have hr := after?_eq_some_iff.1 hr
      exact h (c :: a) (List.cons_ne_nil _ _) (List.suffix_refl _) ⟨r, hr.symm⟩
    rw [List.cons_append, cut?, hnone,
      ih fun s hs hsa => h s hs (hsa.trans (List.suffix_cons c a))]
    rfl

/-- A piece is found where its first character first stands. -/
theorem cut?_append {c : Char} {a : Text} (ha : c ∉ a) (p b : Text) :
    cut? (c :: p) (a ++ (c :: (p ++ b))) = some (a, b) := by
  refine cut?_of_first (List.cons_ne_nil c p) fun s hs hsa hp => ?_
  obtain ⟨d, s, rfl⟩ := List.exists_cons_of_ne_nil hs
  obtain ⟨rfl, -⟩ := List.cons_prefix_cons.1 hp
  exact ha (hsa.subset (List.mem_cons_self ..))

/-- One piece is exchanged for another one. -/
theorem length_replaceFirst {p t : Text} (q : Text) (h : p <:+: t) :
    (replaceFirst p q t).length + p.length = t.length + q.length := by
  obtain ⟨⟨a, b⟩, hab⟩ := Option.isSome_iff_exists.1 (has_iff.2 h)
  have e := congrArg List.length (cut?_eq_some hab)
  rw [replaceFirst, hab]
  simp only [List.length_append] at e ⊢
  omega

/-- A cut at a character is the one before which the character does not stand. -/
theorem cut?_singleton_eq_some_iff {c : Char} {t a b : Text} :
    cut? [c] t = some (a, b) ↔ c ∉ a ∧ t = a ++ c :: b := by
  induction t generalizing a with
  | nil => simp [cut?]
  | cons d t ih =>
    -- either the cut is here, or the first character belongs to the front
    by_cases h : c = d
    · subst h
      simp only [cut?, after?, if_pos, Option.some.injEq, Prod.mk.injEq]
      constructor
      · rintro ⟨rfl, rfl⟩
        exact ⟨List.not_mem_nil, rfl⟩
      · rintro ⟨ha, e⟩
        cases a with
        | nil => exact ⟨rfl, (List.cons.inj e).2⟩
        | cons x a =>
          obtain ⟨rfl, -⟩ := List.cons.inj e
          exact absurd (List.mem_cons_self ..) ha
    · simp only [cut?, after?, if_neg h, Option.map_eq_some_iff, Prod.mk.injEq, Prod.exists]
      constructor
      · rintro ⟨a', b', hab, rfl, rfl⟩
        obtain ⟨ha, rfl⟩ := ih.1 hab
        exact ⟨by simp [h, ha], rfl⟩
      · rintro ⟨ha, e⟩
        cases a with
        | nil => exact absurd (List.cons.inj e).1.symm h
        | cons x a =>
          rw [List.cons_append, List.cons.injEq] at e
          obtain ⟨rfl, e⟩ := e
          exact ⟨a, b, ih.2 ⟨fun hc => ha (List.mem_cons_of_mem _ hc), e⟩, rfl, rfl⟩

/-- What begins a text and lacks a character lies before the character. -/
theorem prefix_of_prefix_append_cons {c : Char} {x s v : Text} (hx : c ∉ x)
    (h : x <+: s ++ c :: v) : x <+: s := by
  rcases List.prefix_or_prefix_of_prefix h (List.prefix_append s (c :: v)) with hxs | ⟨y, rfl⟩
  · exact hxs
  · cases y with
    | nil => exact (List.append_nil s).symm ▸ List.prefix_refl s
    | cons d y =>
      rw [List.prefix_append_right_inj, List.cons_prefix_cons] at h
      exact absurd (h.1 ▸ List.mem_append_right s (List.mem_cons_self ..)) hx

/-- Replacing goes over the texts before and after a character that occurrences lack, one by one;
in the first text `k` characters of an occurrence are still to be passed over. -/
theorem replaceFrom_append_of_not_mem {p : Text} {c : Char} (hp : p ≠ []) (hc : c ∉ p)
    (q y : Text) {x : Text} {k : Nat} (hk : k ≤ x.length) :
    replaceFrom p q k (x ++ c :: y) = replaceFrom p q k x ++ c :: replaceFrom p q 0 y := by
  fun_induction replaceFrom p q k x with
  -- the character at the seam begins no match
  | case1 k =>
    obtain rfl : k = 0 := Nat.le_zero.1 hk
    have hstart : startsWith (c :: y) p ≠ true := fun h => by
      obtain ⟨d, p, rfl⟩ := List.exists_cons_of_ne_nil hp
      obtain ⟨r, e⟩ := startsWith_iff.1 h
      exact hc ((List.cons.inj e).1 ▸ List.mem_cons_self ..)
    rw [List.nil_append, replaceFrom, if_neg hstart]
    rfl
  | case2 k d t ih => exact ih (Nat.le_of_succ_le_succ hk)
  -- a match ends before the seam
  | case3 d t h ih =>
    obtain ⟨r, e⟩ := startsWith_iff.1 h
    have hlen := congrArg List.length e
    rw [List.length_cons, List.length_append] at hlen
    have hstart : startsWith (d :: (t ++ c :: y)) p = true :=
      startsWith_iff.2 ⟨r ++ c :: y, by rw [← List.cons_append, e, List.append_assoc]⟩
    rw [List.cons_append, replaceFrom, if_pos hstart, ih (by omega), List.append_assoc]
  -- a match across the seam would have its character in the pattern
  | case4 d t h ih =>
    have hstart : startsWith (d :: (t ++ c :: y)) p ≠ true := fun h' => by
      obtain ⟨r, e⟩ := startsWith_iff.1 h'
      obtain ⟨r', e'⟩ := prefix_of_prefix_append_cons hc (s := d :: t) ⟨r, e.symm⟩
      exact h (startsWith_iff.2 ⟨r', e'.symm⟩)
    rw [List.cons_append, replaceFrom, if_neg hstart, ih (Nat.zero_le _), List.cons_append]

/-! ## Texts put together -/

/-- What is in a join is in the separator or in one of the texts. -/
theorem mem_joinWith {c : Char} {sep : Text} {ts : List Text} (h : c ∈ joinWith sep ts) :
    c ∈ sep ∨ ∃ t ∈ ts, c ∈ t := by
  fun_induction joinWith sep ts with
  | case1 => cases h
  | case2 t => exact Or.inr ⟨t, List.mem_singleton_self t, h⟩
  | case3 t u ts ih =>
    rcases List.mem_append.1 h with h | h
    · rcases List.mem_append.1 h with h | h
      · exact Or.inr ⟨t, List.mem_cons_self, h⟩
      · exact Or.inl h
    · exact (ih h).imp_right fun ⟨v, hv, h⟩ => ⟨v, List.mem_cons_of_mem _ hv, h⟩

/-- The first of several texts begins what they make up. -/
theorem prefix_joinWith (sep t : Text) (ts : List Text) : t <+: joinWith sep (t :: ts) := by
  cases ts with
  | nil => exact List.prefix_rfl
  | cons u ts =>
    rw [joinWith, List.append_assoc]
    exact List.prefix_append _ _

/-- The last of several texts ends what they make up. -/
theorem suffix_joinWith (sep : Text) (ts : List Text) (t : Text) :
    t <:+ joinWith sep (ts ++ [t]) := by
  induction ts with
  | nil => exact List.suffix_rfl
  | cons u ts ih =>
    obtain ⟨v, vs, e⟩ := List.exists_cons_of_ne_nil (List.append_ne_nil_of_right_ne_nil ts
      (List.cons_ne_nil t []))
    rw [e] at ih
    rw [List.cons_append, e, joinWith]
    exact ih.trans (List.suffix_append _ _)

/-! ## Runs of a class -/

variable {cls : Char → Bool}

/-- A run ends at the first character outside of the class. -/
theorem takeWhile_run {w : Text} {d : Char} (hw : ∀ c ∈ w, cls c = true) (hd : cls d = false)
    (r : Text) : (w ++ d :: r).takeWhile cls = w := by
  rw [List.takeWhile_append_of_pos hw, List.takeWhile_cons_of_neg (Bool.eq_false_iff.1 hd),
    List.append_nil]

/-- And after it the rest begins. -/
theorem dropWhile_run {w : Text} {d : Char} (hw : ∀ c ∈ w, cls c = true) (hd : cls d = false)
    (r : Text) : (w ++ d :: r).dropWhile cls = d :: r := by
  rw [List.dropWhile_append_of_pos hw, List.dropWhile_cons_of_neg (Bool.eq_false_iff.1 hd)]

/-! ## Trimming -/

/-- A text is all of one class, or there is a last character outside of it. -/
theorem all_or_last (cls : Char → Bool) (t : Text) :
    (∀ c ∈ t, cls c = true) ∨
      ∃ a c w, t = a ++ c :: w ∧ cls c = false ∧ ∀ d ∈ w, cls d = true := by
  induction t with
  | nil => exact Or.inl fun c hc => absurd hc List.not_mem_nil
  | cons d t ih =>
    rcases ih with h | ⟨a, c, w, rfl, hc, hw⟩
    · cases hd : cls d with
      | true => exact Or.inl (List.forall_mem_cons.2 ⟨hd, h⟩)
      | false => exact Or.inr ⟨[], d, t, rfl, hd, h⟩
    · exact Or.inr ⟨d :: a, c, w, rfl, hc, hw⟩

theorem dropWhile_eq_nil {t : Text} (h : ∀ c ∈ t, cls c = true) : t.dropWhile cls = [] := by
  rw [← List.append_nil t, List.dropWhile_append_of_pos h, List.dropWhile_nil]

/-- What is dropped ends at a character outside of the class. -/
theorem dropWhile_append_cons {c : Char} (hc : cls c = false) (a b : Text) :
    (a ++ c :: b).dropWhile cls = a.dropWhile cls ++ c :: b := by
  have hc' : ¬ cls c = true := by simp [hc]
  induction a with
  | nil => exact List.dropWhile_cons_of_neg hc'
  | cons d a ih =>
    cases hd : cls d with
    | true =>
      rw [List.cons_append, List.dropWhile_cons_of_pos hd, List.dropWhile_cons_of_pos hd, ih]
    | false =>
      have hd' : ¬ cls d = true := by simp [hd]
      rw [List.cons_append, List.dropWhile_cons_of_neg hd', List.dropWhile_cons_of_neg hd']
      rfl

theorem trimEnd_eq_nil {t : Text} (h : ∀ c ∈ t, cls c = true) : trimEnd cls t = [] := by
  rw [trimEnd, dropWhile_eq_nil fun c hc => h c (List.mem_reverse.1 hc), List.reverse_nil]

/-- What is trimmed begins behind a character outside of the class. -/
theorem trimEnd_append_cons {c : Char} (hc : cls c = false) (a b : Text) :
    trimEnd cls (a ++ c :: b) = a ++ c :: trimEnd cls b := by
  have e : (a ++ c :: b).reverse = b.reverse ++ c :: a.reverse := by simp
  rw [trimEnd, e, dropWhile_append_cons hc, List.reverse_append, List.reverse_cons,
    List.reverse_reverse, List.append_assoc, List.singleton_append, trimEnd]

/-- What is trimmed off the end makes no difference to what is left. -/
theorem trimEnd_append {w : Text} (hw : ∀ c ∈ w, cls c = true) (t : Text) :
    trimEnd cls (t ++ w) = trimEnd cls t := by
  rw [trimEnd, List.reverse_append,
    List.dropWhile_append_of_pos fun c hc => hw c (List.mem_reverse.1 hc), trimEnd]

/-- Trimming the end first makes no difference. -/
theorem trim_trimEnd (t : Text) : trim cls (trimEnd cls t) = trim cls t := by
  rcases all_or_last cls t with h | ⟨a, c, w, rfl, hc, hw⟩
  · rw [trimEnd_eq_nil h, trim, trim, dropWhile_eq_nil h, List.dropWhile_nil]
  · rw [trimEnd_append_cons hc, trimEnd_eq_nil hw, trim, trim, dropWhile_append_cons hc,
      dropWhile_append_cons hc, trimEnd_append_cons hc, trimEnd_append_cons hc, trimEnd_eq_nil hw]
    rfl

/-- Characters of the class in front are trimmed away. -/
theorem trim_append_left {w : Text} (hw : ∀ c ∈ w, cls c = true) (t : Text) :
    trim cls (w ++ t) = trim cls t := by
  rw [trim, List.dropWhile_append_of_pos hw, trim]

/-- And so are those at the end. -/
theorem trim_append_right {w : Text} (hw : ∀ c ∈ w, cls c = true) (t : Text) :
    trim cls (t ++ w) = trim cls t := by
  rw [← trim_trimEnd, trimEnd_append hw, trim_trimEnd]

/-- A text that ends with a character outside of the class has none of it to trim. -/
theorem trimEnd_concat {c : Char} (hc : cls c = false) (t : Text) :
    trimEnd cls (t ++ [c]) = t ++ [c] := trimEnd_append_cons hc t []

/-- A text is what trimming leaves of it, between characters of the class. -/
theorem exists_eq_append_trim (cls : Char → Bool) (t : Text) :
    ∃ v w, t = v ++ trim cls t ++ w ∧ (∀ c ∈ v, cls c = true) ∧ ∀ c ∈ w, cls c = true := by
  rcases all_or_last cls t with h | ⟨a, c, w, rfl, hc, hw⟩
  · refine ⟨t, [], ?_, h, fun c hc => absurd hc List.not_mem_nil⟩
    rw [trim, dropWhile_eq_nil h, List.append_nil]
    exact (List.append_nil t).symm
  · refine ⟨a.takeWhile cls, w, ?_, List.all_eq_true.1 (List.all_takeWhile ..), hw⟩
    rw [trim, dropWhile_append_cons hc, trimEnd_append_cons hc, trimEnd_eq_nil hw,
      ← List.append_assoc, List.takeWhile_append_dropWhile, List.append_assoc,
      List.singleton_append]

/-- Trimming leaves a part of the text. -/
theorem isInfix_trim (t : Text) : trim cls t <:+: t := by
  obtain ⟨v, w, ht, -, -⟩ := exists_eq_append_trim cls t
  exact ⟨v, w, ht.symm⟩

theorem mem_of_mem_trim {t : Text} {c : Char} (h : c ∈ trim cls t) : c ∈ t :=
  (isInfix_trim t).subset h

/-- What trimming leaves ends with a character outside of the class, if anything is left. -/
theorem trim_cases (cls : Char → Bool) (t : Text) :
    trim cls t = [] ∨
      ∃ (a : Text) (c : Char), trim cls t = a.dropWhile cls ++ [c] ∧ cls c = false := by
  rcases all_or_last cls t with h | ⟨a, c, w, rfl, hc, hw⟩
  · left
    rw [trim, dropWhile_eq_nil h]
    rfl
  · right
    refine ⟨a, c, ?_, hc⟩
    rw [trim, dropWhile_append_cons hc, trimEnd_append_cons hc, trimEnd_eq_nil hw]

/-- A trimmed text does not begin with a character of the class. -/
theorem of_mem_head?_trim {t : Text} {c : Char} (h : c ∈ (trim cls t).head?) : cls c = false := by
  rcases trim_cases cls t with e | ⟨a, d, e, hd⟩
  · rw [e] at h
    cases h
  · rw [e] at h
    have hdrop := List.head?_dropWhile_not cls a
    cases ha : a.dropWhile cls with
    | nil =>
      rw [ha] at h
      obtain rfl := Option.some.inj h
      exact hd
    | cons b r =>
      rw [ha] at h hdrop
      obtain rfl := Option.some.inj h
      simpa using hdrop

/-- Nor does it end with one. -/
theorem of_mem_getLast?_trim {t : Text} {c : Char} (h : c ∈ (trim cls t).getLast?) :
    cls c = false := by
  rcases trim_cases cls t with e | ⟨a, d, e, hd⟩
  · rw [e] at h
    cases h
  · rw [e, List.getLast?_concat] at h
    obtain rfl := Option.some.inj h
    exact hd

/-- What trimming leaves of the class has something outside of the class behind it. -/
theorem exists_mem_of_trim_eq {t u v : Text} {c : Char} (h : trim cls t = u ++ c :: v)
    (hc : cls c = true) : ∃ d ∈ v, cls d = false := by
  rcases all_or_last cls v with hv | ⟨a, d, w, rfl, hd, -⟩
  · have hne : c :: v ≠ [] := List.cons_ne_nil c v
    have hlast : (c :: v).getLast hne ∈ (trim cls t).getLast? := by
      rw [h, List.getLast?_append, List.getLast?_eq_some_getLast hne]
      rfl
    have hall : ∀ d ∈ c :: v, cls d = true := List.forall_mem_cons.2 ⟨hc, hv⟩
    have hcls := hall _ (List.getLast_mem hne)
    rw [of_mem_getLast?_trim hlast] at hcls
    cases hcls
  · exact ⟨d, List.mem_append_right a (List.mem_cons_self ..), hd⟩

/-- A text without characters of the class at its ends has nothing to trim. -/
theorem trim_eq_self {t : Text} (hhead : ∀ c ∈ t.head?, cls c = false)
    (hlast : ∀ c ∈ t.getLast?, cls c = false) : trim cls t = t := by
  have hdrop : t.dropWhile cls = t := by
    cases t with
    | nil => rfl
    | cons c t => exact List.dropWhile_cons_of_neg (by simp [hhead c rfl])
  rw [trim, hdrop]
  rcases List.eq_nil_or_concat t with rfl | ⟨s, c, rfl⟩
  · rfl
  · rw [List.concat_eq_append] at hlast ⊢
    exact trimEnd_concat (hlast c List.getLast?_concat) s

/-! ## Characters that are no white space -/

/-- A text without its white space. -/
def inked (t : Text) : Text := t.filter (!isBlank ·)

/-- The characters that show, text by text. -/
theorem inked_append (s t : Text) : inked (s ++ t) = inked s ++ inked t := by
  rw [inked, List.filter_append]
  rfl

/-- White space does not show. -/
theorem inked_of_blank {t : Text} (h : ∀ c ∈ t, isBlank c = true) : inked t = [] :=
  List.filter_eq_nil_iff.2 fun c hc => by simp [h c hc]

/-- White space in front does not show. -/
theorem inked_dropWhile (t : Text) : inked (t.dropWhile isBlank) = inked t := by
  have hblank := inked_of_blank (t := t.takeWhile isBlank)
    fun c hc => List.all_eq_true.1 (List.all_takeWhile ..) c hc
  conv => rhs; rw [← List.takeWhile_append_dropWhile (p := isBlank) (l := t)]
  rw [inked_append, hblank, List.nil_append]

theorem inked_trimEnd (t : Text) : inked (trimEnd isBlank t) = inked t := by
  have h := inked_dropWhile t.reverse
  rw [inked, inked, List.filter_reverse] at h
  rw [trimEnd, inked, List.filter_reverse, h, List.reverse_reverse, inked]

/-- Trimming takes away nothing that shows. -/
theorem inked_strip (t : Text) : inked (strip t) = inked t := by
  rw [strip, trim, inked_trimEnd, inked_dropWhile]

/-! ## Words -/

/-- The first word of a text. -/
def firstWord (t : Text) : Text := (t.dropWhile isBlank).takeWhile (!isBlank ·)

/-- The first word is the one that is being read, and what belongs to it. -/
theorem head?_wordsFrom {word : Text} (h : word ≠ []) (t : Text) :
    (wordsFrom word t).head? = some (word.reverse ++ t.takeWhile (!isBlank ·)) := by
  induction t generalizing word with
  | nil =>
    rw [wordsFrom, if_neg h, List.takeWhile_nil, List.append_nil]
    rfl
  | cons c t ih =>
    cases hc : isBlank c with
    | true => simp [wordsFrom, hc, h]
    | false => simp [wordsFrom, hc, ih]

/-- **The first of the words**, if there is one. -/
theorem head?_words (t : Text) :
    (words t).head? = if isBlankText t then none else some (firstWord t) := by
  rw [words]
  induction t with
  | nil => rfl
  | cons c t ih =>
    cases hc : isBlank c with
    | true =>
      simp only [isBlankText, firstWord] at ih
      simp [wordsFrom, isBlankText, firstWord, hc, ih]
    | false => simp [wordsFrom, isBlankText, firstWord, hc, head?_wordsFrom]

end Showcase.Text

import Mathlib.Data.List.Basic
import Showcase.Proofs.Text.Basic

/-!
# Words of texts put together

* White space parts words: before and behind it they are read apart (`words_append_cons`). So the
  words of pieces with spaces between them are those of the pieces (`words_joinWith`), and trimming
  makes no difference to them (`words_strip`).
* Pieces without anything between them have fewer words together than each for itself if a word goes
  on from one piece into the next, and the same words if none does (`words_flatten_iff`).
* `spaced` writes the words of a text with single spaces between them. Several texts, trimmed and
  with single spaces between them, are such a text exactly if each of them is one and their words
  are its words (`gathered_eq_spaced_iff`).
-/

namespace Showcase.Text

/-! ## Words -/

/-- White space ends a word, and what follows it is read afresh. -/
theorem wordsFrom_append_cons {c : Char} (hc : isBlank c = true) (word s t : Text) :
    wordsFrom word (s ++ c :: t) = wordsFrom word s ++ words t := by
  induction s generalizing word with
  | nil =>
    by_cases hword : word = []
    · simp [wordsFrom, hc, hword, words]
    · simp [wordsFrom, hc, hword, words]
  | cons d s ih =>
    cases hd : isBlank d with
    | true =>
      by_cases hword : word = []
      · simp [wordsFrom, hd, hword, ih]
      · simp [wordsFrom, hd, hword, ih]
    | false => simp [wordsFrom, hd, ih]

/-- White space parts words. -/
theorem words_append_cons {c : Char} (hc : isBlank c = true) (s t : Text) :
    words (s ++ c :: t) = words s ++ words t := wordsFrom_append_cons hc [] s t

theorem words_cons {c : Char} (hc : isBlank c = true) (t : Text) : words (c :: t) = words t :=
  words_append_cons hc [] t

/-- White space has no words in it. -/
theorem words_of_blank {t : Text} (h : ∀ c ∈ t, isBlank c = true) : words t = [] := by
  induction t with
  | nil => rfl
  | cons c t ih =>
    obtain ⟨hc, ht⟩ := List.forall_mem_cons.1 h
    rw [words_cons hc, ih ht]

/-- The words of a text have what is no white space in it. -/
theorem flatten_wordsFrom (word t : Text) :
    (wordsFrom word t).flatten = word.reverse ++ inked t := by
  fun_induction wordsFrom word t with
  | case1 => simp [inked]
  | case2 => simp_all [inked]
  | case3 => simp_all [inked]
  | case4 => simp_all [inked]
  | case5 => simp_all [inked]

/-- The words have all characters but white space. -/
theorem flatten_words (t : Text) : (words t).flatten = inked t := flatten_wordsFrom [] t

/-- Only white space has no words. -/
theorem words_eq_nil_iff {t : Text} : words t = [] ↔ ∀ c ∈ t, isBlank c = true := by
  refine ⟨fun h => ?_, words_of_blank⟩
  have hinked : inked t = [] := by rw [← flatten_words, h, List.flatten_nil]
  simpa [inked] using hinked

/-- White space at the end adds no words. -/
theorem words_append_of_blank {w : Text} (hw : ∀ c ∈ w, isBlank c = true) (t : Text) :
    words (t ++ w) = words t := by
  cases w with
  | nil => rw [List.append_nil]
  | cons c w =>
    obtain ⟨hc, hw⟩ := List.forall_mem_cons.1 hw
    rw [words_append_cons hc, words_of_blank hw, List.append_nil]

theorem words_dropWhile (t : Text) : words (t.dropWhile isBlank) = words t := by
  induction t with
  | nil => rfl
  | cons c t ih =>
    cases hc : isBlank c with
    | true => rw [List.dropWhile_cons_of_pos hc, ih, words_cons hc]
    | false => rw [List.dropWhile_cons_of_neg (by simp [hc])]

theorem words_trimEnd (t : Text) : words (trimEnd isBlank t) = words t := by
  rcases all_or_last isBlank t with h | ⟨a, c, w, rfl, hc, hw⟩
  · rw [trimEnd_eq_nil h, words_of_blank h]
    rfl
  · have e : a ++ c :: w = a ++ [c] ++ w := by simp
    rw [trimEnd_append_cons hc, trimEnd_eq_nil hw, e, words_append_of_blank hw]

/-- Trimming takes no words away. -/
theorem words_strip (t : Text) : words (strip t) = words t := by
  rw [strip, trim, words_trimEnd, words_dropWhile]

/-- Only white space is trimmed to nothing. -/
theorem strip_eq_nil_iff {t : Text} : strip t = [] ↔ ∀ c ∈ t, isBlank c = true := by
  refine ⟨fun h => ?_, fun h => ?_⟩
  · rw [← words_eq_nil_iff, ← words_strip, h]
    rfl
  · rw [strip, trim, dropWhile_eq_nil h]
    rfl

/-- Texts that are joined by spaces have their words one after the other. -/
theorem words_joinWith (ts : List Text) : words (joinWith [' '] ts) = ts.flatMap words := by
  fun_induction joinWith [' '] ts with
  | case1 => rfl
  | case2 t => simp
  | case3 t u ts ih =>
    rw [List.append_assoc, List.singleton_append, words_append_cons (by decide), ih,
      ← List.flatMap_cons]

theorem of_mem_wordsFrom {word t w : Text} (hword : ∀ c ∈ word, isBlank c = false)
    (h : w ∈ wordsFrom word t) : w ≠ [] ∧ ∀ c ∈ w, isBlank c = false := by
  fun_induction wordsFrom word t with
  | case1 => cases h
  | case2 word hne => simp_all
  | case3 => simp_all
  | case4 word c t hc hne ih =>
    rcases List.mem_cons.1 h with rfl | h
    · simpa using ⟨hne, hword⟩
    · exact ih (by simp) h
  | case5 word c t hc ih =>
    exact ih (List.forall_mem_cons.2 ⟨Bool.not_eq_true _ ▸ hc, hword⟩) h

/-- A word is not empty, and no white space is in it. -/
theorem of_mem_words {t w : Text} (h : w ∈ words t) : w ≠ [] ∧ ∀ c ∈ w, isBlank c = false :=
  of_mem_wordsFrom (by simp) h

/-- Without white space, all that follows belongs to the word that is being read. -/
theorem wordsFrom_of_not_blank {word t : Text} (ht : ∀ c ∈ t, isBlank c = false) :
    wordsFrom word t = if word.reverse ++ t = [] then [] else [word.reverse ++ t] := by
  induction t generalizing word with
  | nil => simp [wordsFrom]
  | cons c t ih =>
    obtain ⟨hc, ht⟩ := List.forall_mem_cons.1 ht
    simp [wordsFrom, hc, ih ht]

/-- A word is its own only word. -/
theorem words_word {w : Text} (hne : w ≠ []) (h : ∀ c ∈ w, isBlank c = false) : words w = [w] := by
  simp [words, wordsFrom_of_not_blank h, hne]

/-! ## Texts without anything between them -/

/-- A word goes on from the first text into the second one. -/
def RunsOn (s t : Text) : Prop :=
  (∃ c ∈ s.getLast?, isBlank c = false) ∧ ∃ c ∈ t.head?, isBlank c = false

/-- No word goes on from one of the texts into those behind it. -/
def AreApart : List Text → Prop
  | [] => True
  | t :: ts => ¬ RunsOn t ts.flatten ∧ AreApart ts

/-- How many words there are does not depend on what has been read of the first one. -/
theorem length_wordsFrom {u v : Text} (hu : u ≠ []) (hv : v ≠ []) (t : Text) :
    (wordsFrom u t).length = (wordsFrom v t).length := by
  induction t generalizing u v with
  | nil => simp [wordsFrom, hu, hv]
  | cons c t ih =>
    cases hc : isBlank c with
    | true => simp [wordsFrom, hc, hu, hv]
    | false => simpa [wordsFrom, hc] using ih (List.cons_ne_nil c u) (List.cons_ne_nil c v)

/-- A cut between two characters of a word makes two words of it. -/
theorem length_wordsFrom_append {c d : Char} (hc : isBlank c = false) (hd : isBlank d = false)
    (word s t : Text) :
    (wordsFrom word (s ++ c :: d :: t)).length + 1 =
      (wordsFrom word (s ++ [c])).length + (words (d :: t)).length := by
  induction s generalizing word with
  | nil =>
    have := length_wordsFrom (List.cons_ne_nil d (c :: word)) (List.cons_ne_nil d []) t
    simp [wordsFrom, words, hc, hd, this, Nat.add_comm]
  | cons e s ih =>
    cases he : isBlank e with
    | true =>
      by_cases hword : word = []
      · simpa [wordsFrom, he, hword] using ih []
      · have := ih []
        simp [wordsFrom, he, hword]
        omega
    | false => simpa [wordsFrom, he] using ih (e :: word)

/-- A word that goes on from one text into the other is counted twice if they are read apart. -/
theorem length_words_append {s t : Text} (h : RunsOn s t) :
    (words (s ++ t)).length + 1 = (words s).length + (words t).length := by
  obtain ⟨⟨c, hc, hcblank⟩, d, hd, hdblank⟩ := h
  obtain ⟨a, rfl⟩ := List.getLast?_eq_some_iff.1 hc
  obtain ⟨b, rfl⟩ := List.head?_eq_some_iff.1 hd
  rw [List.append_assoc, List.singleton_append]
  exact length_wordsFrom_append hcblank hdblank [] a b

/-- Texts that do not run on have their words one after the other. -/
theorem words_append {s t : Text} (h : ¬ RunsOn s t) : words (s ++ t) = words s ++ words t := by
  rcases List.eq_nil_or_concat s with rfl | ⟨a, c, rfl⟩
  · rfl
  · cases t with
    | nil => simp [words, wordsFrom]
    | cons d t =>
      cases hc : isBlank c with
      | true =>
        simp [words_append_cons hc, words_of_blank (t := []) (by simp)]
      | false =>
        cases hd : isBlank d with
        | true => rw [words_append_cons hd, words_cons hd]
        | false => exact absurd ⟨⟨c, by simp, hc⟩, d, rfl, hd⟩ h

/-- Texts that are put together may have fewer words than they have one by one, but not more. -/
theorem length_words_flatten_le (ts : List Text) :
    (words ts.flatten).length ≤ (ts.flatMap words).length := by
  induction ts with
  | nil => exact Nat.le_refl _
  | cons t ts ih =>
    rw [List.flatten_cons, List.flatMap_cons, List.length_append]
    by_cases h : RunsOn t ts.flatten
    · have := length_words_append h
      omega
    · rw [words_append h, List.length_append]
      omega

/-- Texts have the words of each of them exactly if no word goes on from one into the next. -/
theorem words_flatten_iff (ts : List Text) : words ts.flatten = ts.flatMap words ↔ AreApart ts := by
  induction ts with
  | nil => exact iff_of_true rfl trivial
  | cons t ts ih =>
    rw [List.flatten_cons, List.flatMap_cons, AreApart]
    -- where two texts run on, there is one word less
    by_cases h : RunsOn t ts.flatten
    · refine iff_of_false ?_ fun hapart => hapart.1 h
      intro e
      have hlength := congrArg List.length e
      have hle := length_words_flatten_le ts
      have hone := length_words_append h
      rw [List.length_append] at hlength
      omega
    · rw [words_append h, List.append_right_inj, ih, and_iff_right h]

/-! ## Single spaces -/

/-- The words of the text with single spaces between them. -/
def spaced (t : Text) : Text := joinWith [' '] (words t)

/-- The words of a text with single spaces are those of the text. -/
theorem words_spaced (t : Text) : words (spaced t) = words t := by
  have hword : ∀ w ∈ words t, words w = [w] := fun w hw =>
    words_word (of_mem_words hw).1 (of_mem_words hw).2
  rw [spaced, words_joinWith, List.flatMap_congr hword, List.flatMap_singleton']

theorem spaced_eq_nil_iff {t : Text} : spaced t = [] ↔ ∀ c ∈ t, isBlank c = true := by
  rw [← words_eq_nil_iff]
  refine ⟨fun h => ?_, fun h => ?_⟩
  · rw [← words_spaced, h]
    rfl
  · rw [spaced, h]
    rfl

/-- A text with a space in front, unless it is empty. -/
def spaceBefore (t : Text) : Text := if t = [] then [] else ' ' :: t

theorem spaceBefore_injective : Function.Injective spaceBefore := by
  intro s t h
  cases s <;> cases t <;> simp_all [spaceBefore]

theorem joinWith_eq_tail (ts : List Text) :
    joinWith [' '] ts = (ts.flatMap (' ' :: ·)).tail := by
  fun_induction joinWith [' '] ts with
  | case1 => rfl
  | case2 t => simp
  | case3 t u ts ih => simp [ih]

/-- Empty texts take part in a join no more than texts that are left out. -/
theorem joinWith_filter_eq_tail (ts : List Text) :
    joinWith [' '] (ts.filter (!·.isEmpty)) = (ts.flatMap spaceBefore).tail := by
  rw [joinWith_eq_tail]
  congr 1
  induction ts with
  | nil => rfl
  | cons t ts ih => cases t <;> simp_all [spaceBefore]

/-- The space in front of the first text is the only one that has been lost. -/
theorem spaceBefore_tail (ts : List Text) :
    spaceBefore (ts.flatMap spaceBefore).tail = ts.flatMap spaceBefore := by
  induction ts with
  | nil => rfl
  | cons t ts ih =>
    by_cases h : t = []
    · simpa [spaceBefore, h] using ih
    · simp [spaceBefore, h]

/-- The words of a text with a space in front of each. -/
theorem flatMap_words (t : Text) : (words t).flatMap (' ' :: ·) = spaceBefore (spaced t) := by
  rw [spaced, joinWith_eq_tail]
  cases h : words t with
  | nil => rfl
  | cons w ws =>
    have hw : w ≠ [] := (of_mem_words (h ▸ List.mem_cons_self)).1
    simp [spaceBefore, hw]

/-- The words with a space before each of them are not longer than the text, but for one space. -/
theorem length_flatMap_wordsFrom_le (word t : Text) :
    ((wordsFrom word t).flatMap (' ' :: ·)).length ≤ word.length + t.length + 1 := by
  fun_induction wordsFrom word t with
  | case1 => simp
  | case2 word hne => simp
  | case3 c t hc ih =>
    simp only [List.length_nil, List.length_cons] at ih ⊢
    omega
  | case4 word c t hc hne ih =>
    simp only [List.flatMap_cons, List.length_append, List.length_nil, List.length_cons,
      List.length_reverse] at ih ⊢
    omega
  | case5 word c t hc ih =>
    simp only [List.length_cons] at ih ⊢
    omega

/-- Single spaces take up no more room than what was between the words. -/
theorem length_spaceBefore_le (t : Text) :
    (spaceBefore (spaced t)).length ≤ (spaceBefore (strip t)).length := by
  have hle := length_flatMap_wordsFrom_le [] (strip t)
  rw [← words, words_strip, flatMap_words] at hle
  by_cases h : strip t = []
  · have hspaced : spaced t = [] := spaced_eq_nil_iff.2 (strip_eq_nil_iff.1 h)
    exact Nat.le_of_eq (by rw [hspaced, h])
  · simpa [spaceBefore, h] using hle

/-- What is written for each text bounds what is written for all of them. -/
theorem length_flatMap_le {f g : Text → Text} (h : ∀ t, (f t).length ≤ (g t).length)
    (ts : List Text) : (ts.flatMap f).length ≤ (ts.flatMap g).length := by
  induction ts with
  | nil => exact Nat.le_refl _
  | cons t ts ih =>
    simp only [List.flatMap_cons, List.length_append]
    exact Nat.add_le_add (h t) ih

/-- What is shorter in one place cannot be made up for in another one. -/
theorem eq_of_flatMap_eq {f g : Text → Text} (hle : ∀ t, (f t).length ≤ (g t).length)
    {ts : List Text} (h : ts.flatMap f = ts.flatMap g) : ∀ t ∈ ts, f t = g t := by
  induction ts with
  | nil => simp
  | cons t ts ih =>
    rw [List.flatMap_cons, List.flatMap_cons] at h
    have hlength := congrArg List.length h
    have hrest := length_flatMap_le hle ts
    have ht := hle t
    rw [List.length_append, List.length_append] at hlength
    obtain ⟨hhead, htail⟩ := List.append_inj h (by omega)
    exact List.forall_mem_cons.2 ⟨hhead, ih htail⟩

/-! ## Gathered texts -/

/-- Several texts, trimmed, with single spaces between them. Blank ones are left out. -/
def gathered (ts : List Text) : Text := joinWith [' '] ((ts.map strip).filter (!·.isEmpty))

theorem gathered_eq_tail (ts : List Text) :
    gathered ts = ((ts.map strip).flatMap spaceBefore).tail := joinWith_filter_eq_tail _

/-- Texts that are gathered one group after the other are gathered at once. -/
theorem joinWith_gathered {α : Type} (f : α → List Text) (xs : List α) :
    joinWith [' '] ((xs.map fun x => gathered (f x)).filter (!·.isEmpty)) =
      gathered (xs.flatMap f) := by
  have hgroup (x : α) :
      spaceBefore (gathered (f x)) = ((f x).map strip).flatMap spaceBefore := by
    rw [gathered_eq_tail, spaceBefore_tail]
  rw [joinWith_filter_eq_tail, gathered_eq_tail, List.flatMap_map, List.map_flatMap,
    List.flatMap_assoc]
  simp only [hgroup]

/-- Gathering takes no words away and cuts none. -/
theorem words_gathered (ts : List Text) : words (gathered ts) = ts.flatMap words := by
  rw [gathered, words_joinWith]
  induction ts with
  | nil => rfl
  | cons t ts ih =>
    rw [List.map_cons, List.filter_cons, List.flatMap_cons, ← ih]
    by_cases h : strip t = []
    · simp [h, words_of_blank (strip_eq_nil_iff.1 h)]
    · simp [h, words_strip]

/-- Gathered texts need not be trimmed again. -/
theorem strip_gathered (ts : List Text) : strip (gathered ts) = gathered ts := by
  -- a piece is a stripped text, so it neither begins nor ends with white space
  have hpiece : ∀ p ∈ (ts.map strip).filter (!·.isEmpty), p ≠ [] ∧ ∃ t, p = strip t := by
    intro p hp
    obtain ⟨hp, hne⟩ := List.mem_filter.1 hp
    obtain ⟨t, -, rfl⟩ := List.mem_map.1 hp
    exact ⟨by simpa using hne, t, rfl⟩
  apply trim_eq_self
  · intro c hc
    rw [gathered] at hc
    cases hps : (ts.map strip).filter (!·.isEmpty) with
    | nil => simp [hps, joinWith] at hc
    | cons p ps =>
      obtain ⟨hne, t, rfl⟩ := hpiece p (hps ▸ List.mem_cons_self)
      obtain ⟨r, hr⟩ := prefix_joinWith [' '] (strip t) ps
      rw [hps, ← hr, List.head?_append_of_ne_nil _ hne] at hc
      exact of_mem_head?_trim hc
  · intro c hc
    rw [gathered] at hc
    rcases List.eq_nil_or_concat ((ts.map strip).filter (!·.isEmpty)) with hps | ⟨ps, p, hps⟩
    · simp [hps, joinWith] at hc
    · rw [List.concat_eq_append] at hps
      obtain ⟨hne, t, rfl⟩ := hpiece p (hps ▸ by simp)
      obtain ⟨r, hr⟩ := suffix_joinWith [' '] ps (strip t)
      rw [hps, ← hr, List.getLast?_append_of_ne_nil _ hne] at hc
      exact of_mem_getLast?_trim hc

/-- **Gathered texts** are the words of another text with single spaces between them exactly if
each of them has only single spaces between its words, and their words are those of the other
text. -/
theorem gathered_eq_spaced_iff (ts : List Text) (u : Text) :
    gathered ts = spaced u ↔
      (∀ t ∈ ts, spaced t = strip t) ∧ ts.flatMap words = words u := by
  have hspaced : joinWith [' '] (ts.flatMap words) =
      ((ts.map spaced).flatMap spaceBefore).tail := by
    rw [joinWith_eq_tail, List.flatMap_assoc, List.flatMap_map]
    simp only [flatMap_words]
  constructor
  · intro h
    have hwords : ts.flatMap words = words u := by rw [← words_gathered, h, words_spaced]
    -- no text gets longer by spacing, so where they are equal in a row, they are equal one by one
    refine ⟨?_, hwords⟩
    rw [spaced, ← hwords, hspaced, gathered_eq_tail] at h
    have hfront := congrArg spaceBefore h
    rw [spaceBefore_tail, spaceBefore_tail, List.flatMap_map, List.flatMap_map] at hfront
    intro t ht
    exact spaceBefore_injective (eq_of_flatMap_eq length_spaceBefore_le hfront.symm t ht)
  · rintro ⟨hsingle, hwords⟩
    rw [spaced, ← hwords, hspaced, gathered_eq_tail, List.map_congr_left hsingle]

end Showcase.Text

import Showcase.Markup.Line

/-!
# Texts and their lines

A text that is empty or ends with a line feed is made of whole lines (`exists_lines`). Put in front
of another one, it adds its lines in front of the other's (`Line.all_append`). Its lines make up the
text again (`Line.cutAll_all`), whatever white space they begin with.
-/

namespace Showcase

namespace Text

theorem splitOn_ne_nil (sep : Char) (t : Text) : splitOn sep t ≠ [] := by
  induction t with
  | nil => exact List.cons_ne_nil [] []
  | cons c t ih =>
    rw [splitOn]
    split
    · exact List.cons_ne_nil _ _
    · split
      · exact List.cons_ne_nil _ _
      · exact List.cons_ne_nil _ _

theorem splitOn_cons_self (sep : Char) (t : Text) :
    splitOn sep (sep :: t) = [] :: splitOn sep t := by
  obtain ⟨p, ps, e⟩ := List.exists_cons_of_ne_nil (splitOn_ne_nil sep t)
  simp only [splitOn, e, if_pos]

/-- A character that is no separator is in the first part. -/
theorem splitOn_cons_of_ne {sep c : Char} {t p : Text} {ps : List Text} (h : c ≠ sep)
    (ht : splitOn sep t = p :: ps) : splitOn sep (c :: t) = (c :: p) :: ps := by
  simp only [splitOn, ht, if_neg h]

/-- The first piece ends at the first separator. -/
theorem splitOn_append {sep : Char} {t : Text} (h : sep ∉ t) (r : Text) :
    splitOn sep (t ++ sep :: r) = t :: splitOn sep r := by
  induction t with
  | nil => exact splitOn_cons_self sep r
  | cons c t ih =>
    rw [List.mem_cons, not_or] at h
    exact splitOn_cons_of_ne (Ne.symm h.1) (ih h.2)

/-- Without a separator there is one piece. -/
theorem splitOn_eq_singleton {sep : Char} {t : Text} (h : sep ∉ t) : splitOn sep t = [t] := by
  induction t with
  | nil => rfl
  | cons c t ih =>
    rw [List.mem_cons, not_or] at h
    exact splitOn_cons_of_ne (Ne.symm h.1) (ih h.2)

/-! ## Whole lines -/

/-- The text made of the given lines, each with its line feed. -/
def unlines (ts : List Text) : Text := ts.flatMap (· ++ ['\n'])

theorem unlines_cons (t : Text) (ts : List Text) : unlines (t :: ts) = t ++ '\n' :: unlines ts := by
  rw [unlines, List.flatMap_cons, List.append_assoc, List.singleton_append, ← unlines]

theorem unlines_append (ts us : List Text) : unlines (ts ++ us) = unlines ts ++ unlines us :=
  List.flatMap_append

/-- A character of lines is in one of them, or a line feed. -/
theorem mem_unlines {c : Char} {ts : List Text} (h : c ∈ unlines ts) :
    c = '\n' ∨ ∃ t ∈ ts, c ∈ t := by
  obtain ⟨t, ht, h⟩ := List.mem_flatMap.1 h
  rcases List.mem_append.1 h with h | h
  · exact Or.inr ⟨t, ht, h⟩
  · exact Or.inl (List.mem_singleton.1 h)

/-- The text is made of whole lines. -/
def IsWhole (t : Text) : Prop := t = [] ∨ t.getLast? = some '\n'

/-- A text that ends with its last line is made of lines. -/
theorem exists_lines {t : Text} (h : IsWhole t) : ∃ ts, (∀ u ∈ ts, '\n' ∉ u) ∧ t = unlines ts := by
  induction t with
  | nil => exact ⟨[], fun u hu => absurd hu List.not_mem_nil, rfl⟩
  | cons c t ih =>
    rcases h with h | h
    · cases h
    · have ht : IsWhole t ∨ t = [] ∧ c = '\n' := by
        cases t with
        | nil => exact Or.inr ⟨rfl, Option.some.inj h⟩
        | cons d t => exact Or.inl (Or.inr (by rw [← h, List.getLast?_cons_cons]))
      by_cases hc : c = '\n'
      · -- the text begins with an empty line
        have ht : IsWhole t := ht.elim id fun h => Or.inl h.1
        obtain ⟨ts, hts, e⟩ := ih ht
        refine ⟨[] :: ts, List.forall_mem_cons.2 ⟨List.not_mem_nil, hts⟩, ?_⟩
        rw [unlines_cons, hc, ← e, List.nil_append]
      · -- the character belongs to the first line of the rest, which is not empty
        obtain ⟨ts, hts, e⟩ := ih (ht.resolve_right fun h => hc h.2)
        cases ts with
        | nil =>
          have : t = [] := e
          rw [this] at h
          exact absurd (Option.some.inj h) hc
        | cons u ts =>
          obtain ⟨hu, hts⟩ := List.forall_mem_cons.1 hts
          refine ⟨(c :: u) :: ts, List.forall_mem_cons.2 ⟨?_, hts⟩, ?_⟩
          · rw [List.mem_cons, not_or]
            exact ⟨Ne.symm hc, hu⟩
          · rw [e, unlines_cons, unlines_cons, List.cons_append]

end Text

namespace Line

open Text

theorem all_nil : all [] = [] := rfl

/-- A text is read line by line. -/
theorem all_cons {t : Text} (h : '\n' ∉ t) (r : Text) :
    all (t ++ '\n' :: r) = ofText true t :: all r := by
  obtain ⟨p, ps, e⟩ := List.exists_cons_of_ne_nil (splitOn_ne_nil '\n' r)
  rw [all, splitOn_append h, e, ofTexts, all, e]
  exact fun h => nomatch h

/-- Lines are read one by one, before whatever follows them. -/
theorem all_unlines_append {ts : List Text} (h : ∀ u ∈ ts, '\n' ∉ u) (r : Text) :
    all (unlines ts ++ r) = ts.map (ofText true) ++ all r := by
  induction ts with
  | nil => rfl
  | cons t ts ih =>
    obtain ⟨ht, hts⟩ := List.forall_mem_cons.1 h
    rw [unlines_cons, List.append_assoc, List.cons_append, all_cons ht, ih hts, List.map_cons,
      List.cons_append]

theorem all_unlines {ts : List Text} (h : ∀ u ∈ ts, '\n' ∉ u) :
    all (unlines ts) = ts.map (ofText true) := by
  have := all_unlines_append h []
  rwa [List.append_nil, all_nil, List.append_nil] at this

/-- What ends with a line does not touch what follows it. -/
theorem all_append {t : Text} (h : IsWhole t) (r : Text) : all (t ++ r) = all t ++ all r := by
  obtain ⟨ts, hts, rfl⟩ := exists_lines h
  rw [all_unlines_append hts, all_unlines hts]

/-! ## What a line of a text is -/

theorem cutMargin_zero (m : Text) : cutMargin 0 0 0 m = m := by
  cases m with
  | nil => rfl
  | cons c m =>
    rw [cutMargin, if_neg (Nat.lt_irrefl 0)]
    rfl

theorem cut_zero_ofText (ended : Bool) (t : Text) : (ofText ended t).cut 0 = t := by
  rw [cut, ofText, Int.toNat_zero, cutMargin_zero, spanClass, List.takeWhile_append_dropWhile]

/-- **Lines without margin are the text again.** -/
theorem cutAll_all {t : Text} (h : IsWhole t) : cutAll 0 (all t) = t := by
  obtain ⟨ts, hts, rfl⟩ := exists_lines h
  rw [all_unlines hts, cutAll, unlines, List.flatMap_map]
  refine congrArg ts.flatMap (funext fun t => ?_)
  rw [cut_zero_ofText]
  rfl

/-- A line of a text made of whole lines begins in the first column and is ended, and its content
stands in the text. -/
theorem of_mem_all {t : Text} (h : IsWhole t) {l : Line} (hl : l ∈ all t) :
    l.ended = true ∧ 0 ≤ l.indent ∧ l.content <:+: t := by
  obtain ⟨ts, hts, rfl⟩ := exists_lines h
  rw [all_unlines hts] at hl
  obtain ⟨u, hu, rfl⟩ := List.mem_map.1 hl
  refine ⟨rfl, Int.natCast_nonneg _, List.IsInfix.trans (List.dropWhile_suffix _).isInfix ?_⟩
  obtain ⟨as, bs, rfl⟩ := List.append_of_mem hu
  rw [unlines_append, unlines_cons, ← List.singleton_append]
  exact ⟨unlines as, _, List.append_assoc _ u _⟩

end Line

end Showcase

import Showcase.Document.Node
import Showcase.Proofs.Markup.Lines
import Showcase.Proofs.Text.Escape
import Showcase.Proofs.Text.Named

/-!
# Written characters and values

A character is written as it is or by a name (`Writes`). A text in which every character is written
in one of these ways reads back as the value of an attribute (`expandAll_flatMap`), and a value that
is put in quotes has nothing in it that would end it early (`exists_quotedValue`).
-/

namespace Showcase.Document

open Text (IsNameOf)

/-- The text is a way to write the character: the character itself, unless it begins references, or
a reference by name. -/
inductive Writes (c : Char) : Text → Prop
  | plain (h : c ≠ '&') : Writes c [c]
  | named {name : Text} (h : IsNameOf name c) : Writes c ('&' :: (name ++ [';']))

/-- A character is written by its name, or as it is. -/
theorem writtenChar_cases (c : Char) :
    (∃ name, (name, c) ∈ Text.markupNames ∧ writtenChar c = '&' :: (name ++ [';'])) ∨
      c ≠ '&' ∧ c ≠ '<' ∧ c ≠ '>' ∧ writtenChar c = [c] := by
  by_cases hamp : c = '&'
  · exact Or.inl ⟨"amp".toList, by rw [hamp]; decide, by rw [hamp]; decide⟩
  by_cases hlt : c = '<'
  · exact Or.inl ⟨"lt".toList, by rw [hlt]; decide, by rw [hlt]; decide⟩
  by_cases hgt : c = '>'
  · exact Or.inl ⟨"gt".toList, by rw [hgt]; decide, by rw [hgt]; decide⟩
  · exact Or.inr ⟨hamp, hlt, hgt, by rw [writtenChar, if_neg hamp, if_neg hlt, if_neg hgt]⟩

/-- A text without the characters that markup needs is written as it is. -/
theorem writtenText_eq_self {t : Text} (h : ∀ c ∈ t, c ∉ ['&', '<', '>']) : writtenText t = t := by
  induction t with
  | nil => rfl
  | cons c t ih =>
    obtain ⟨hc, ht⟩ := List.forall_mem_cons.1 h
    simp only [List.mem_cons, List.not_mem_nil, or_false, not_or] at hc
    rw [writtenText, List.flatMap_cons, ← writtenText, ih ht, writtenChar, if_neg hc.1,
      if_neg hc.2.1, if_neg hc.2.2, List.singleton_append]

/-- Either way it is read back. -/
theorem writes_writtenChar (c : Char) : Writes c (writtenChar c) := by
  rcases writtenChar_cases c with ⟨name, hname, h⟩ | ⟨hamp, -, -, h⟩
  · rw [h]
    exact .named (Text.isNameOf_of_mem hname)
  · rw [h]
    exact .plain hamp

/-- No character is written as the beginning of markup. -/
theorem not_mem_writtenChar (c : Char) : '<' ∉ writtenChar c := by
  rcases writtenChar_cases c with ⟨name, hname, h⟩ | ⟨-, hlt, -, h⟩
  · have hall : ∀ x ∈ Text.markupNames, '<' ∉ '&' :: (x.1 ++ [';']) := by decide
    rw [h]
    exact hall _ hname
  · rw [h, List.mem_singleton]
    exact Ne.symm hlt

/-! ## Values -/

namespace Reference

theorem expandAll_cons {c : Char} (hc : c ≠ '&') (t : Text) :
    expandAll (c :: t) = c :: expandAll t := by
  obtain ⟨p, ps, e⟩ := List.exists_cons_of_ne_nil (Text.splitOn_ne_nil '&' t)
  rw [expandAll, expandAll, Text.splitOn_cons_of_ne hc e, e]
  rfl

theorem isNameChar_of_isLetter {c : Char} (hc : Text.isLetter c = true) : isNameChar c = true := by
  cases h : isNameChar c with
  | true => rfl
  | false =>
    simp only [isNameChar, Bool.not_eq_false', Bool.or_eq_true, beq_iff_eq] at h
    have hmem : c ∈ ['\t', '\n', '\x0c', ' ', '<', '&', '#', ';'] := by simpa [or_assoc] using h
    exact absurd hmem (Text.not_mem_of_all hc (by decide))

/-- A name that stands for a character is expanded to it. -/
theorem expand_named {name : Text} {c : Char} (h : IsNameOf name c) (t : Text) :
    expand (name ++ ';' :: t) = c :: t := by
  obtain ⟨d, r, e⟩ := List.exists_cons_of_ne_nil h.ne_nil
  have hd : d ≠ '#' := by
    rintro rfl
    have := h.letters '#' (by rw [e]; exact List.mem_cons_self)
    revert this
    decide
  -- the name is not cut off: it is short enough, and the semicolon ends it
  have hword : ((name ++ ';' :: t).takeWhile isNameChar).take 32 = name := by
    rw [Text.takeWhile_run (fun b hb => isNameChar_of_isLetter (h.letters b hb)) (by decide),
      List.take_of_length_le h.short]
  rw [expand.eq_def]
  split
  · next t' e' =>
    rw [e, List.cons_append] at e'
    exact absurd (List.cons.inj e').1 hd
  · simp only [hword, if_neg h.ne_nil, List.drop_left]
    rw [expandWord]
    simp only [List.head?_cons, beq_self_eq_true, if_pos, h.named]
    rfl

theorem expandAll_named {name : Text} {c : Char} (h : IsNameOf name c) (t : Text) :
    expandAll ('&' :: (name ++ ';' :: t)) = c :: expandAll t := by
  obtain ⟨p, ps, e⟩ := List.exists_cons_of_ne_nil (Text.splitOn_ne_nil '&' t)
  have hpiece : Text.splitOn '&' (name ++ ';' :: t) = (name ++ ';' :: p) :: ps := by
    have hname : ∀ d ∈ name, d ≠ '&' := by
      rintro d hd rfl
      have := h.letters '&' hd
      revert this
      decide
    -- in the induction the name is cut short, and then it stands for nothing
    clear h
    induction name with
    | nil => exact Text.splitOn_cons_of_ne (by decide) e
    | cons d name ih =>
      obtain ⟨hd, hname⟩ := List.forall_mem_cons.1 hname
      exact Text.splitOn_cons_of_ne hd (ih hname)
  rw [expandAll, Text.splitOn_cons_self, hpiece, expandAll, e]
  simp only [List.nil_append, List.flatMap_cons, expand_named h, List.cons_append]

/-- **Written values** are read back. -/
theorem expandAll_flatMap {f : Char → Text} (hf : ∀ c, Writes c (f c)) (v : Text) :
    expandAll (v.flatMap f) = v := by
  induction v with
  | nil => rfl
  | cons c v ih =>
    rw [List.flatMap_cons]
    have hc := hf c
    generalize f c = w at hc
    cases hc with
    | plain hc => rw [List.singleton_append, expandAll_cons hc, ih]
    | named hc =>
      rw [List.cons_append, List.append_assoc, List.singleton_append, expandAll_named hc, ih]

end Reference

/-! ## Quotes -/

/-- Replacing a character is writing each character. -/
theorem replaceAll_singleton (c : Char) (q t : Text) :
    Text.replaceAll [c] q t = t.flatMap fun d => if d = c then q else [d] := by
  rw [Text.replaceAll]
  induction t with
  | nil => rfl
  | cons d t ih =>
    rw [Text.replaceFrom, List.flatMap_cons]
    have hstart : Text.startsWith (d :: t) [c] = true ↔ d = c := by
      rw [Text.startsWith_iff]
      constructor
      · rintro ⟨r, h⟩
        exact (List.cons.inj h).1
      · rintro rfl
        exact ⟨t, rfl⟩
    simp only [hstart]
    split
    · rw [List.length_singleton, ih]
    · rw [ih]
      rfl

/-- A character of a value in double quotes that has both kinds of quotes in it, as it is written.
-/
def quotedChar (c : Char) : Text := if c = '"' then "&quot;".toList else writtenChar c

/-- In a value, the double quote is written by its name as well. -/
theorem writes_quotedChar (c : Char) : Writes c (quotedChar c) := by
  rw [quotedChar]
  split
  · next h =>
    rw [h]
    exact .named (Text.isNameOf_of_mem (x := ("quot".toList, '"')) (by decide))
  · exact writes_writtenChar c

/-- So no double quote is left in a value. -/
theorem not_mem_quotedChar (c : Char) : '"' ∉ quotedChar c := by
  rw [quotedChar]
  split
  · decide
  · next h =>
    rcases writtenChar_cases c with ⟨name, hname, e⟩ | ⟨-, -, -, e⟩
    · have hall : ∀ x ∈ Text.markupNames, '"' ∉ '&' :: (x.1 ++ [';']) := by decide
      rw [e]
      exact hall _ hname
    · rw [e, List.mem_singleton]
      exact Ne.symm h

/-- Nor is an opening bracket. -/
theorem lt_not_mem_quotedChar (c : Char) : '<' ∉ quotedChar c := by
  rw [quotedChar]
  split
  · decide
  · exact not_mem_writtenChar c

/-- The page writes its texts and values in the same way. -/
theorem escapeChar_eq : Text.escapeChar = quotedChar := by
  funext c
  by_cases hquot : c = '"'
  · rw [hquot]
    rfl
  · rw [quotedChar, if_neg hquot, Text.escapeChar, if_neg hquot]
    rfl

/-- An escaped value reads back. -/
theorem Reference.expandAll_escape (t : Text) : expandAll (Text.escape t) = t := by
  rw [Text.escape, escapeChar_eq]
  exact expandAll_flatMap writes_quotedChar t

theorem not_mem_escape (t : Text) : '"' ∉ Text.escape t :=
  fun h => (Text.of_mem_escape h).2.2 rfl

theorem lt_not_mem_escape (t : Text) : '<' ∉ Text.escape t :=
  fun h => (Text.of_mem_escape h).1 rfl

/-- Values may be quoted character by character. -/
theorem flatMap_quotedChar (v : Text) :
    Text.replaceAll ['"'] "&quot;".toList (writtenText v) = v.flatMap quotedChar := by
  have hself : ∀ w : Text, '"' ∉ w →
      w.flatMap (fun d => if d = '"' then "&quot;".toList else [d]) = w := by
    intro w hw
    induction w with
    | nil => rfl
    | cons d w ih =>
      rw [List.mem_cons, not_or] at hw
      rw [List.flatMap_cons, if_neg (Ne.symm hw.1), ih hw.2]
      rfl
  rw [replaceAll_singleton, writtenText, List.flatMap_assoc]
  congr 1
  funext c
  by_cases h : c = '"'
  · rw [h]
    decide
  · have e : quotedChar c = writtenChar c := if_neg h
    rw [hself _ (e ▸ not_mem_quotedChar c), e]

/-- **Values in quotes.** A value stands between two quotes of one kind, with no quote of this kind
in between, and what stands there is read as the value. -/
theorem exists_quotedValue (v : Text) :
    ∃ q body, Tag.isQuote q = true ∧ quotedValue (writtenText v) = q :: (body ++ [q]) ∧ q ∉ body ∧
      Reference.expandAll body = v := by
  have hplain : Reference.expandAll (writtenText v) = v :=
    Reference.expandAll_flatMap writes_writtenChar v
  rw [quotedValue]
  split
  · split
    · refine ⟨'"', _, rfl, rfl, ?_, ?_⟩
      · rw [flatMap_quotedChar, List.mem_flatMap]
        exact fun ⟨c, _, h⟩ => not_mem_quotedChar c h
      · rw [flatMap_quotedChar]
        exact Reference.expandAll_flatMap writes_quotedChar v
    · next h => exact ⟨'\'', _, rfl, rfl, h, hplain⟩
  · next h => exact ⟨'"', _, rfl, rfl, h, hplain⟩

end Showcase.Document

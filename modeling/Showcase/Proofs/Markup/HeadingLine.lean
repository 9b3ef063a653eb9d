import Mathlib.Data.List.Forall2
import Showcase.Markup.Inline.Reader
import Showcase.Proofs.Markup.Lines
import Showcase.Proofs.Markup.Reading
import Showcase.Proofs.Text.Basic

/-!
# Lines that are headings

A heading as an author writes it: number signs, a space, and plain words with single spaces between
them (`HeadingLine`).

* Such a line begins no other block, and the number signs give its level (`rule_text`). So lines of
  this kind are read one by one (`readPage_page`), whether or not a line feed ends the last of them.
* Plain words have no character that means anything inside a line (`read_title`).
-/

namespace Showcase

open Text Block

/-- A heading as an author writes it. -/
structure HeadingLine where
  /-- from 1, the highest, to 6 -/
  level : Nat
  /-- the words of the title -/
  words : List Text
  /-- there are levels from 1 on -/
  level_pos : 1 ≤ level
  /-- there are six levels -/
  level_le : level ≤ 6
  /-- there is a title -/
  words_ne_nil : words ≠ []
  /-- no word is empty -/
  word_ne_nil : ∀ w ∈ words, w ≠ []
  /-- words have letters and digits in them -/
  plain : ∀ w ∈ words, ∀ c ∈ w, (isLetter c || isDigit c) = true

namespace HeadingLine

variable (h : HeadingLine)

/-- The words with single spaces between them. -/
def title : Text := joinWith [' '] h.words

/-- The line. -/
def text : Text := List.replicate h.level '#' ++ ' ' :: h.title

/-- The block. -/
def block : Block := .heading h.level h.title

/-- The page that has one line per heading; the last line is `ended` by a line feed or not. -/
def page (ended : Bool) (hs : List HeadingLine) : Text :=
  if ended then unlines (hs.map text) else joinWith ['\n'] (hs.map text)

/-! ## Titles -/

/-- A character of a title. -/
def isTitleChar (c : Char) : Bool := isLetter c || isDigit c || c == ' '

variable {h}

theorem isTitleChar_of_mem_title {c : Char} (hc : c ∈ h.title) : isTitleChar c = true := by
  rw [isTitleChar]
  rcases mem_joinWith hc with hc | ⟨w, hw, hc⟩
  · obtain rfl := List.mem_singleton.1 hc
    rfl
  · rw [h.plain w hw c hc, Bool.true_or]

variable (h)

/-- A title begins with a letter or a digit. -/
theorem exists_title_eq_cons :
    ∃ c t, h.title = c :: t ∧ (isLetter c || isDigit c) = true := by
  obtain ⟨w, ws, e⟩ := List.exists_cons_of_ne_nil h.words_ne_nil
  have hw : w ∈ h.words := e ▸ List.mem_cons_self
  obtain ⟨c, w', e'⟩ := List.exists_cons_of_ne_nil (h.word_ne_nil w hw)
  obtain ⟨r, hr⟩ := prefix_joinWith [' '] w ws
  refine ⟨c, w' ++ r, ?_, h.plain w hw c (e' ▸ List.mem_cons_self)⟩
  rw [title, e, ← hr, e', List.cons_append]

/-- A title ends with a letter or a digit. -/
theorem exists_title_eq_concat :
    ∃ t c, h.title = t ++ [c] ∧ (isLetter c || isDigit c) = true := by
  obtain ⟨ws, w, e⟩ := List.eq_nil_or_concat h.words |>.resolve_left h.words_ne_nil
  have hw : w ∈ h.words := e ▸ by simp
  obtain ⟨w', c, e'⟩ := List.eq_nil_or_concat w |>.resolve_left (h.word_ne_nil w hw)
  obtain ⟨r, hr⟩ := suffix_joinWith [' '] ws w
  refine ⟨r ++ w', c, ?_, h.plain w hw c (e' ▸ by simp)⟩
  rw [title, e, List.concat_eq_append, ← hr, e', List.concat_eq_append, List.append_assoc]

/-- No title is empty. -/
theorem title_ne_nil : h.title ≠ [] := by
  obtain ⟨c, t, e, -⟩ := h.exists_title_eq_cons
  rw [e]
  exact List.cons_ne_nil c t

/-- There is no white space around a title, except before it if that is added. -/
theorem strip_title : strip h.title = h.title ∧ strip (' ' :: h.title) = h.title := by
  -- a title begins and ends with a letter or digit, none of which is blank
  obtain ⟨c, t, e, hc⟩ := h.exists_title_eq_cons
  obtain ⟨u, d, e', hd⟩ := h.exists_title_eq_concat
  have hc : isBlank c = false :=
    forall_alphanumeric (P := (isBlank · = false)) (by decide +kernel) hc
  have hd : isBlank d = false :=
    forall_alphanumeric (P := (isBlank · = false)) (by decide +kernel) hd
  have hdrop : h.title.dropWhile isBlank = h.title := by
    rw [e]
    exact List.dropWhile_cons_of_neg (by simp [hc])
  have hspace : (' ' :: h.title).dropWhile isBlank = h.title.dropWhile isBlank :=
    List.dropWhile_cons_of_pos (by decide)
  have htrim : trimEnd isBlank h.title = h.title := by
    rw [e']
    exact trimEnd_concat hd u
  rw [strip, trim, hdrop, htrim, strip, trim, hspace, hdrop, htrim]
  exact ⟨rfl, rfl⟩

/-! ## Lines -/

variable {h}

/-- The line is the one that the heading is written in. -/
def IsAt (h : HeadingLine) (l : Line) : Prop := ∃ ended, l = Line.ofText ended h.text

theorem exists_text_eq_cons (h : HeadingLine) : ∃ t, h.text = '#' :: t := by
  obtain ⟨n, e⟩ := Nat.exists_eq_succ_of_ne_zero (Nat.ne_of_gt h.level_pos)
  rw [text, e]
  exact ⟨_, rfl⟩

/-- A heading line has hashes and characters of titles only. -/
theorem mem_text {c : Char} (hc : c ∈ h.text) : c = '#' ∨ isTitleChar c = true := by
  rcases List.mem_append.1 hc with hc | hc
  · exact Or.inl (List.eq_of_mem_replicate hc)
  · rcases List.mem_cons.1 hc with rfl | hc
    · exact Or.inr rfl
    · exact Or.inr (isTitleChar_of_mem_title hc)

/-- A line has no character that is neither in titles nor a number sign. -/
theorem not_mem_text {c : Char} (hc : (c == '#' || isTitleChar c) = false) : c ∉ h.text := by
  intro hmem
  rcases mem_text hmem with rfl | h
  · cases hc
  · rw [h, Bool.or_true] at hc
    cases hc

theorem IsAt.content {l : Line} (hl : h.IsAt l) : l.content = h.text ∧ l.indent = 0 := by
  obtain ⟨ended, rfl⟩ := hl
  obtain ⟨t, e⟩ := h.exists_text_eq_cons
  rw [e]
  exact ⟨rfl, rfl⟩

theorem IsAt.isBlank {l : Line} (hl : h.IsAt l) : l.isBlank = false := by
  obtain ⟨t, e⟩ := h.exists_text_eq_cons
  rw [Line.isBlank, hl.content.1, e]
  rfl

/-- The lines of a page are its heading lines, one for one. -/
theorem forall_isAt_unlines (hs : List HeadingLine) :
    List.Forall₂ IsAt hs (Line.all (unlines (hs.map text))) := by
  have hfeed : ∀ t ∈ hs.map text, '\n' ∉ t := by
    intro t ht
    obtain ⟨h, -, rfl⟩ := List.mem_map.1 ht
    exact not_mem_text (by decide)
  rw [Line.all_unlines hfeed, List.map_map, List.forall₂_map_right_iff]
  exact List.forall₂_same.2 fun h _ => ⟨true, rfl⟩

theorem all_text (h : HeadingLine) : Line.all h.text = [Line.ofText false h.text] := by
  have hfeed : '\n' ∉ h.text := not_mem_text (by decide)
  obtain ⟨t, e⟩ := h.exists_text_eq_cons
  rw [Line.all, splitOn_eq_singleton hfeed, Line.ofTexts, e]
  rfl

/-- They are so also where the last line is not ended. -/
theorem forall_isAt_joinWith (hs : List HeadingLine) :
    List.Forall₂ IsAt hs (Line.all (joinWith ['\n'] (hs.map text))) := by
  induction hs with
  | nil => exact List.Forall₂.nil
  | cons h hs ih =>
    cases hs with
    | nil =>
      rw [List.map_singleton, joinWith, all_text]
      exact List.Forall₂.cons ⟨false, rfl⟩ List.Forall₂.nil
    | cons h' hs =>
      rw [List.map_cons, List.map_cons, joinWith, ← List.map_cons, List.append_assoc,
        List.singleton_append, Line.all_cons (not_mem_text (by decide))]
      exact List.Forall₂.cons ⟨true, rfl⟩ ih

/-- Each line of the page is a heading. -/
theorem forall_isAt_page (ended : Bool) (hs : List HeadingLine) :
    List.Forall₂ IsAt hs (Line.all (page ended hs)) := by
  cases ended with
  | true => exact forall_isAt_unlines hs
  | false => exact forall_isAt_joinWith hs

/-! ## Reading lines -/

/-- The hashes are counted, and the title is what follows the space behind them. -/
theorem runOf_text (h : HeadingLine) : runOf '#' h.text = (h.level, ' ' :: h.title) := by
  have hsigns : ∀ c ∈ List.replicate h.level '#', (c == '#') = true := fun c hc => by
    rw [List.eq_of_mem_replicate hc]
    rfl
  rw [runOf, text, takeWhile_run hsigns (by decide), dropWhile_run hsigns (by decide),
    List.length_replicate]

/-- **A heading line is read as the heading that it shows.** -/
theorem heading?_text (h : HeadingLine) : heading? h.text = some (h.level, h.title) := by
  -- what trims a heading line stops at the last character of the title
  obtain ⟨t, d, e, hd⟩ := h.exists_title_eq_concat
  have hblank : isSpaceOrTab d = false :=
    forall_alphanumeric (P := (isSpaceOrTab · = false)) (by decide +kernel) hd
  have hsign : (d == '#') = false :=
    forall_alphanumeric (P := fun c => (c == '#') = false) (by decide +kernel) hd
  have htrim (cls : Char → Bool) (hd : cls d = false) :
      trimEnd cls (' ' :: h.title) = ' ' :: h.title := by
    rw [e]
    exact trimEnd_concat hd (' ' :: t)
  have hlast : (' ' :: h.title).getLast? = some d := by
    rw [e, ← List.cons_append, List.getLast?_concat]
  rw [heading?, runOf_text]
  simp only [htrim isSpaceOrTab hblank, htrim (· == '#') hsign, hlast, Option.map_some, hblank,
    Option.getD_some, if_neg Bool.false_ne_true, h.strip_title.2]
  exact if_pos ⟨h.level_pos, h.level_le, rfl⟩

variable {g : Grammar}

/-- **A line is read as its heading.** -/
theorem rule_text (hrich : g.dialect.rich = true) (inner inItem : Reader) {l : Line}
    (hl : h.IsAt l) (ls : List Line) (window limit : Nat) :
    rule g inner inItem pageFrame l ls window limit = some (.leaf h.block 1) := by
  obtain ⟨hcontent, hindent⟩ := hl.content
  have hcode : isCode g pageFrame l = false := isCode_of_indent hindent
  have hbar : '|' ∉ strip l.content := fun hmem => by
    rw [hcontent] at hmem
    exact not_mem_text (by decide) (mem_of_mem_trim hmem)
  have htable : tableRule g pageFrame l ls window limit = none := by
    cases ls with
    | nil => rfl
    | cons second more => exact tableRule_eq_none (header?_of_not_mem hbar second.content)
  have hheading : markedHeadingRule g pageFrame l ls window limit = some (.leaf h.block 1) := by
    rw [markedHeadingRule, hcode, hcontent, heading?_text]
    rfl
  -- no other block begins with a number sign
  obtain ⟨t, e⟩ := h.exists_text_eq_cons
  rw [e] at hcontent
  have hcontainer : containerRule g inner pageFrame l ls window limit = none := by
    rw [containerRule, hcode, hcontent]
    rfl
  have hfence : fencedCodeRule g pageFrame l ls window limit = none := by
    rw [fencedCodeRule, hcode, hcontent]
    rfl
  have hquote : quoteRule g inner pageFrame l ls window limit = none := by
    rw [quoteRule, hcode, Line.unquote?, hcontent]
    rfl
  have hbreak : thematicBreakRule g pageFrame l ls window limit = none := by
    rw [thematicBreakRule, hcontent]
    exact if_neg fun h => Bool.false_ne_true h.2
  have hlist : listRule g inItem pageFrame l ls window limit = none := by
    rw [listRule, hcontent]
    exact ite_self _
  have hdefinition : definitionRule g pageFrame l ls window limit = none := by
    rw [definitionRule, hcontent]
    exact if_pos (Or.inr (by simp))
  have hraw : rawHtmlRule g pageFrame l ls window limit = none := by
    rw [rawHtmlRule, hcontent]
    exact ite_self _
  have hindented : indentedCodeRule g pageFrame l ls window limit = none := by
    rw [indentedCodeRule, hcode]
    rfl
  rw [rule, if_pos hrich, htable, hindented, hcontainer, hfence, hquote, hbreak, hlist, hdefinition,
    hraw, hheading]
  rfl

/-- Lines are read one by one. -/
theorem sequence_lines (hrich : g.dialect.rich = true) (inner inItem : Reader)
    {hs : List HeadingLine} {ls : List Line} (hls : List.Forall₂ IsAt hs ls)
    (spaced tight : Bool) :
    ∃ used tight', sequence (rule g inner inItem) pageFrame spaced tight ls ls.length ls.length =
      ⟨hs.map block, [], used, tight'⟩ := by
  induction hls generalizing spaced tight with
  | nil =>
    rw [List.length_nil, Block.sequence, if_pos rfl]
    exact ⟨_, _, rfl⟩
  | @cons h l hs ls hl hls ih =>
    have hs' := rule_text hrich inner inItem hl ls (ls.length + 1) (ls.length + 1)
    -- if there is a next line, then it is the next heading
    have hnext : ls.length + 1 ≤ 1 ∨ isBlankAt (l :: ls) 1 = false := by
      cases hls with
      | nil => exact Or.inl (Nat.le_refl 1)
      | cons hl' _ =>
        rw [isBlankAt]
        exact Or.inr hl'.isBlank
    have hpos : 0 < ls.length + 1 := Nat.succ_pos _
    have hindent : (pageFrame.indent : Int) ≤ l.indent := by
      rw [hl.content.2]
      exact Int.le_refl 0
    obtain ⟨spaced', e⟩ := sequence_cons hl.isBlank hindent hpos hs' Nat.one_pos hnext
      spaced tight
    obtain ⟨used, tight', ih⟩ := ih spaced' (!spaced)
    refine ⟨1 + used, tight', ?_⟩
    rw [List.length_cons, e]
    simp only [Step.leaf, List.drop_succ_cons, List.drop_zero, Nat.add_sub_cancel, ih]
    rfl

/-- **The page is read as its headings.** -/
theorem readPage_page (hrich : g.dialect.rich = true) {depth : Nat}
    (hdepth : g.dialect.depth = depth + 1) (ended : Bool) (hs : List HeadingLine) :
    readPage g (page ended hs) = (hs.map block, []) := by
  obtain ⟨inner, inItem, hreader⟩ := exists_reader_succ g depth
  obtain ⟨used, tight, e⟩ :=
    sequence_lines hrich inner inItem (forall_isAt_page ended hs) false true
  rw [readPage, hdepth]
  simp only [hreader]
  change ((sequence _ pageFrame _ _ _ _ _).blocks, (sequence _ pageFrame _ _ _ _ _).definitions) = _
  rw [e]

/-! ## Reading titles -/

/-- Plain words are gathered character by character. -/
theorem scan_of_plain (ctx : Inline.Context) (read : Inline.Reading) (depth place : Nat)
    (before : Char) (words : Text) (skips : Inline.Skips) {t : Text}
    (ht : ∀ c ∈ t, Inline.endsWords c = false) :
    Inline.scan ctx read depth 0 before place words skips t =
      Inline.flush (t.reverse ++ words) [] := by
  induction t generalizing before place words with
  | nil => rfl
  | cons c t ih =>
    obtain ⟨hc, ht⟩ := List.forall_mem_cons.1 ht
    have hne : c ≠ '\n' ∧ c ≠ '[' ∧ c ≠ '!' := by
      refine ⟨?_, ?_, ?_⟩ <;> rintro rfl <;> cases hc
    have htoken : Inline.token ctx read depth before place skips c t = (.words 1, skips) := by
      rw [Inline.token.eq_def, if_neg hne.1, if_neg hne.2.1, if_neg hne.2.2, hc,
        if_neg Bool.false_ne_true, ite_self]
    rw [Inline.scan, htoken]
    simp only [Inline.Token.width, Nat.sub_self, ih (place + 1) c _ ht, List.take_succ_cons,
      List.take_zero, List.reverse_cons, List.append_assoc, List.reverse_nil, List.nil_append]

/-- Text in which no token begins is read as it is. -/
theorem read_of_plain (ctx : Inline.Context) {t : Text} (hne : t ≠ [])
    (ht : ∀ c ∈ t, Inline.endsWords c = false) : Inline.read ctx t = [.text t] := by
  rw [Inline.read, Inline.readFrom, scan_of_plain ctx _ _ _ _ _ _ ht, List.append_nil,
    Inline.flush, if_neg fun h => hne (List.reverse_eq_nil_iff.1 h), List.reverse_reverse]
  rfl

/-- A title is plain words. -/
theorem read_title (ctx : Inline.Context) (h : HeadingLine) :
    Inline.read ctx h.title = [.text h.title] := by
  refine read_of_plain ctx h.title_ne_nil fun c hc => ?_
  have hchar := isTitleChar_of_mem_title hc
  rw [isTitleChar, Bool.or_eq_true, beq_iff_eq] at hchar
  rcases hchar with hchar | rfl
  · exact forall_alphanumeric (P := (Inline.endsWords · = false)) (by decide +kernel) hchar
  · decide +kernel

end HeadingLine

end Showcase

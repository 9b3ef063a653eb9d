import Showcase.Document.Tree
import Showcase.Proofs.Document.End
import Showcase.Proofs.Document.Tag

/-!
# Reading letter by letter

Where a text is cut into tokens depends on what follows it: a run of plain characters is one token,
each reference is one. What becomes of the tokens does not depend on it, since texts that follow
each other are one text in the tree. So documents are compared by their tokens with the texts taken
apart into letters (`letters`), and this is the same for the tree (`ofText_eq`).

In this form every piece of a document is read on its own, whatever follows it: characters and
references (`letters_writtenText`), tags (`letters_opening`, `letters_closing`), elements without
markup (`letters_verbatim`) and notes (`letters_note`).
-/

namespace Showcase.Document

/-! ## Letters -/

/-- Each letter of a text as a text of its own. -/
def letterTokens (t : Text) : List Token := t.map fun c => .text [c]

/-- A token with its text taken apart. -/
def Token.letters : Token → List Token
  | .text (c :: t) => letterTokens (c :: t)
  | token => [token]

/-- The tokens of what is left of a document, with the texts taken apart. -/
def letters (last : Bool) (t : Text) : Except Rejection (List Token) :=
  (tokensFrom last t).map (·.flatMap Token.letters)

theorem flatMap_letters_textToken (t : Text) :
    (textToken t).flatMap Token.letters = letterTokens t := by
  cases t with
  | nil => rfl
  | cons c t =>
    rw [textToken, if_neg (List.cons_ne_nil c t), List.flatMap_singleton]
    rfl

namespace Draft

/-- The drafts differ at most in how their run of texts is cut. -/
structure Agrees (d e : Draft) : Prop where
  run : d.run.reverse.flatten = e.run.reverse.flatten
  isEmpty : d.run = [] ↔ e.run = []
  stack : d.stack = e.stack
  top : d.top = e.top
  awaited : d.awaited = e.awaited

theorem Agrees.refl (d : Draft) : Agrees d d := ⟨rfl, Iff.rfl, rfl, rfl, rfl⟩

/-- The node of a run of texts does not depend on how the run is cut. -/
theorem Agrees.flush {d e : Draft} (h : Agrees d e) : d.flush = e.flush := by
  obtain ⟨run, stack, top, awaited⟩ := d
  obtain ⟨run', stack', top', awaited'⟩ := e
  obtain ⟨hrun, hempty, rfl, rfl, rfl⟩ := h
  simp only at hrun hempty
  by_cases hr : run = []
  · rw [Draft.flush, if_pos hr, Draft.flush, if_pos (hempty.1 hr), hr, hempty.1 hr]
  · rw [Draft.flush, if_neg hr, Draft.flush, if_neg fun h => hr (hempty.2 h)]
    simp only [hrun]
    rfl

/-- Drafts that agree still agree after the same token. -/
theorem Agrees.read {d e : Draft} (h : Agrees d e) (token : Token) :
    Agrees (d.read token) (e.read token) := by
  -- texts and halves are only gathered; all else makes both drafts equal first
  cases token with
  | text t =>
    refine ⟨?_, by simp [Draft.read], h.stack, h.top, h.awaited⟩
    simp only [Draft.read, List.reverse_cons, List.flatten_append, h.run]
  | half n =>
    refine ⟨?_, by simp [Draft.read], h.stack, h.top, h.awaited⟩
    simp only [Draft.read, List.reverse_cons, List.flatten_append, h.run]
  | note kind data =>
    simp only [Draft.read, h.flush]
    exact .refl _
  | opening name attributes closed =>
    simp only [Draft.read, h.flush]
    exact .refl _
  | closing name =>
    simp only [Draft.read, h.awaited, h.flush]
    split
    · exact ⟨h.run, h.isEmpty, h.stack, h.top, rfl⟩
    · exact .refl _

/-- And so they do after any tokens. -/
theorem Agrees.foldl {d e : Draft} (h : Agrees d e) (tokens : List Token) :
    Agrees (tokens.foldl Draft.read d) (tokens.foldl Draft.read e) := by
  induction tokens generalizing d e with
  | nil => exact h
  | cons token tokens ih => exact ih (h.read token)

theorem Agrees.trans {d e f : Draft} (h : Agrees d e) (h' : Agrees e f) : Agrees d f :=
  ⟨h.run.trans h'.run, h.isEmpty.trans h'.isEmpty, h.stack.trans h'.stack, h.top.trans h'.top,
    h.awaited.trans h'.awaited⟩

/-- Letters gather in the run of texts. -/
theorem foldl_letterTokens (d : Draft) (t : Text) :
    (letterTokens t).foldl Draft.read d =
      { d with run := (t.map fun c => [c]).reverse ++ d.run } := by
  induction t generalizing d with
  | nil => rfl
  | cons c t ih =>
    rw [letterTokens, List.map_cons, List.foldl_cons, ← letterTokens, ih]
    simp [Draft.read]

/-- A token and its letters come to the same. -/
theorem agrees_letters (d : Draft) (token : Token) :
    Agrees (token.letters.foldl Draft.read d) (d.read token) := by
  cases token with
  | text t =>
    cases t with
    | nil => exact .refl _
    | cons c t =>
      rw [Token.letters, foldl_letterTokens]
      refine ⟨?_, by simp [Draft.read], rfl, rfl, rfl⟩
      simp only [Draft.read, List.reverse_append, List.reverse_reverse, List.reverse_cons,
        List.flatten_append, ← List.flatMap_def, List.flatMap_singleton', List.flatten_singleton]
  | half => exact .refl _
  | note => exact .refl _
  | opening => exact .refl _
  | closing => exact .refl _

/-- So do several tokens and all of their letters. -/
theorem agrees_flatMap_letters (d : Draft) (tokens : List Token) :
    Agrees ((tokens.flatMap Token.letters).foldl Draft.read d) (tokens.foldl Draft.read d) := by
  induction tokens generalizing d with
  | nil => exact .refl _
  | cons token tokens ih =>
    rw [List.flatMap_cons, List.foldl_append, List.foldl_cons]
    exact ((agrees_letters d token).foldl _).trans (ih _)

end Draft

/-- The tree does not depend on how texts are cut into tokens. -/
theorem ofTokens_flatMap_letters (tokens : List Token) :
    ofTokens (tokens.flatMap Token.letters) = ofTokens tokens := by
  simp only [ofTokens, Draft.nodes]
  rw [(Draft.agrees_flatMap_letters Draft.empty tokens).flush]

/-- **The tree of a document** can be made of its letters. -/
theorem ofText_eq (t : Text) : ofText t = (letters false t).map ofTokens := by
  rw [ofText, tokens, letters]
  cases tokensFrom false t with
  | error r => rfl
  | ok tokens => exact congrArg Except.ok (ofTokens_flatMap_letters tokens).symm

/-! ## Single steps -/

variable {last : Bool} {c : Char} {t r : Text} {ts : List Token}

theorem letters_nil : letters last [] = .ok [] := by
  rw [letters, tokensFrom]
  rfl

/-- A step that goes on. -/
theorem letters_read (h : step last c t = .read ts r) :
    letters last (c :: t) = (letters last r).map (ts.flatMap Token.letters ++ ·) := by
  rw [letters, tokensFrom]
  split
  · next ts' r' h' =>
    rw [h, Step.read.injEq] at h'
    obtain ⟨rfl, rfl⟩ := h'
    rw [letters]
    cases tokensFrom last r with
    | error e => rfl
    | ok us => exact congrArg Except.ok List.flatMap_append
  all_goals next h' => rw [h] at h'; cases h'

/-- A step over markup that goes on. -/
theorem letters_markup (h : markupStep t = .read ts r) :
    letters last ('<' :: t) = (letters last r).map (ts.flatMap Token.letters ++ ·) :=
  letters_read (by rw [step, if_pos rfl, h])

/-! ## Texts -/

/-- A step takes a whole run of plain characters, or none of it if the run is empty. -/
theorem letters_run (t : Text) :
    letters last t =
      (letters last (t.dropWhile isPlain)).map (letterTokens (t.takeWhile isPlain) ++ ·) := by
  cases t with
  | nil =>
    rw [List.dropWhile_nil, letters_nil]
    rfl
  | cons c t =>
    by_cases hc : isPlain c = true
    · have hne : c ≠ '<' ∧ c ≠ '&' := by simpa [isPlain] using hc
      have h : step last c t = .read [.text (c :: t.takeWhile isPlain)] (t.dropWhile isPlain) := by
        rw [step, if_neg hne.1, if_neg hne.2]
      rw [letters_read h, List.dropWhile_cons_of_pos hc, List.takeWhile_cons_of_pos hc,
        List.flatMap_singleton]
      rfl
    · rw [List.dropWhile_cons_of_neg hc, List.takeWhile_cons_of_neg hc]
      cases letters last (c :: t) <;> rfl

/-- A plain character is a letter, whatever follows it. -/
theorem letters_plain (hc : isPlain c = true) :
    letters last (c :: t) = (letters last t).map (letterTokens [c] ++ ·) := by
  -- the run that begins with `c` and the one that begins after it end at the same place
  rw [letters_run (c :: t), letters_run t, List.dropWhile_cons_of_pos hc,
    List.takeWhile_cons_of_pos hc]
  cases letters last (t.dropWhile isPlain) <;> rfl

theorem isReferenceChar_of_isLetter (hc : Text.isLetter c = true) : isReferenceChar c = true := by
  simp [isReferenceChar, hc]

/-- A reference by name is the letter that it stands for. -/
theorem letters_reference {name : Text} (h : Text.IsNameOf name c) (t : Text) :
    letters last ('&' :: (name ++ ';' :: t)) = (letters last t).map (letterTokens [c] ++ ·) := by
  obtain ⟨d, r, rfl⟩ := List.exists_cons_of_ne_nil h.ne_nil
  have hd := h.letters d List.mem_cons_self
  have hname : (d :: r ++ ';' :: t).takeWhile isReferenceChar = d :: r :=
    Text.takeWhile_run (fun b hb => isReferenceChar_of_isLetter (h.letters b hb)) (by decide) t
  have hrest : (d :: r ++ ';' :: t).drop (d :: r).length = ';' :: t := List.drop_left
  -- the first letter of the name tells that this is no reference by number
  have hstep : referenceStep last (d :: r ++ ';' :: t) = .read [.text [c]] t := by
    rw [referenceStep.eq_def]
    split
    · next e => cases e
    · next e =>
      rw [List.cons_append, List.cons.injEq] at e
      rw [e.1] at hd
      exact absurd hd (by decide)
    · next e =>
      rw [List.cons_append, List.cons.injEq] at e
      rw [← e.1, ← e.2, if_pos hd, ← List.cons_append, nameStep]
      simp only [hname, hrest, Reference.ofName, h.named]
      rfl
  have h : step last '&' (d :: r ++ ';' :: t) = .read [.text [c]] t := by
    rw [step, if_neg (by decide), if_pos rfl, hstep]
  exact letters_read h

/-- Text is read letter by letter, whichever of its characters are written by names. -/
theorem letters_flatMap {f : Char → Text} (hf : ∀ c, Writes c (f c) ∧ '<' ∉ f c) (u t : Text) :
    letters last (u.flatMap f ++ t) = (letters last t).map (letterTokens u ++ ·) := by
  induction u with
  | nil =>
    rw [List.flatMap_nil, List.nil_append]
    cases letters last t <;> rfl
  | cons c u ih =>
    have hc : letters last (f c ++ (u.flatMap f ++ t)) =
        (letters last (u.flatMap f ++ t)).map (letterTokens [c] ++ ·) := by
      obtain ⟨hwrites, hlt⟩ := hf c
      -- a character is written as it is or by its name, and is read back in either case
      generalize f c = w at hwrites hlt
      cases hwrites with
      | plain hamp =>
        rw [List.mem_singleton] at hlt
        exact letters_plain (by simp [isPlain, hamp, Ne.symm hlt])
      | named hname =>
        rw [List.cons_append, List.append_assoc, List.singleton_append]
        exact letters_reference hname _
    rw [List.flatMap_cons, List.append_assoc, hc, ih]
    cases letters last t <;> rfl

/-- **Written text** is read letter by letter. -/
theorem letters_writtenText (u t : Text) :
    letters last (writtenText u ++ t) = (letters last t).map (letterTokens u ++ ·) :=
  letters_flatMap (fun c => ⟨writes_writtenChar c, not_mem_writtenChar c⟩) u t

/-! ## Tags -/

variable {name : Text} {as : List Attribute}

/-- A letter after an angle bracket begins an opening tag. -/
theorem markupStep_of_isLetter (hc : Text.isLetter c = true) :
    markupStep (c :: t) = openingStep c t := by
  have hne : c ∉ ['/', '!', '?'] := Text.not_mem_of_all hc (by decide)
  simp only [List.mem_cons, List.not_mem_nil, or_false, not_or] at hne
  rw [markupStep.eq_def]
  split
  · next e => cases e
  · next e => exact absurd (List.cons.inj e).1 hne.1
  · next e => exact absurd (List.cons.inj e).1 hne.2.1
  · next e => exact absurd (List.cons.inj e).1 hne.2.2
  · next e =>
    obtain ⟨rfl, rfl⟩ := List.cons.inj e
    rw [if_pos hc]

/-- A tag as it is written is read as one step. -/
theorem markupStep_written (hname : IsName name) (has : ∀ a ∈ as, IsKey a.1) (closed : Bool)
    (t : Text) :
    markupStep (name ++ (as.flatMap writtenAttribute ++ tagEnd closed t)) =
      if !closed && isVerbatim name then verbatimStep (.opening name as closed) name t
      else .read [.opening name as closed] t := by
  obtain ⟨c, r, rfl, hc⟩ := hname.letter
  rw [List.cons_append, markupStep_of_isLetter hc, openingStep, Tag.opening_written hname has]

/-- **A written tag** that is no beginning of an element without markup. -/
theorem letters_opening (hname : IsName name) (has : ∀ a ∈ as, IsKey a.1) {closed : Bool}
    (h : closed = true ∨ isVerbatim name = false) (t : Text) :
    letters last ('<' :: (name ++ (as.flatMap writtenAttribute ++ tagEnd closed t))) =
      (letters last t).map (.opening name as closed :: ·) := by
  have hstep : markupStep (name ++ (as.flatMap writtenAttribute ++ tagEnd closed t)) =
      .read [.opening name as closed] t := by
    rw [markupStep_written hname has, if_neg]
    rcases h with rfl | h
    · exact Bool.false_ne_true
    · simp [h]
  exact letters_markup hstep

/-- **A written closing tag.** -/
theorem letters_closing (hname : IsName name) (h : Tag.closingName? name = some name) (t : Text) :
    letters last ('<' :: '/' :: (name ++ '>' :: t)) =
      (letters last t).map (.closing name :: ·) := by
  have hend : '>' ∉ name := fun hmem => by
    have := hname.whole '>' hmem
    revert this
    decide
  have hcut : Text.cut? ['>'] (name ++ '>' :: t) = some (name, t) := Text.cut?_append hend [] t
  have hstep : markupStep ('/' :: (name ++ '>' :: t)) = .read [.closing name] t := by
    rw [markupStep, closingStep, hcut]
    simp only [h]
  exact letters_markup hstep

/-! ## Elements without markup and notes -/

/-- **A written element without markup** ends at its own closing tag. -/
theorem letters_verbatim (hname : IsName name) (h : isVerbatim name = true)
    (has : ∀ a ∈ as, IsKey a.1) {content : Text}
    (hcontent : until? (afterVerbatim? name) content = none) (t : Text) :
    letters last ('<' :: (name ++ (as.flatMap writtenAttribute ++
      tagEnd false (content ++ '<' :: '/' :: (name ++ '>' :: t))))) =
      (letters last t).map
        (.opening name as false :: (letterTokens content ++ [.closing name]) ++ ·) := by
  have hfold := sameFold_of_isVerbatim h
  have huntil : until? (afterVerbatim? name) (content ++ '<' :: '/' :: (name ++ '>' :: t)) =
      some (content, t) :=
    until?_append hcontent (fun b hb => afterVerbatim?_append hfold hb)
      (afterVerbatim?_closing h t) (List.cons_ne_nil _ _)
  have hstep : markupStep (name ++ (as.flatMap writtenAttribute ++
      tagEnd false (content ++ '<' :: '/' :: (name ++ '>' :: t)))) =
      .read (.opening name as false :: (textToken content ++ [.closing name])) t := by
    rw [markupStep_written hname has, if_pos (by simp [h]), verbatimStep, huntil]
  rw [letters_markup hstep, List.flatMap_cons, List.flatMap_append, flatMap_letters_textToken]
  rfl

/-- A comment is read up to its first end. -/
theorem letters_comment {data : Text} (h : until? afterComment? data = none) (t : Text) :
    letters last ('<' :: '!' :: '-' :: '-' :: (data ++ '-' :: '-' :: '>' :: t)) =
      (letters last t).map (.note .comment data :: ·) := by
  have hend : afterComment? ('-' :: '-' :: '>' :: t) = some t := by
    rw [afterComment?, afterBlanks?_self (by decide)]
  have huntil : until? afterComment? (data ++ '-' :: '-' :: '>' :: t) = some (data, t) :=
    until?_append h (fun b hb => afterComment?_append hb) hend (List.cons_ne_nil _ _)
  have hstep : markupStep ('!' :: '-' :: '-' :: (data ++ '-' :: '-' :: '>' :: t)) =
      .read [.note .comment data] t := by
    rw [markupStep, declarationStep, huntil]
    rfl
  exact letters_markup hstep

/-- The beginning of a marked section of plain text, after its bracket. -/
def sectionBeginning : Text := ['C', 'D', 'A', 'T', 'A', '[']

/-- What a section begins with tells how it ends. -/
theorem sectionStep_written (t : Text) :
    sectionStep (sectionBeginning ++ t) =
      noteStep sectionNote (until? afterSection? (sectionBeginning ++ t)) := by
  have hname : (sectionBeginning ++ t).takeWhile isSectionChar = ['C', 'D', 'A', 'T', 'A'] := by
    have h : ∀ c ∈ ['C', 'D', 'A', 'T', 'A'], isSectionChar c = true :=
      List.all_eq_true.1 (by decide)
    have hcut : sectionBeginning ++ t = ['C', 'D', 'A', 'T', 'A'] ++ '[' :: t := rfl
    rw [hcut, Text.takeWhile_run h (by decide)]
  have hrest : (sectionBeginning ++ t).drop 5 = '[' :: t := rfl
  have hblanks : ('[' :: t).takeWhile Text.isBlank = [] :=
    List.takeWhile_cons_of_neg (by decide)
  -- the name of the section decides which end is looked for
  have hend : sectionEnd? (Text.lower ['C', 'D', 'A', 'T', 'A']) = some afterSection? := by
    have hword : String.ofList (Text.lower ['C', 'D', 'A', 'T', 'A']) = "cdata" := by decide +kernel
    rw [sectionEnd?, hword]
    rfl
  rw [sectionStep.eq_def]
  change (if Text.isLetter 'C' then _ else _) = _
  rw [if_pos (by decide)]
  simp only [hname]
  rw [show (['C', 'D', 'A', 'T', 'A'] : Text).length = 5 from rfl, hrest, hblanks, hend]
  rfl

/-- A marked section is read up to its first end. -/
theorem letters_section {data : Text} (h : until? afterSection? data = none) (t : Text) :
    letters last ('<' :: '!' :: '[' :: (sectionBeginning ++ (data ++ ']' :: ']' :: '>' :: t))) =
      (letters last t).map (.note .section data :: ·) := by
  have hend : afterSection? (']' :: ']' :: '>' :: t) = some t := by
    rw [afterSection?, afterBlanks?_self (by decide), Option.bind_some,
      afterBlanks?_self (by decide)]
  -- there is no end in the beginning either: it has no closing bracket
  have hdata : until? afterSection? (sectionBeginning ++ data) = none := by
    have hne : ∀ c ∈ sectionBeginning, c ≠ ']' := Text.forall_mem_of_all (by decide)
    revert hne
    generalize sectionBeginning = b
    intro hne
    induction b with
    | nil => exact h
    | cons c b ih =>
      obtain ⟨hc, hb⟩ := List.forall_mem_cons.1 hne
      rw [List.cons_append, until?, afterSection?_of_ne (by simpa using hc), ih hb]
      rfl
  have huntil : until? afterSection? (sectionBeginning ++ (data ++ ']' :: ']' :: '>' :: t)) =
      some (sectionBeginning ++ data, t) := by
    rw [← List.append_assoc]
    exact until?_append hdata (fun b hb => afterSection?_append hb) hend (List.cons_ne_nil _ _)
  have hnote : sectionNote (sectionBeginning ++ data) = .note .section data := by
    have hword : ((sectionBeginning ++ data).take 6).map Text.lowerAscii = "cdata[".toList := by
      have htake : (sectionBeginning ++ data).take 6 = sectionBeginning := rfl
      rw [htake]
      decide +kernel
    rw [sectionNote, hword, Text.after?_eq_some_iff.2 (List.append_nil _).symm]
    rfl
  have hstep : markupStep ('!' :: '[' :: (sectionBeginning ++ (data ++ ']' :: ']' :: '>' :: t))) =
      .read [.note .section data] t := by
    rw [markupStep, declarationStep, sectionStep_written, huntil, noteStep, hnote]
  exact letters_markup hstep

/-- An instruction is read up to its first angle bracket. -/
theorem letters_instruction {data : Text} (h : '>' ∉ data) (t : Text) :
    letters last ('<' :: '?' :: (data ++ '>' :: t)) =
      (letters last t).map (.note .instruction data :: ·) := by
  have hcut : Text.cut? ['>'] (data ++ '>' :: t) = some (data, t) := Text.cut?_append h [] t
  have hstep : markupStep ('?' :: (data ++ '>' :: t)) = .read [.note .instruction data] t := by
    rw [markupStep, hcut]
    rfl
  exact letters_markup hstep

/-- What notes are written as. -/
theorem noteHtml_cases (data : Text) :
    noteHtml .comment data = '<' :: '!' :: '-' :: '-' :: (data ++ ['-', '-', '>']) ∧
      noteHtml .section data =
        '<' :: '!' :: '[' :: (sectionBeginning ++ (data ++ [']', ']', '>'])) ∧
      noteHtml .instruction data = '<' :: '?' :: (data ++ ['>']) := by
  have hmarks : "<!--".toList = ['<', '!', '-', '-'] ∧ "-->".toList = ['-', '-', '>'] ∧
      "<![CDATA[".toList = '<' :: '!' :: '[' :: sectionBeginning ∧
      "]]>".toList = [']', ']', '>'] ∧ "<?".toList = ['<', '?'] := by decide +kernel
  obtain ⟨h₁, h₂, h₃, h₄, h₅⟩ := hmarks
  simp only [noteHtml.eq_def, h₁, h₂, h₃, h₄, h₅, List.append_assoc]
  exact ⟨rfl, rfl, rfl⟩

/-- **A written note** that is no declaration. -/
theorem letters_note {kind : NoteKind} {data : Text} (h : kind.IsWhole data)
    (hkind : kind ≠ .declaration ∧ kind ≠ .doctype) (t : Text) :
    letters last (noteHtml kind data ++ t) = (letters last t).map (.note kind data :: ·) := by
  obtain ⟨hcomment, hsection, hinstruction⟩ := noteHtml_cases data
  match kind, h, hkind with
  | .comment, h, _ =>
    simp only [hcomment, List.cons_append, List.append_assoc, List.nil_append]
    exact letters_comment h t
  | .section, h, _ =>
    simp only [hsection, List.cons_append, List.append_assoc, List.nil_append]
    exact letters_section h t
  | .instruction, h, _ =>
    simp only [hinstruction, List.cons_append, List.append_assoc, List.nil_append]
    exact letters_instruction h t
  | .declaration, _, hkind => exact absurd rfl hkind.1
  | .doctype, _, hkind => exact absurd rfl hkind.2

end Showcase.Document

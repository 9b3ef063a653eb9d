import Showcase.Proofs.Document.Piece

/-!
# Tags

Which elements a document has depends on its tags alone: texts and notes open and close nothing
(`Course.allOpened_tags`). So it can be told without knowing what becomes of its texts.

This matters where text stands on a page as it was written. References in it may be malformed, and
then reading stops in it, for the first time to go on from there, and for the second time for good
(`reads_text`). What is left is then text, tags and all. A piece *has tags* if these tags are read
up to the next `<` after it, or only the first of them because reading ends before (`HasTags`).
-/

namespace Showcase.Document

/-- The token is a tag. -/
def Token.isTag : Token → Bool
  | .opening .. => true
  | .closing _ => true
  | _ => false

/-- The tags among tokens. -/
def tags (ts : List Token) : List Token := ts.filter Token.isTag

/-- The tags among tokens in a row are those of each part. -/
theorem tags_append (ts us : List Token) : tags (ts ++ us) = tags ts ++ tags us :=
  List.filter_append ..

/-- Letters are no tags. -/
theorem tags_letterTokens (t : Text) : tags (letterTokens t) = [] := by
  refine List.filter_eq_nil_iff.2 fun x hx => ?_
  obtain ⟨c, -, rfl⟩ := List.mem_map.1 hx
  exact Bool.false_ne_true

/-- The tags among tokens stay when text is taken letter by letter. -/
theorem tags_letters (token : Token) : tags token.letters = tags [token] := by
  cases token with
  | text t =>
    cases t with
    | nil => rfl
    | cons c t => exact tags_letterTokens (c :: t)
  | half => rfl
  | note => rfl
  | opening => rfl
  | closing => rfl

theorem tags_flatMap_letters (ts : List Token) : tags (ts.flatMap Token.letters) = tags ts := by
  induction ts with
  | nil => rfl
  | cons token ts ih =>
    rw [List.flatMap_cons, tags_append, ih, tags_letters, ← tags_append, List.singleton_append]

namespace Course

/-- **Tags alone** open and close elements. -/
theorem allOpened_tags (base : List Text) (p : Course) (ts : List Token) :
    p.allOpened base (tags ts) = p.allOpened base ts := by
  induction ts generalizing p with
  | nil => rfl
  | cons token ts ih =>
    cases token with
    | text => exact ih p
    | half => exact ih p
    | note => exact ih p
    | opening => exact congrArg (p.opened base _ ++ ·) (ih _)
    | closing => exact ih _

end Course

/-! ## Texts -/

/-- What is left of a text from its first `<` on. -/
def fromTag (t : Text) : Text := t.dropWhile (· != '<')

theorem fromTag_cons_of_ne {c : Char} (hc : c ≠ '<') (t : Text) :
    fromTag (c :: t) = fromTag t := List.dropWhile_cons_of_pos (by simpa using hc)

/-- What stands before the next tag does not count. -/
theorem fromTag_append {a : Text} (ha : '<' ∉ a) (t : Text) : fromTag (a ++ t) = fromTag t :=
  List.dropWhile_append_of_pos fun c hc => by
    rw [bne_iff_ne]
    rintro rfl
    exact ha hc

theorem fromTag_eq_nil {t : Text} (ht : '<' ∉ t) : fromTag t = [] := by
  rw [← List.append_nil t, fromTag_append ht]
  rfl

theorem not_mem_takeWhile {p : Char → Bool} (hp : p '<' = false) (t : Text) :
    '<' ∉ t.takeWhile p := fun h => by
  have := List.all_eq_true.1 List.all_takeWhile '<' h
  rw [hp] at this
  cases this

/-- A run of characters that are no bracket is passed. -/
theorem fromTag_dropWhile {p : Char → Bool} (hp : p '<' = false) (t : Text) :
    fromTag (t.dropWhile p) = fromTag t := by
  conv => rhs; rw [← List.takeWhile_append_dropWhile (p := p) (l := t)]
  exact (fromTag_append (not_mem_takeWhile hp t) _).symm

theorem fromTag_drop_takeWhile {p : Char → Bool} (hp : p '<' = false) (t : Text) :
    fromTag (t.drop (t.takeWhile p).length) = fromTag t := by
  rw [← fromTag_dropWhile hp t]
  refine congrArg fromTag ((congrArg _ ?_).trans
    (@List.drop_left _ (t.takeWhile p) (t.dropWhile p)))
  exact List.takeWhile_append_dropWhile.symm

theorem fromTag_dropSemicolon (t : Text) : fromTag (Reference.dropSemicolon t) = fromTag t := by
  rw [Reference.dropSemicolon.eq_def]
  split
  · exact (fromTag_cons_of_ne (by decide) _).symm
  · rfl

/-- The step reads no tags of the text, and does not come past its first `<`. -/
def Step.IsText (t : Text) : Step → Prop
  | .read ts r => tags ts = [] ∧ fromTag r = fromTag t
  | .stop ts r => tags ts = [] ∧ fromTag r = fromTag t
  | _ => False

theorem tags_numberToken (n : Nat) : tags [numberToken n] = [] := by
  rw [numberToken]
  split <;> rfl

/-- A reference by number is text, whether it is well formed or not. -/
theorem isText_numberStep (t : Text) : (numberStep t).IsText t := by
  -- without digits, the two characters are text, or reading stops before them
  have hstop : (if ';' ∈ t then Step.stop [.text ['&', '#']] t
      else .stop [] ('&' :: '#' :: t)).IsText t := by
    split
    · exact ⟨rfl, rfl⟩
    · exact ⟨rfl, (fromTag_cons_of_ne (by decide) _).trans (fromTag_cons_of_ne (by decide) _)⟩
  rw [numberStep.eq_def]
  dsimp only
  split
  · next n c r h =>
    split
    · refine ⟨tags_numberToken n, (fromTag_dropSemicolon _).trans ?_⟩
      -- the digits are hexadecimal with either letter, or decimal
      split at h
      · split at h
        · cases h
        · obtain ⟨-, h⟩ := Prod.mk.inj (Option.some.inj h)
          rw [← h, fromTag_cons_of_ne (by decide)]
          exact fromTag_drop_takeWhile rfl _
      · split at h
        · cases h
        · obtain ⟨-, h⟩ := Prod.mk.inj (Option.some.inj h)
          rw [← h, fromTag_cons_of_ne (by decide)]
          exact fromTag_drop_takeWhile rfl _
      · split at h
        · cases h
        · obtain ⟨-, h⟩ := Prod.mk.inj (Option.some.inj h)
          rw [← h]
          exact fromTag_drop_takeWhile rfl _
    · exact hstop
  · exact hstop

/-- A reference by name is text, whether it is well formed or not. -/
theorem isText_nameStep (last : Bool) (t : Text) : (nameStep last t).IsText t := by
  rw [nameStep]
  dsimp only
  split
  · next hrest =>
    -- the whole text is a name, and no name has a tag in it
    have hwhole : t.takeWhile isReferenceChar = t :=
      (List.takeWhile_prefix _).eq_of_length_le (List.drop_eq_nil_iff.1 hrest)
    have hnot : '<' ∉ t := hwhole ▸ not_mem_takeWhile rfl t
    split
    · refine ⟨rfl, ?_⟩
      split
      · rfl
      · exact fromTag_cons_of_ne (by decide) t
    · refine ⟨rfl, (fromTag_eq_nil fun h => hnot (List.mem_of_mem_drop h)).trans ?_⟩
      exact (fromTag_eq_nil hnot).symm
  · exact ⟨rfl, (fromTag_dropSemicolon _).trans (fromTag_drop_takeWhile rfl t)⟩

/-- **A step that begins with no bracket reads text** up to the next tag. -/
theorem isText_step (last : Bool) {c : Char} (hc : c ≠ '<') (t : Text) :
    (step last c t).IsText t := by
  rw [step, if_neg hc]
  split
  · rw [referenceStep.eq_def]
    split
    · exact ⟨rfl, fromTag_cons_of_ne (by decide) _⟩
    · next t =>
      have h := isText_numberStep t
      have hcons : fromTag ('#' :: t) = fromTag t := fromTag_cons_of_ne (by decide) t
      revert h
      cases numberStep t <;> simp [Step.IsText, hcons]
    · split
      · exact isText_nameStep last _
      · exact ⟨rfl, rfl⟩
  · exact ⟨rfl, fromTag_dropWhile rfl t⟩

/-! ## Stops -/

section

variable {c : Char} {t r : Text} {ts : List Token}

/-- At the first stop the reader goes on from there. -/
theorem letters_stop (h : step false c t = .stop ts r) :
    letters false (c :: t) = (letters true r).map (ts.flatMap Token.letters ++ ·) := by
  rw [letters, tokensFrom]
  split
  · next h' => rw [h] at h'; cases h'
  · next ts' r' h' =>
    rw [h, Step.stop.injEq] at h'
    obtain ⟨rfl, rfl⟩ := h'
    rw [dif_neg Bool.false_ne_true, letters]
    cases tokensFrom true r with
    | error e => rfl
    | ok us => exact congrArg Except.ok List.flatMap_append
  · next h' => rw [h] at h'; cases h'
  · next h' => rw [h] at h'; cases h'

/-- At the second stop the rest is text. -/
theorem letters_stop_last (h : step true c t = .stop ts r) :
    letters true (c :: t) = .ok (ts.flatMap Token.letters ++ letterTokens r) := by
  rw [letters, tokensFrom]
  split
  · next h' => rw [h] at h'; cases h'
  · next ts' r' h' =>
    rw [h, Step.stop.injEq] at h'
    obtain ⟨rfl, rfl⟩ := h'
    rw [dif_pos rfl]
    exact congrArg Except.ok (List.flatMap_append.trans
      (congrArg _ (flatMap_letters_textToken r)))
  · next h' => rw [h] at h'; cases h'
  · next h' => rw [h] at h'; cases h'

end

/-! ## Reading tags -/

/-- Reading comes from one text to another and reads the tags in between, or it ends before, with
the first of the tags read. -/
def Reads (last : Bool) (t : Text) (ms : List Token) (r : Text) : Prop :=
  (∃ last' ts, letters last t = (letters last' r).map (ts ++ ·) ∧ tags ts = ms) ∨
    ∃ ts, letters last t = .ok ts ∧ tags ts <+: ms

namespace Reads

variable {last : Bool} {t r u : Text} {ms ns : List Token}

theorem refl (last : Bool) (t : Text) : Reads last t [] t := by
  refine Or.inl ⟨last, [], ?_, rfl⟩
  cases letters last t <;> rfl

/-- Reading that begins with some tokens. -/
theorem after {ts : List Token} {last' : Bool}
    (e : letters last t = (letters last' r).map (ts ++ ·)) (h : Reads last' r ns u) :
    Reads last t (tags ts ++ ns) u := by
  rcases h with ⟨last'', us, e', rfl⟩ | ⟨us, e', hus⟩
  · refine Or.inl ⟨last'', ts ++ us, ?_, tags_append ts us⟩
    rw [e, e']
    cases letters last'' u with
    | error => rfl
    | ok vs => exact congrArg Except.ok (List.append_assoc ..).symm
  · refine Or.inr ⟨ts ++ us, ?_, ?_⟩
    · rw [e, e']
      rfl
    · rw [tags_append, List.prefix_append_right_inj]
      exact hus

/-- One reading after the other. -/
theorem trans (h : Reads last t ms r) (h' : ∀ last, Reads last r ns u) :
    Reads last t (ms ++ ns) u := by
  rcases h with ⟨last', ts, e, rfl⟩ | ⟨ts, e, hts⟩
  · exact after e (h' last')
  · exact Or.inr ⟨ts, e, hts.trans (List.prefix_append ms ns)⟩

end Reads

/-- **Text** is read up to the next tag without reading any, or reading ends in it. -/
theorem reads_text (last : Bool) (t : Text) : Reads last t [] (fromTag t) := by
  match t with
  | [] => exact Reads.refl last []
  | c :: t =>
    by_cases hc : c = '<'
    · have h : fromTag (c :: t) = c :: t := List.dropWhile_cons_of_neg (by simp [hc])
      rw [h]
      exact Reads.refl last _
    -- a step at a character that is no bracket; it leaves the next tag where it is
    · have h := isText_step last hc t
      have hlength := length_rest_step_le last c t
      rw [fromTag_cons_of_ne hc]
      cases hs : step last c t with
      | read ts r =>
        rw [hs] at h
        have hread := Reads.after (letters_read hs) (reads_text last r)
        rwa [tags_flatMap_letters, h.1, h.2] at hread
      | stop ts r =>
        rw [hs] at h
        cases last with
        | true =>
          -- at the end of the document, reading may stop for good
          refine Or.inr ⟨_, letters_stop_last hs, ?_⟩
          rw [tags_append, tags_flatMap_letters, h.1, tags_letterTokens]
          exact List.prefix_refl []
        | false =>
          have hread := Reads.after (letters_stop hs) (reads_text true r)
          rwa [tags_flatMap_letters, h.1, h.2] at hread
      | unfinished =>
        rw [hs] at h
        exact h.elim
      | rejected =>
        rw [hs] at h
        exact h.elim
termination_by (if last then 0 else 1, t.length)
decreasing_by
  · rw [hs] at hlength
    exact Prod.Lex.right _ (Nat.lt_succ_of_le hlength)
  · exact Prod.Lex.left _ _ (by simp)

/-! ## Pieces -/

/-- The piece has the tags, whatever text stands before and after it. -/
def HasTags (html : Text) (ms : List Token) : Prop :=
  ∀ last t, Reads last (fromTag (html ++ t)) ms (fromTag t)

namespace HasTags

variable {a b : Text} {ms ns ts : List Token}

/-- Text has no tags, be its references malformed or not. -/
theorem text (h : '<' ∉ a) : HasTags a [] := fun last t => by
  rw [fromTag_append h]
  exact Reads.refl last _

/-- The tags of texts in a row, when each is read to its end. -/
theorem append (ha : HasTags a ms) (hb : HasTags b ns) : HasTags (a ++ b) (ms ++ ns) :=
  fun last t => by
    rw [List.append_assoc]
    exact (ha last (b ++ t)).trans fun last => hb last t

/-- Markup that is read whatever follows it. -/
theorem of_isRead (h : IsRead ('<' :: a) ts) : HasTags ('<' :: a) (tags ts) := fun last t => by
  have hstart : fromTag ('<' :: a ++ t) = '<' :: a ++ t := rfl
  rw [hstart, ← List.append_nil (tags ts)]
  exact Reads.after (h last t) (reads_text last t)

/-- **A document** is read up to some place with just these tags. -/
theorem ofText_eq (h : HasTags ('<' :: a) ms) :
    ∃ ts, ofText ('<' :: a) = .ok (ofTokens ts) ∧ tags ts <+: ms := by
  have hstart : fromTag ('<' :: a ++ []) = '<' :: a := by
    rw [List.append_nil]
    rfl
  have hreads := h false []
  rw [hstart] at hreads
  rw [Document.ofText_eq]
  rcases hreads with ⟨last', ts, e, rfl⟩ | ⟨ts, e, hts⟩
  · refine ⟨ts, ?_, List.prefix_refl _⟩
    rw [e, fromTag, List.dropWhile_nil, letters_nil]
    exact congrArg (Except.ok ∘ ofTokens) (List.append_nil ts)
  · exact ⟨ts, by rw [e]; rfl, hts⟩

end HasTags

end Showcase.Document

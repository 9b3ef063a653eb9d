import Showcase.Proofs.Document.Course
import Showcase.Proofs.Document.Ordinary

/-!
# Pieces of documents

A page is put together from pieces that are written one by one: texts, tags, and what stands between
them. A piece that is read as the same tokens whatever follows it (`IsRead`) can be read on its own,
and pieces in a row are read one after the other (`IsRead.append`).

What a piece opens and closes is told by the course of its tokens. If that keeps elements open at
every place (`Course.Keeps`), then all that the piece opens stands in them
(`Course.exists_ancestors`).
-/

namespace Showcase.Document

/-- The text is read as the tokens, whatever follows it. -/
def IsRead (html : Text) (ts : List Token) : Prop :=
  ∀ last t, letters last (html ++ t) = (letters last t).map (ts ++ ·)

/-- The text can name an element in its tags, in any letter case. -/
structure IsTagName (name : Text) : Prop where
  letter : ∃ c t, name = c :: t ∧ Text.isLetter c = true
  whole : ∀ c ∈ name, Tag.endsName c = false
  closing : Tag.closingName? name = some (Text.lower name)

theorem isTagName_of_isOrdinary {name : Text} (h : isOrdinary name = true) : IsTagName name := by
  have hname := isName_of_isOrdinary h
  exact ⟨hname.letter, hname.whole, hname.lower.symm ▸ (of_isOrdinary h).1⟩

/-- Names of letters, digits and hyphens are names of elements. -/
theorem isTagName_of_forall {c : Char} {t : Text} (hc : Text.isLetter c = true)
    (ht : ∀ d ∈ c :: t, (Text.isLetter d || Text.isDigit d || d == '-') = true) :
    IsTagName (c :: t) := by
  have hwhole : ∀ d ∈ c :: t, Tag.isClosingChar d = true := fun d hd => by
    have := ht d hd
    simp only [Bool.or_eq_true] at this
    rcases this with (h | h) | h <;> simp [Tag.isClosingChar, h]
  refine ⟨⟨c, t, rfl, hc⟩, fun d hd => @endsName_eq_false Tag.isClosingChar d (hwhole d hd)
    (by decide), ?_⟩
  have hblank : Text.isBlank c = false :=
    Text.forall_alphanumeric (P := (Text.isBlank · = false)) (by decide +kernel)
      (Bool.or_eq_true_iff.2 (Or.inl hc))
  have htrim : (c :: t).dropWhile Text.isBlank = c :: t :=
    List.dropWhile_cons_of_neg (by simp [hblank])
  have htake : (c :: t).takeWhile Tag.isClosingChar = c :: t := by
    rw [← List.append_nil (c :: t), List.takeWhile_append_of_pos hwhole, List.takeWhile_nil]
  rw [Tag.closingName?]
  simp only [htrim, htake, List.drop_length]
  rw [if_pos]
  simp [hc, Text.isBlankText]

namespace IsRead

variable {a b : Text} {ts us : List Token}

theorem nil : IsRead [] [] := fun last t => by
  rw [List.nil_append]
  cases letters last t <;> rfl

theorem append (ha : IsRead a ts) (hb : IsRead b us) : IsRead (a ++ b) (ts ++ us) := by
  intro last t
  rw [List.append_assoc, ha, hb]
  cases letters last t with
  | error e => rfl
  | ok vs => exact congrArg Except.ok (List.append_assoc ..).symm

/-- Text without the beginnings of markup and references. -/
theorem plain {t : Text} (h : t.all isPlain = true) : IsRead t (letterTokens t) := by
  intro last u
  induction t with
  | nil => exact nil last u
  | cons c t ih =>
    rw [List.all_cons, Bool.and_eq_true] at h
    rw [List.cons_append, letters_plain h.1, ih h.2]
    cases letters last u <;> rfl

/-- Text as pages write it. -/
theorem escape (t : Text) : IsRead (Text.escape t) (letterTokens t) := fun _ u => by
  rw [Text.escape, escapeChar_eq]
  exact letters_flatMap (fun c => ⟨writes_quotedChar c, lt_not_mem_quotedChar c⟩) t u

/-- A tag that is read whatever follows it. -/
theorem of_opening {c : Char} {u name : Text} {as : List Attribute} {closed : Bool}
    (hc : Text.isLetter c = true) (h : ∀ t, Tag.opening c (u ++ t) = .tag name as closed t)
    (hname : closed = true ∨ isVerbatim name = false) :
    IsRead ('<' :: c :: u) [.opening name as closed] := by
  intro last t
  have hstep : markupStep (c :: (u ++ t)) = .read [.opening name as closed] t := by
    rw [markupStep_of_isLetter hc, openingStep, h]
    refine if_neg ?_
    rcases hname with rfl | hname
    · exact Bool.false_ne_true
    · simp [hname]
  exact letters_markup hstep

/-- An opening tag, with its name in any letter case. -/
theorem opening {name : Text} (hname : IsTagName name) {as : List Quoted}
    (has : ∀ q ∈ as, q.IsClosed) (spaced closed : Bool)
    (h : closed = true ∨ isVerbatim (Text.lower name) = false) :
    IsRead ('<' :: (name ++ (as.flatMap Quoted.text ++ spacedEnd spaced closed [])))
      [.opening (Text.lower name) (as.map Quoted.asRead) closed] := by
  obtain ⟨c, u, rfl, hc⟩ := hname.letter
  rw [List.cons_append]
  refine of_opening hc (fun t => ?_) h
  have hend : spacedEnd spaced closed [] ++ t = spacedEnd spaced closed t := by
    cases spaced <;> cases closed <;> rfl
  rw [List.append_assoc, List.append_assoc, hend]
  exact Tag.opening_quoted (fun d hd => hname.whole d (List.mem_cons_of_mem c hd)) has spaced
    closed t

/-- An opening tag with one attribute, which has no value. -/
theorem openingBare {name : Text} (hname : IsTagName name) {key : Text} (hkey : key ≠ [])
    (hchars : ∀ d ∈ key, Tag.isAttributeChar d = true) (h : isVerbatim (Text.lower name) = false) :
    IsRead ('<' :: (name ++ ' ' :: (key ++ ['>'])))
      [.opening (Text.lower name) [(Text.lower key, [])] false] := by
  obtain ⟨c, u, rfl, hc⟩ := hname.letter
  obtain ⟨k, r, rfl⟩ := List.exists_cons_of_ne_nil hkey
  rw [List.cons_append]
  refine of_opening hc (fun t => ?_) (Or.inr h)
  have e : u ++ ' ' :: (k :: r ++ ['>']) ++ t = u ++ ' ' :: k :: (r ++ '>' :: t) := by simp
  rw [e]
  exact Tag.opening_bare (fun d hd => hname.whole d (List.mem_cons_of_mem c hd)) hchars t

/-- A closing tag, with its name in any letter case. -/
theorem closing {name : Text} (hname : IsTagName name) :
    IsRead ('<' :: '/' :: (name ++ ['>'])) [.closing (Text.lower name)] := by
  intro last t
  have hend : '>' ∉ name := fun hmem => by
    have := hname.whole '>' hmem
    revert this
    decide
  have hcut : Text.cut? ['>'] (name ++ '>' :: t) = some (name, t) := Text.cut?_append hend [] t
  have hstep : markupStep ('/' :: (name ++ '>' :: t)) = .read [.closing (Text.lower name)] t := by
    rw [markupStep, closingStep, hcut]
    simp only [hname.closing]
  have e : '<' :: '/' :: (name ++ ['>']) ++ t = '<' :: '/' :: (name ++ '>' :: t) := by simp
  rw [e]
  exact letters_markup hstep

/-- An element with a piece in it. -/
theorem element {name : Text} (hname : isOrdinary name = true) {as : List Quoted}
    (has : ∀ q ∈ as, q.IsClosed) (ha : IsRead a ts) :
    IsRead ('<' :: (name ++ (as.flatMap Quoted.text ++
        '>' :: (a ++ '<' :: '/' :: (name ++ ['>'])))))
      (.opening name (as.map Quoted.asRead) false :: (ts ++ [.closing name])) := by
  have htag := isTagName_of_isOrdinary hname
  have hlower : Text.lower name = name := (isName_of_isOrdinary hname).lower
  have hverbatim : isVerbatim (Text.lower name) = false := hlower.symm ▸ (of_isOrdinary hname).2.2
  have h := ((opening htag has false false (Or.inr hverbatim)).append ha).append (closing htag)
  rw [hlower] at h
  simpa [spacedEnd, tagEnd] using h

/-- A document that is a piece. -/
theorem ofText_eq (h : IsRead a ts) : ofText a = .ok (ofTokens ts) := by
  have hletters := h false []
  rw [List.append_nil, letters_nil] at hletters
  rw [Document.ofText_eq, hletters]
  exact congrArg (Except.ok ∘ ofTokens) (List.append_nil ts)

/-- A document that begins with a piece. -/
theorem exists_tokens (h : IsRead a ts) {ns : List Node} (hns : ofText (a ++ b) = .ok ns) :
    ∃ vs, ns = ofTokens (ts ++ vs) := by
  rw [Document.ofText_eq, h] at hns
  cases hb : letters false b with
  | error e =>
    rw [hb] at hns
    cases hns
  | ok vs =>
    rw [hb] at hns
    exact ⟨vs, (Except.ok.inj hns).symm⟩

end IsRead

/-! ## What a piece keeps open -/

namespace Course

/-- At every place in the tokens the outer elements are open. -/
def Keeps (outer : List Text) : Course → List Token → Prop
  | p, [] => outer <:+ p.stack
  | p, t :: ts => outer <:+ p.stack ∧ Keeps outer (p.read t) ts

instance decidableKeeps (outer : List Text) :
    ∀ (p : Course) (ts : List Token), Decidable (p.Keeps outer ts)
  | p, [] => inferInstanceAs (Decidable (outer <:+ p.stack))
  | p, t :: ts =>
    have := decidableKeeps outer (p.read t) ts
    inferInstanceAs (Decidable (outer <:+ p.stack ∧ Keeps outer (p.read t) ts))

/-- What is opened where outer elements are kept open stands in them. -/
theorem exists_ancestors {base outer : List Text} {p : Course} {ts : List Token}
    (h : p.Keeps outer ts) {x : Opened} (hx : x ∈ p.allOpened base ts) :
    ∃ inner, x.ancestors = inner ++ outer ++ base := by
  induction ts generalizing p with
  | nil => exact absurd hx List.not_mem_nil
  | cons t ts ih =>
    obtain ⟨⟨inner, hinner⟩, hts⟩ := h
    rcases List.mem_append.1 hx with hx | hx
    · cases t with
      | opening name attributes closed =>
        obtain rfl := List.mem_singleton.1 hx
        exact ⟨inner, by rw [hinner]⟩
      | text => exact absurd hx List.not_mem_nil
      | half => exact absurd hx List.not_mem_nil
      | note => exact absurd hx List.not_mem_nil
      | closing => exact absurd hx List.not_mem_nil
    · exact ih hts hx

end Course

end Showcase.Document

import Showcase.Proofs.Document.Value
import Showcase.Proofs.Text.Basic
import Showcase.Proofs.Text.Case

/-!
# Written tags

The names that elements and attributes have in a document (`IsName`, `IsKey`) are in lower case and
have no character that would end them, and every name in a tag that was read is of this kind.

A tag whose values stand in quotes is read up to its end: its names in lower case, its values with
their references replaced (`opening_quoted`). So a tag that is written with the names of a document
is read with the same names and values (`opening_written`).
-/

namespace Showcase.Document

/-- The text is a name of an element: it begins with a letter, is in lower case, and has nothing in
it that ends a name. -/
structure IsName (name : Text) : Prop where
  letter : ∃ c t, name = c :: t ∧ Text.isLetter c = true
  whole : ∀ c ∈ name, Tag.endsName c = false
  lower : Text.lower name = name

/-- The text is a name of an attribute. Only its first character may be an equals sign. -/
structure IsKey (key : Text) : Prop where
  shape : ∃ c t, key = c :: t ∧ (Tag.isAttributeChar c || c == '=') = true ∧
    ∀ d ∈ t, Tag.isAttributeChar d = true
  lower : Text.lower key = key

/-- Whether a text in lower case is the name of an attribute can be computed. -/
theorem isKey_of_all {key : Text}
    (h : (key ≠ [] ∧ key.all Tag.isAttributeChar = true) ∧ Text.lower key = key) : IsKey key := by
  obtain ⟨⟨hne, hall⟩, hlower⟩ := h
  cases key with
  | nil => exact absurd rfl hne
  | cons c t =>
    obtain ⟨hc, ht⟩ := List.forall_mem_cons.1 (List.all_eq_true.1 hall)
    exact ⟨⟨c, t, rfl, by rw [hc, Bool.true_or], ht⟩, hlower⟩

/-! ## Names that are read -/

/-- No character of a class ends a name if none of the characters that do so is in the class. -/
theorem endsName_eq_false {cls : Char → Bool} {c : Char} (hc : cls c = true)
    (h : ['\t', '\n', '\r', '\x0c', ' ', '/', '>', '\x00'].all (!cls ·) = true) :
    Tag.endsName c = false := by
  cases hends : Tag.endsName c with
  | false => rfl
  | true =>
    have hmem : c ∈ ['\t', '\n', '\r', '\x0c', ' ', '/', '>', '\x00'] := by
      simpa [Tag.endsName, or_assoc] using hends
    exact absurd hmem (Text.not_mem_of_all hc h)

theorem isAttributeChar_of_isLowered {c : Char} (hc : Text.isLowered c = true) :
    Tag.isAttributeChar c = true := by
  have hblank : Text.isBlank c = false := by
    simp only [Text.isLowered, Bool.or_eq_true, Bool.and_eq_true, decide_eq_true_eq,
      Bool.not_eq_true'] at hc
    rcases hc with ⟨h₁, h₂⟩ | ⟨-, h⟩
    · have h₁ : 97 ≤ c.toNat := h₁
      have h₂ : c.toNat ≤ 122 := h₂
      simp only [Text.isBlank, Bool.or_eq_false_iff, Bool.and_eq_false_iff, beq_eq_false_iff_ne,
        decide_eq_false_iff_not]
      omega
    · exact h
  have hne : c ∉ ['/', '=', '>'] := Text.not_mem_of_all hc (by decide)
  simp only [List.mem_cons, List.not_mem_nil, or_false, not_or] at hne
  simp [Tag.isAttributeChar, hblank, hne.1, hne.2.1, hne.2.2]

/-- What is read as the name of an element, in lower case. -/
theorem isName_lower {c : Char} {t : Text} (hc : Text.isLetter c = true)
    (ht : ∀ d ∈ t, Tag.endsName d = false) : IsName (Text.lower (c :: t)) := by
  refine ⟨?_, fun d hd => ?_, Text.lower_lower _⟩
  · obtain ⟨d, hd, e⟩ := Text.exists_lower_cons hc t
    exact ⟨d, _, e, hd⟩
  · rcases Text.mem_lower hd with hd | hd
    · rcases List.mem_cons.1 hd with rfl | hd
      · exact endsName_eq_false hc (by decide)
      · exact ht d hd
    · exact endsName_eq_false hd (by decide)

/-- What is read as the name of an attribute, in lower case. -/
theorem isKey_lower {c : Char} {t : Text} (hc : (Tag.isAttributeChar c || c == '=') = true)
    (ht : ∀ d ∈ t, Tag.isAttributeChar d = true) : IsKey (Text.lower (c :: t)) := by
  have htail : ∀ d ∈ Text.lower t, Tag.isAttributeChar d = true := fun d hd =>
    (Text.mem_lower hd).elim (ht d) isAttributeChar_of_isLowered
  refine ⟨?_, Text.lower_lower _⟩
  rw [Text.lower, List.flatMap_cons, ← Text.lower]
  rcases Text.lowerChar_cases c with h | h
  · rw [h]
    exact ⟨c, _, rfl, hc, htail⟩
  · obtain ⟨d, ds, e⟩ := List.exists_cons_of_ne_nil (Text.lowerChar_ne_nil c)
    rw [e] at h ⊢
    obtain ⟨hd, hds⟩ := List.forall_mem_cons.1 h
    refine ⟨d, _, rfl, by rw [isAttributeChar_of_isLowered hd.2]; rfl, ?_⟩
    exact List.forall_mem_append.2 ⟨fun e he => isAttributeChar_of_isLowered (hds e he).2, htail⟩

namespace Tag

/-- An attribute that is read has a key that can be written. -/
theorem isKey_of_attribute? {before last : Char} {t r : Text} {a : Attribute}
    (h : attribute? before t = some (a, last, r)) : IsKey a.1 := by
  cases t with
  | nil => cases h
  | cons c t =>
    have htail : ∀ d ∈ t.takeWhile isAttributeChar, isAttributeChar d = true := fun d hd =>
      List.all_eq_true.1 (List.all_takeWhile ..) d hd
    rw [attribute?] at h
    split at h
    · next hc =>
      have hkey := isKey_lower (Bool.and_eq_true_iff.1 hc).2 htail
      dsimp only at h
      split at h
      · cases h
        exact hkey
      · cases h
        exact hkey
    · cases h

/-- So has each of several. -/
theorem isKey_of_mem_attributes (before : Char) (t : Text) :
    ∀ a ∈ (attributes before t).1, IsKey a.1 := by
  fun_induction attributes before t with
  | case1 before t a last r h gap rest ih =>
    exact List.forall_mem_cons.2 ⟨isKey_of_attribute? h, ih⟩
  | case2 => exact fun a ha => absurd ha List.not_mem_nil

/-- **Every tag that is read** has a name of an element and names of attributes. -/
theorem isName_of_opening {c : Char} (hc : Text.isLetter c = true) {t r name : Text}
    {as : List Attribute} {closed : Bool} (h : opening c t = .tag name as closed r) :
    IsName name ∧ ∀ a ∈ as, IsKey a.1 := by
  have htail : ∀ d ∈ t.takeWhile (!endsName ·), endsName d = false := fun d hd =>
    Bool.not_inj (List.all_eq_true.1 (List.all_takeWhile ..) d hd)
  have hname := isName_lower hc htail
  have hkeys := isKey_of_mem_attributes
  rw [opening] at h
  split at h
  · cases h
    exact ⟨hname, hkeys _ _⟩
  · cases h
    exact ⟨hname, hkeys _ _⟩
  · cases h
  · split at h <;> cases h

end Tag

/-! ## Attributes -/

/-- An attribute as it is written, with the space before it. -/
def writtenAttribute (a : Attribute) : Text :=
  ' ' :: (a.1 ++ '=' :: quotedValue (writtenText a.2))

/-- The attributes of an element in the order and with the values with which they are written. -/
def restated (element : Text) (attributes : List Attribute) : List Attribute :=
  (attributes.mergeSort fun a b => !decide (b.1 < a.1)).map fun a =>
    (a.1, writtenValue element attributes a)

/-- Attributes are written one after the other, in the order of `restated`. -/
theorem writtenAttributes_eq (element : Text) (attributes : List Attribute) :
    writtenAttributes element attributes =
      (restated element attributes).flatMap writtenAttribute := by
  rw [restated, List.flatMap_map]
  rfl

/-- Restating attributes only changes their order and their values. -/
theorem keys_restated (element : Text) (attributes : List Attribute) :
    ((restated element attributes).map (·.1)).Perm (attributes.map (·.1)) := by
  rw [restated, List.map_map]
  exact (List.mergeSort_perm attributes _).map _

/-- Attributes that stand in order and have plain values are written as they are. -/
theorem restated_eq_self {element : Text} {attributes : List Attribute}
    (hsorted : (attributes.map (·.1)).Pairwise fun k l => ¬ l < k)
    (hvalues : ∀ a ∈ attributes, writtenValue element attributes a = a.2) :
    restated element attributes = attributes := by
  have hsort : attributes.mergeSort (fun a b => !decide (b.1 < a.1)) = attributes := by
    refine List.mergeSort_of_pairwise ((List.pairwise_map.1 hsorted).imp fun h => ?_)
    rw [decide_eq_false h, Bool.not_false]
  rw [restated, hsort]
  conv => rhs; rw [← List.map_id attributes]
  exact List.map_congr_left fun a ha => by rw [hvalues a ha]; rfl

/-- An attribute with its value in quotes, as it stands in a tag. -/
structure Quoted where
  /-- the name -/
  key : Text
  /-- the quote at either side of the value -/
  quote : Char
  /-- what stands between the quotes -/
  body : Text

namespace Quoted

/-- The attribute in its tag, with the space before it. -/
def text (a : Quoted) : Text := ' ' :: (a.key ++ '=' :: a.quote :: (a.body ++ [a.quote]))

/-- The attribute as it is read. -/
def asRead (a : Quoted) : Attribute := (Text.lower a.key, Reference.expandAll a.body)

/-- The name is one in some letter case, and the value ends where it should. -/
structure IsClosed (a : Quoted) : Prop where
  shape : ∃ c t, a.key = c :: t ∧ (Tag.isAttributeChar c || c == '=') = true ∧
    ∀ d ∈ t, Tag.isAttributeChar d = true
  quote : Tag.isQuote a.quote = true
  body : a.quote ∉ a.body

end Quoted

/-- Written attributes stand in quotes. -/
theorem exists_quoted {as : List Attribute} (has : ∀ a ∈ as, IsKey a.1) :
    ∃ qs : List Quoted, (∀ q ∈ qs, q.IsClosed) ∧
      as.flatMap writtenAttribute = qs.flatMap Quoted.text ∧ qs.map Quoted.asRead = as := by
  induction as with
  | nil => exact ⟨[], fun q hq => absurd hq List.not_mem_nil, rfl, rfl⟩
  | cons a as ih =>
    obtain ⟨ha, has⟩ := List.forall_mem_cons.1 has
    obtain ⟨qs, hqs, htext, hmap⟩ := ih has
    obtain ⟨q, body, hq, hvalue, hbody, hread⟩ := exists_quotedValue a.2
    refine ⟨⟨a.1, q, body⟩ :: qs, List.forall_mem_cons.2 ⟨⟨ha.shape, hq, hbody⟩, hqs⟩, ?_, ?_⟩
    · rw [List.flatMap_cons, List.flatMap_cons, htext, writtenAttribute, hvalue, Quoted.text]
    · rw [List.map_cons, hmap, Quoted.asRead, ha.lower, hread]

/-- The end of an opening tag, before the text `t`; `closed` tells that the tag closes itself. -/
def tagEnd (closed : Bool) (t : Text) : Text := if closed then '/' :: '>' :: t else '>' :: t

/-- The end of an opening tag; a space may stand before it. -/
def spacedEnd (spaced closed : Bool) (t : Text) : Text :=
  if spaced then ' ' :: tagEnd closed t else tagEnd closed t

namespace Tag

/-- At the end of a tag there is no gap to pass. -/
theorem afterGap_tagEnd (before : Char) (closed : Bool) (t : Text) :
    afterGap before (tagEnd closed t) = (before, tagEnd closed t) := by
  have hblank : Text.isBlank '>' = false ∧ Text.isBlank '/' = false := by decide
  cases closed with
  | false =>
    rw [tagEnd, if_neg Bool.false_ne_true, afterGap, hblank.1]
    rfl
  | true =>
    rw [tagEnd, if_pos rfl, afterGap, hblank.2]
    rfl

theorem afterGap_spacedEnd (before : Char) (spaced closed : Bool) (t : Text) :
    ∃ c, afterGap before (spacedEnd spaced closed t) = (c, tagEnd closed t) := by
  cases spaced with
  | false => exact ⟨before, afterGap_tagEnd before closed t⟩
  | true => exact ⟨' ', afterGap_tagEnd ' ' closed t⟩

/-- At the end of a tag there is no attribute to read. -/
theorem attribute?_tagEnd (before : Char) (closed : Bool) (t : Text) :
    attribute? before (tagEnd closed t) = none := by
  have hend : (isAttributeChar '>' || '>' == '=') = false ∧
      (isAttributeChar '/' || '/' == '=') = false := by decide
  cases closed with
  | false =>
    rw [tagEnd, if_neg Bool.false_ne_true, attribute?, hend.1, Bool.and_false,
      if_neg Bool.false_ne_true]
  | true =>
    rw [tagEnd, if_pos rfl, attribute?, hend.2, Bool.and_false, if_neg Bool.false_ne_true]

theorem attributes_tagEnd (before : Char) (closed : Bool) (t : Text) :
    attributes before (tagEnd closed t) = ([], tagEnd closed t) := by
  rw [attributes]
  split
  · next h =>
    rw [attribute?_tagEnd] at h
    cases h
  · rfl

/-- Attributes are read one by one, each behind its gap. -/
theorem attributes_cons {before last : Char} {t r : Text} {a : Attribute}
    (h : attribute? before t = some (a, last, r)) :
    attributes before t = (a :: (attributes (afterGap last r).1 (afterGap last r).2).1,
      (attributes (afterGap last r).1 (afterGap last r).2).2) := by
  rw [attributes]
  split
  · next h' =>
    rw [h] at h'
    cases h'
    rfl
  · next h' =>
    rw [h] at h'
    cases h'

/-- A value in quotes is read up to the quote that closes it. -/
theorem value?_quoted {q : Char} (hq : isQuote q = true) {body : Text} (hbody : q ∉ body)
    (t : Text) : value? ('=' :: q :: (body ++ q :: t)) = some (body, q, t) := by
  have hq' : Text.isBlank q = false ∧ (q == '=') = false := by
    simp only [isQuote, Bool.or_eq_true, beq_iff_eq] at hq
    rcases hq with rfl | rfl <;> decide
  have hsign : Text.isBlank '=' = false := by decide
  have hcut : Text.cut? [q] (body ++ q :: t) = some (body, t) := Text.cut?_append hbody [] t
  simp [value?, List.dropWhile, List.takeWhile, hsign, hq'.1, hq'.2, hq, hcut]

/-- **A quoted attribute is read back**, for its quote is not in its body. -/
theorem attribute?_quoted {a : Quoted} (ha : a.IsClosed) (t : Text) :
    attribute? ' ' (a.key ++ '=' :: a.quote :: (a.body ++ a.quote :: t)) =
      some (a.asRead, a.quote, t) := by
  obtain ⟨c, k, hkey, hc, hk⟩ := ha.shape
  have hend : isAttributeChar '=' = false := by decide
  rw [Quoted.asRead, hkey, List.cons_append, attribute?, hc, Bool.and_true, if_pos (by decide)]
  simp only [Text.takeWhile_run hk hend, Text.dropWhile_run hk hend,
    value?_quoted ha.quote ha.body]

/-- A space before the name of an attribute is a gap. -/
theorem afterGap_space {c : Char} (hc : (isAttributeChar c || c == '=') = true) (before : Char)
    (t : Text) : afterGap before (' ' :: c :: t) = (' ', c :: t) := by
  have hgap : Text.isBlank c = false ∧ (c == '/') = false := by
    simp only [isAttributeChar, Bool.or_eq_true, Bool.not_eq_true', Bool.or_eq_false_iff,
      beq_iff_eq] at hc
    rcases hc with hc | rfl
    · exact ⟨hc.1.1.1, hc.1.1.2⟩
    · decide
  have hspace : Text.isBlank ' ' = true := by decide
  rw [afterGap, hspace, Bool.true_or, if_pos rfl, afterGap, hgap.1, hgap.2]
  rfl

/-- The space before a quoted attribute is a gap. -/
theorem afterGap_quoted {a : Quoted} (ha : a.IsClosed) (before : Char) (t : Text) :
    afterGap before (a.text ++ t)
      = (' ', a.key ++ '=' :: a.quote :: (a.body ++ a.quote :: t)) := by
  obtain ⟨c, k, hkey, hc, -⟩ := ha.shape
  have e : a.text ++ t = ' ' :: c :: (k ++ '=' :: a.quote :: (a.body ++ a.quote :: t)) := by
    simp [Quoted.text, hkey]
  rw [e, afterGap_space hc, hkey]
  rfl

/-- **Attributes in quotes** are read, whatever the character before them. A space may stand
before the end of the tag. -/
theorem attributes_quoted {as : List Quoted} (has : ∀ a ∈ as, a.IsClosed) (before : Char)
    (spaced closed : Bool) (t : Text) :
    attributes (afterGap before (as.flatMap Quoted.text ++ spacedEnd spaced closed t)).1
      (afterGap before (as.flatMap Quoted.text ++ spacedEnd spaced closed t)).2
        = (as.map Quoted.asRead, tagEnd closed t) := by
  -- before each attribute but the first stands the quote that ends the one before it
  induction as generalizing before with
  | nil =>
    obtain ⟨c, hc⟩ := afterGap_spacedEnd before spaced closed t
    rw [List.flatMap_nil, List.nil_append, hc, attributes_tagEnd]
    rfl
  | cons a as ih =>
    obtain ⟨ha, has⟩ := List.forall_mem_cons.1 has
    have hread := attribute?_quoted ha (as.flatMap Quoted.text ++ spacedEnd spaced closed t)
    rw [List.flatMap_cons, List.append_assoc, afterGap_quoted ha, attributes_cons hread, ih has]
    rfl

/-! ## Tags -/

/-- Whatever follows the name of an element ends it. -/
theorem endsName_quoted (as : List Quoted) (spaced closed : Bool) (t : Text) :
    ∃ d u, as.flatMap Quoted.text ++ spacedEnd spaced closed t = d :: u ∧ endsName d = true := by
  cases as with
  | nil =>
    cases spaced with
    | true => exact ⟨' ', _, rfl, rfl⟩
    | false =>
      cases closed with
      | false => exact ⟨'>', t, rfl, rfl⟩
      | true => exact ⟨'/', '>' :: t, rfl, rfl⟩
  | cons a as => exact ⟨' ', _, rfl, rfl⟩

/-- **A tag with attributes in quotes** is read with its name in lower case. -/
theorem opening_quoted {c : Char} {t : Text} (hname : ∀ d ∈ t, endsName d = false)
    {as : List Quoted} (has : ∀ a ∈ as, a.IsClosed) (spaced closed : Bool) (u : Text) :
    opening c (t ++ (as.flatMap Quoted.text ++ spacedEnd spaced closed u)) =
      .tag (Text.lower (c :: t)) (as.map Quoted.asRead) closed u := by
  have hwhole : ∀ d ∈ t, (!endsName d) = true := fun d hd => by
    rw [hname d hd]
    rfl
  obtain ⟨d, v, hnext, hd⟩ := endsName_quoted as spaced closed u
  have hends : (!endsName d) = false := by rw [hd, Bool.not_true]
  have hread := attributes_quoted has ((c :: t).getLast?.getD c) spaced closed u
  rw [hnext] at hread ⊢
  simp only [opening, Text.takeWhile_run hwhole hends, Text.dropWhile_run hwhole hends, hread]
  cases closed <;> rfl

/-- A key alone is an attribute without value. -/
theorem attribute?_bare {k : Char} {r : Text} (hkey : ∀ d ∈ k :: r, isAttributeChar d = true)
    (u : Text) : attribute? ' ' (k :: (r ++ '>' :: u)) =
      some ((Text.lower (k :: r), []), (k :: r).getLast?.getD k, '>' :: u) := by
  obtain ⟨hk, hr⟩ := List.forall_mem_cons.1 hkey
  have hend : isAttributeChar '>' = false := by decide
  have hvalue : value? ('>' :: u) = none := by
    rw [value?, List.dropWhile_cons_of_neg (by decide), List.takeWhile_cons_of_neg (by decide)]
    exact if_pos rfl
  rw [attribute?, hk, Bool.true_or, Bool.and_true, if_pos (by decide)]
  simp only [Text.takeWhile_run hr hend, Text.dropWhile_run hr hend, hvalue]

/-- A tag with one attribute that has no value. -/
theorem opening_bare {c : Char} {t : Text} (hname : ∀ d ∈ t, endsName d = false) {k : Char}
    {r : Text} (hkey : ∀ d ∈ k :: r, isAttributeChar d = true) (u : Text) :
    opening c (t ++ ' ' :: k :: (r ++ '>' :: u)) =
      .tag (Text.lower (c :: t)) [(Text.lower (k :: r), [])] false u := by
  have hwhole : ∀ d ∈ t, (!endsName d) = true := fun d hd => by
    rw [hname d hd]
    rfl
  have hspace : (!endsName ' ') = false := by decide
  have hk : (isAttributeChar k || k == '=') = true := by
    rw [hkey k (List.mem_cons_self ..), Bool.true_or]
  have hstop (before : Char) : afterGap before ('>' :: u) = (before, '>' :: u) :=
    afterGap_tagEnd before false u
  have hnone (before : Char) : attributes before ('>' :: u) = ([], '>' :: u) :=
    attributes_tagEnd before false u
  have hattributes : attributes ' ' (k :: (r ++ '>' :: u)) =
      ([(Text.lower (k :: r), [])], '>' :: u) := by
    rw [attributes_cons (attribute?_bare hkey u), hstop, hnone]
  simp only [opening, Text.takeWhile_run hwhole hspace, Text.dropWhile_run hwhole hspace,
    afterGap_space hk, hattributes]

/-- **A written tag** is read with its name and its attributes. -/
theorem opening_written {c : Char} {t : Text} (hname : IsName (c :: t)) {as : List Attribute}
    (has : ∀ a ∈ as, IsKey a.1) (closed : Bool) (u : Text) :
    opening c (t ++ (as.flatMap writtenAttribute ++ tagEnd closed u)) =
      .tag (c :: t) as closed u := by
  obtain ⟨qs, hqs, htext, hmap⟩ := exists_quoted has
  have h := opening_quoted (c := c) (fun d hd => hname.whole d (List.mem_cons_of_mem c hd)) hqs
    false closed u
  rwa [← htext, hmap, hname.lower] at h

end Tag

end Showcase.Document

import Showcase.Proofs.Text.Basic
import Showcase.Text.Escape
import Showcase.Text.Json

/-!
# Escaped text, read back

Both ways to escape a text lose nothing.

* `unescapeQuotes` reads five references, in one pass from left to right, and is an inverse of
  `escapeQuotes`. An escaped text has no character that markup needs, and where it has `&` one of
  the references begins (`IsEscaped`).
* The reader of JSON strings takes a written string off the beginning of a text and gives back what
  was written (`string?_jsonString`).

Each is proved character by character: what is written for a character is read as that character,
whatever follows it.
-/

namespace Showcase.Text

/-! ## Plain characters -/

/-- An escaped text has neither brackets nor double quotes. -/
theorem of_mem_escape {t : Text} {c : Char} (h : c ∈ escape t) : c ≠ '<' ∧ c ≠ '>' ∧ c ≠ '"' := by
  have hall : ∀ w ∈ ["&amp;", "&lt;", "&gt;", "&quot;"],
      (w.toList.all fun c => decide (c ≠ '<' ∧ c ≠ '>' ∧ c ≠ '"')) = true := by decide
  obtain ⟨d, -, hc⟩ := List.mem_flatMap.1 h
  rw [escapeChar] at hc
  split at hc
  · exact forall_mem_of_all (hall "&amp;" (by decide)) c hc
  split at hc
  · exact forall_mem_of_all (hall "&lt;" (by decide)) c hc
  split at hc
  · exact forall_mem_of_all (hall "&gt;" (by decide)) c hc
  split at hc
  · exact forall_mem_of_all (hall "&quot;" (by decide)) c hc
  · next hlt hgt hquot =>
    obtain rfl := List.mem_singleton.1 hc
    exact ⟨hlt, hgt, hquot⟩

/-! ## References -/

/-- The references that an escaped text may have in it, and what they stand for. -/
def quoteReferences : List (Text × Char) :=
  [("&amp;".toList, '&'), ("&lt;".toList, '<'), ("&gt;".toList, '>'), ("&quot;".toList, '"'),
    ("&#x27;".toList, '\'')]

/-- The character of the reference at the beginning of a text, if there is one, and what follows. -/
def quoteReference? (t : Text) : Option (Char × Text) :=
  quoteReferences.findSome? fun r => (after? r.1 t).map fun rest => (r.2, rest)

theorem length_quoteReference?_lt {t r : Text} {c : Char} (h : quoteReference? t = some (c, r)) :
    r.length < t.length := by
  obtain ⟨⟨reference, d⟩, hmem, h⟩ := List.exists_of_findSome?_eq_some h
  simp only [Option.map_eq_some_iff, Prod.mk.injEq] at h
  obtain ⟨rest, hrest, -, rfl⟩ := h
  have hpos : 0 < reference.length := by
    have : ∀ r ∈ quoteReferences, 0 < r.1.length := by decide
    exact this _ hmem
  have := congrArg List.length (after?_eq_some_iff.1 hrest)
  rw [List.length_append] at this
  omega

/-- The text with its references replaced by what they stand for, in one pass from left to right. -/
def unescapeQuotes (t : Text) : Text :=
  match _h : quoteReference? t with
  | some (c, r) => c :: unescapeQuotes r
  | none =>
    match t with
    | [] => []
    | c :: r => c :: unescapeQuotes r
termination_by t.length
decreasing_by
  · exact length_quoteReference?_lt _h
  · simp

theorem unescapeQuotes_of_reference {t r : Text} {c : Char} (h : quoteReference? t = some (c, r)) :
    unescapeQuotes t = c :: unescapeQuotes r := by
  rw [unescapeQuotes]
  split <;> simp_all

theorem unescapeQuotes_cons_of_none {c : Char} {t : Text} (h : quoteReference? (c :: t) = none) :
    unescapeQuotes (c :: t) = c :: unescapeQuotes t := by
  rw [unescapeQuotes]
  split <;> simp_all

/-- A character either is written as it is and begins no reference, or is written as one. -/
theorem escapeQuotesChar_cases (c : Char) :
    (escapeQuotesChar c, c) ∈ quoteReferences ∨
      escapeQuotesChar c = [c] ∧ c ≠ '&' ∧ c ≠ '<' ∧ c ≠ '>' ∧ c ≠ '"' ∧ c ≠ '\'' := by
  by_cases h : c ∈ ['&', '<', '>', '"', '\'']
  · left
    simp only [List.mem_cons, List.not_mem_nil, or_false] at h
    rcases h with rfl | rfl | rfl | rfl | rfl <;> decide
  · right
    simp only [List.mem_cons, List.not_mem_nil, or_false, not_or] at h
    obtain ⟨h₁, h₂, h₃, h₄, h₅⟩ := h
    simp [escapeQuotesChar, escapeChar, h₁, h₂, h₃, h₄, h₅]

/-- No reference is the beginning of another, so the first that is there is the one. -/
theorem quoteReference?_append {r : Text × Char} (h : r ∈ quoteReferences) (t : Text) :
    quoteReference? (r.1 ++ t) = some (r.2, t) := by
  simp only [quoteReferences, List.mem_cons, List.not_mem_nil, or_false] at h
  rcases h with rfl | rfl | rfl | rfl | rfl <;> rfl

theorem quoteReference?_cons_of_ne {c : Char} (h : c ≠ '&') (t : Text) :
    quoteReference? (c :: t) = none := by
  rw [quoteReference?, List.findSome?_eq_none_iff]
  intro r hr
  have hhead : ∃ s, r.1 = '&' :: s := by
    simp only [quoteReferences, List.mem_cons, List.not_mem_nil, or_false] at hr
    rcases hr with rfl | rfl | rfl | rfl | rfl <;> exact ⟨_, rfl⟩
  obtain ⟨s, hs⟩ := hhead
  rw [hs, after?, if_neg (Ne.symm h)]
  rfl

/-- **An escaped character is read back**, whatever follows it. -/
theorem unescapeQuotes_escapeQuotesChar (c : Char) (t : Text) :
    unescapeQuotes (escapeQuotesChar c ++ t) = c :: unescapeQuotes t := by
  rcases escapeQuotesChar_cases c with h | ⟨h, hne, -⟩
  · exact unescapeQuotes_of_reference (quoteReference?_append h t)
  · rw [h]
    exact unescapeQuotes_cons_of_none (quoteReference?_cons_of_ne hne t)

/-- **What is escaped is read back.** -/
theorem unescapeQuotes_escapeQuotes (t : Text) : unescapeQuotes (escapeQuotes t) = t := by
  induction t with
  | nil => rw [unescapeQuotes]; rfl
  | cons c t ih =>
    rw [escapeQuotes, List.flatMap_cons, ← escapeQuotes, unescapeQuotes_escapeQuotesChar, ih]

/-- The text has none of the characters that markup needs, and where it has `&` a reference begins.
-/
structure IsEscaped (t : Text) : Prop where
  /-- no angle brackets and no quotes -/
  plain : ∀ c ∈ t, c ≠ '<' ∧ c ≠ '>' ∧ c ≠ '"' ∧ c ≠ '\''
  /-- every ampersand begins a reference -/
  referenced : ∀ before after, t = before ++ '&' :: after →
    ∃ r ∈ quoteReferences, r.1 <+: '&' :: after

/-- Escaped texts in a row are escaped. -/
theorem IsEscaped.append {s t : Text} (hs : IsEscaped s) (ht : IsEscaped t) :
    IsEscaped (s ++ t) := by
  refine ⟨fun c hc => ?_, fun before after h => ?_⟩
  · rcases List.mem_append.1 hc with hc | hc
    · exact hs.plain c hc
    · exact ht.plain c hc
  · rcases List.append_eq_append_iff.1 h with ⟨u, rfl, hu⟩ | ⟨u, rfl, hu⟩
    · exact ht.referenced u after hu
    · cases u with
      | nil => exact ht.referenced [] after hu.symm
      | cons c u =>
        obtain ⟨rfl, rfl⟩ := List.cons.inj hu
        obtain ⟨r, hr, hprefix⟩ := hs.referenced before u rfl
        exact ⟨r, hr, hprefix.trans (List.prefix_append _ t)⟩

/-- Escaping a character gives escaped text. -/
theorem isEscaped_escapeQuotesChar (c : Char) : IsEscaped (escapeQuotesChar c) := by
  rcases escapeQuotesChar_cases c with h | ⟨h, hamp, hplain⟩
  · refine ⟨?_, fun before after e => ?_⟩
    · have hall : ∀ r ∈ quoteReferences, (r.1.all fun d =>
          decide (d ≠ '<' ∧ d ≠ '>' ∧ d ≠ '"' ∧ d ≠ '\'')) = true := by
        decide
      exact forall_mem_of_all (hall _ h)
    -- a reference has its only ampersand at the front
    · have hall : ∀ r ∈ quoteReferences, ∃ s, r.1 = '&' :: s ∧ '&' ∉ s := by
        intro r hr
        simp only [quoteReferences, List.mem_cons, List.not_mem_nil, or_false] at hr
        rcases hr with rfl | rfl | rfl | rfl | rfl <;> exact ⟨_, rfl, by decide⟩
      obtain ⟨s, hs, hno⟩ := hall _ h
      cases before with
      | nil => exact ⟨_, h, e ▸ List.prefix_rfl⟩
      | cons d before =>
        rw [show escapeQuotesChar c = '&' :: s from hs] at e
        obtain ⟨-, rfl⟩ := List.cons.inj e
        exact absurd (List.mem_append_right before (List.mem_cons_self ..)) hno
  · rw [h]
    refine ⟨by simpa using hplain, fun before after e => ?_⟩
    have : '&' ∈ [c] := e ▸ List.mem_append_right before (List.mem_cons_self ..)
    exact absurd (List.mem_singleton.1 this).symm hamp

theorem isEscaped_escapeQuotes (t : Text) : IsEscaped (escapeQuotes t) := by
  induction t with
  | nil =>
    refine ⟨fun c hc => absurd hc List.not_mem_nil, fun before after h => ?_⟩
    exact absurd (congrArg List.length h) (by simp [escapeQuotes])
  | cons c t ih =>
    rw [escapeQuotes, List.flatMap_cons, ← escapeQuotes]
    exact (isEscaped_escapeQuotesChar c).append ih

/-! ## JSON strings -/

theorem hexValue?_hexDigit (n : Nat) : hexValue? (hexDigit false (n % 16)) = some (n % 16) := by
  have h : ∀ v : Fin 16, hexValue? (hexDigit false v) = some v.val := by decide
  exact h ⟨n % 16, Nat.mod_lt n (by decide)⟩

/-- A number of four digits is read as it is written. -/
theorem codeUnit?_hex {n : Nat} (hn : n < 0x10000) (t : Text) :
    Json.codeUnit? (hex false 4 n ++ t) = some (n, t) := by
  simp only [hex, List.nil_append, List.cons_append, Json.codeUnit?, hexValue?_hexDigit,
    Option.bind_eq_bind, Option.bind_some, Option.pure_def, Option.some.injEq, Prod.mk.injEq,
    and_true]
  omega

theorem string?_quote (t : Text) : Json.string? ('"' :: t) = some ([], t) := by
  rw [Json.string?]
  rfl

/-- An escape is read as its character. -/
theorem string?_escape {t r : Text} {c : Char} (h : Json.escape? t = some (c, r)) :
    Json.string? ('\\' :: t) = (Json.string? r).map fun x => (c :: x.1, x.2) := by
  rw [Json.string?, if_neg (by decide), if_pos rfl]
  split <;> simp_all

/-- A character that needs no escape is read as it is. -/
theorem string?_cons {c : Char} (h : c ≠ '"' ∧ c ≠ '\\' ∧ ¬ c.toNat < 32) (t : Text) :
    Json.string? (c :: t) = (Json.string? t).map fun x => (c :: x.1, x.2) := by
  rw [Json.string?, if_neg h.1, if_neg h.2.1, if_neg h.2.2]

/-- A character in a string either is written as it is, or as an escape that is read back. -/
theorem jsonChar_cases (c : Char) :
    (∃ w, jsonChar c = '\\' :: w ∧ ∀ t, Json.escape? (w ++ t) = some (c, t)) ∨
      jsonChar c = [c] ∧ c ≠ '"' ∧ c ≠ '\\' ∧ ¬ c.toNat < 32 := by
  by_cases h : c ∈ ['"', '\\', '\n', '\r', '\t', '\x0c', '\x08']
  · left
    simp only [List.mem_cons, List.not_mem_nil, or_false] at h
    rcases h with rfl | rfl | rfl | rfl | rfl | rfl | rfl <;> exact ⟨_, rfl, fun t => rfl⟩
  · simp only [List.mem_cons, List.not_mem_nil, or_false, not_or] at h
    obtain ⟨h₁, h₂, h₃, h₄, h₅, h₆, h₇⟩ := h
    -- other control characters are written by their numbers, which are no halves
    by_cases hlt : c.toNat < 32
    · left
      refine ⟨'u' :: hex false 4 c.toNat, ?_, fun t => ?_⟩
      · simp only [jsonChar, h₁, h₂, h₃, h₄, h₅, h₆, h₇, hlt, if_false, if_true]
      · have hhigh : HexReference.isHigh c.toNat = false := by
          simp only [HexReference.isHigh, Bool.and_eq_false_iff, decide_eq_false_iff_not]
          omega
        have hlow : HexReference.isLow c.toNat = false := by
          simp only [HexReference.isLow, Bool.and_eq_false_iff, decide_eq_false_iff_not]
          omega
        rw [List.cons_append, Json.escape?, if_pos rfl, Json.codeUnits?,
          codeUnit?_hex (by omega)]
        simp [hhigh, hlow]
    · right
      exact ⟨by simp only [jsonChar, h₁, h₂, h₃, h₄, h₅, h₆, h₇, hlt, if_false], h₁, h₂, hlt⟩

/-- What is written for a character in a string is read as that character. -/
theorem string?_jsonChar (c : Char) (t : Text) :
    Json.string? (jsonChar c ++ t) = (Json.string? t).map fun x => (c :: x.1, x.2) := by
  rcases jsonChar_cases c with ⟨w, hw, hescape⟩ | ⟨hc, hplain⟩
  · rw [hw, List.cons_append]
    exact string?_escape (hescape t)
  · rw [hc]
    exact string?_cons hplain t

/-- **A written string is read back**, whatever follows it. -/
theorem string?_jsonString (t r : Text) :
    Json.string? (t.flatMap jsonChar ++ '"' :: r) = some (t, r) := by
  induction t with
  | nil => exact string?_quote r
  | cons c t ih =>
    rw [List.flatMap_cons, List.append_assoc, string?_jsonChar, ih]
    rfl

end Showcase.Text

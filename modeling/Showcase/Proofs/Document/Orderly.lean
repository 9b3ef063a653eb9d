import Showcase.Proofs.Document.End
import Showcase.Proofs.Document.Tag

/-!
# Orderly tokens

Every tag among the tokens of a document has names that are read as such, no note has its own end in
it, and after the opening tag of an element without markup comes its content, and then its closing
tag or the end. Tokens of this kind are `Orderly`.

Each step of reading adds tokens of this kind (`orderly_step`), and so the tokens of a whole
document are orderly (`orderly_tokensFrom`).
-/

namespace Showcase.Document

/-- Tokens that a document can have. -/
inductive Orderly : List Token → Prop
  | nil : Orderly []
  | text (t : Text) {ts : List Token} (hts : Orderly ts) : Orderly (.text t :: ts)
  | half (n : Nat) {ts : List Token} (hts : Orderly ts) : Orderly (.half n :: ts)
  | note {kind : NoteKind} {data : Text} {ts : List Token} (h : kind.IsWhole data)
    (hts : Orderly ts) : Orderly (.note kind data :: ts)
  | opening {name : Text} {as : List Attribute} {closed : Bool} {ts : List Token}
    (hname : IsName name) (has : ∀ a ∈ as, IsKey a.1)
    (h : closed = true ∨ isVerbatim name = false) (hts : Orderly ts) :
    Orderly (.opening name as closed :: ts)
  | closing (name : Text) {ts : List Token} (hts : Orderly ts) : Orderly (.closing name :: ts)
  | verbatim {name : Text} {as : List Attribute} {content : Text} {ts : List Token}
    (hname : IsName name) (has : ∀ a ∈ as, IsKey a.1) (h : isVerbatim name = true)
    (hcontent : until? (afterVerbatim? name) content = none) (hts : Orderly ts) :
    Orderly (.opening name as false :: (textToken content ++ .closing name :: ts))
  | unclosed {name : Text} {as : List Attribute} {content : Text}
    (hname : IsName name) (has : ∀ a ∈ as, IsKey a.1) (h : isVerbatim name = true)
    (hcontent : until? (afterVerbatim? name) content = none) :
    Orderly (.opening name as false :: textToken content)

/-- A text may stand before anything. -/
theorem orderly_textToken (t : Text) {ts : List Token} (hts : Orderly ts) :
    Orderly (textToken t ++ ts) := by
  rw [textToken]
  split
  · exact hts
  · exact .text t hts

/-! ## Steps -/

/-- The step adds orderly tokens to orderly ones. After the last step there are none. -/
def Step.IsOrderly : Step → Prop
  | .read ts r => ∀ us, Orderly us → (r = [] → us = []) → Orderly (ts ++ us)
  | .stop ts _ => ∀ us, Orderly us → Orderly (ts ++ us)
  | _ => True

/-- A note keeps tokens orderly, whatever it is and wherever it ends. -/
theorem orderly_noteStep {note : Text → Token} {x : Option (Text × Text)}
    (h : ∀ data r, x = some (data, r) → ∀ us, Orderly us → Orderly (note data :: us)) :
    (noteStep note x).IsOrderly := by
  cases x with
  | none => trivial
  | some x => exact fun us hus _ => h x.1 x.2 rfl us hus

/-- A comment up to the first `>` has no end in it. -/
theorem isWhole_comment {data : Text} (h : '>' ∉ data) : NoteKind.IsWhole data .comment :=
  until?_eq_none_of_not_mem (fun _ _ => mem_of_afterComment?) h

theorem toNat_lt_of_lowerAscii {c d : Char} (h : Text.lowerAscii c = d) (hd : d.toNat < 128) :
    c.toNat < 128 := by
  rw [Text.lowerAscii] at h
  split at h
  · next hc => exact Nat.lt_of_le_of_lt (show c.toNat ≤ 'Z'.toNat from hc.2) (by decide)
  · exact h ▸ hd

/-- A character that is a letter of the name of plain sections in some case. -/
theorem isSectionChar_of_lowerAscii {c d : Char} (h : Text.lowerAscii c = d)
    (hd : d ∈ ['c', 'd', 'a', 't']) : isSectionChar c = true ∧ Text.lowerChar c = [d] := by
  have hascii : ∀ e ∈ ['c', 'd', 'a', 't'], e.toNat < 128 := Text.forall_mem_of_all (by decide)
  have hc := toNat_lt_of_lowerAscii h (hascii d hd)
  have hsection := Text.forall_ascii
    (P := fun c => Text.lowerAscii c ∈ ['c', 'd', 'a', 't'] → isSectionChar c = true) (by decide) hc
  rw [h] at hsection
  exact ⟨hsection hd, by rw [Text.lowerChar, if_pos hc, h]⟩

/-- A bracket has no capital form. -/
theorem eq_of_lowerAscii_bracket {c : Char} (h : Text.lowerAscii c = '[') : c = '[' :=
  Text.forall_ascii (P := fun c => Text.lowerAscii c = '[' → c = '[') (by decide)
    (toNat_lt_of_lowerAscii h (by decide)) h

/-- The name of a section whose data begins as that of plain sections does. -/
theorem lower_takeWhile_of_plain {data rest : Text}
    (h : Text.after? "cdata[".toList ((data.take 6).map Text.lowerAscii) = some rest) (s : Text) :
    Text.lower ((data ++ s).takeWhile isSectionChar) = ['c', 'd', 'a', 't', 'a'] := by
  have hword : "cdata[".toList = ['c', 'd', 'a', 't', 'a', '['] := by decide +kernel
  rw [Text.after?_eq_some_iff, hword] at h
  simp only [List.cons_append, List.map_eq_cons_iff] at h
  obtain ⟨c₁, _, hdata, h₁, c₂, _, rfl, h₂, c₃, _, rfl, h₃, c₄, _, rfl, h₄, c₅, _, rfl, h₅,
    c₆, u, rfl, h₆, -⟩ := h
  obtain ⟨s₁, l₁⟩ := isSectionChar_of_lowerAscii h₁ (by decide)
  obtain ⟨s₂, l₂⟩ := isSectionChar_of_lowerAscii h₂ (by decide)
  obtain ⟨s₃, l₃⟩ := isSectionChar_of_lowerAscii h₃ (by decide)
  obtain ⟨s₄, l₄⟩ := isSectionChar_of_lowerAscii h₄ (by decide)
  obtain ⟨s₅, l₅⟩ := isSectionChar_of_lowerAscii h₅ (by decide)
  have s₆ : isSectionChar c₆ = false := by rw [eq_of_lowerAscii_bracket h₆]; decide
  have hsplit : data = c₁ :: c₂ :: c₃ :: c₄ :: c₅ :: c₆ :: (u ++ data.drop 6) :=
    (List.take_append_drop 6 data).symm.trans (by rw [hdata]; rfl)
  rw [hsplit]
  simp [s₁, s₂, s₃, s₄, s₅, s₆, Text.lower, l₁, l₂, l₃, l₄, l₅]

theorem orderly_sectionStep (t : Text) : (sectionStep t).IsOrderly := by
  have hword : String.ofList ['c', 'd', 'a', 't', 'a'] = "cdata" := by decide +kernel
  rw [sectionStep.eq_def]
  split
  · trivial
  · next c t =>
    split
    · dsimp only
      split
      · trivial
      · split
        · next close hclose =>
          refine orderly_noteStep fun data r h us hus => ?_
          rw [sectionNote]
          split
          · next rest hrest =>
            -- with this beginning, the end that was looked for is that of plain sections
            obtain ⟨s, hs⟩ := until?_eq_some h
            rw [hs, lower_takeWhile_of_plain hrest s, sectionEnd?, hword,
              if_pos (by decide)] at hclose
            cases hclose
            have hdata := until?_eq_none_of_eq_some isLocal_afterSection? h
            exact .note (until?_drop hdata 6) hus
          · exact .note trivial hus
        · trivial
    · trivial

theorem orderly_declarationStep (t : Text) : (declarationStep t).IsOrderly := by
  rw [declarationStep.eq_def]
  split
  · refine orderly_noteStep fun data r h us hus => .note ?_ hus
    exact until?_eq_none_of_eq_some isLocal_afterComment? h
  · exact orderly_sectionStep _
  · split
    · exact orderly_noteStep fun data r h us hus => .note trivial hus
    · refine orderly_noteStep fun data r h us hus => .note (isWhole_comment ?_) hus
      exact (Text.cut?_singleton_eq_some_iff.1 h).1

/-- A raw text reaches up to some place of what follows its start tag. -/
theorem throughLastEnd_prefix (name t : Text) : throughLastEnd name t <+: t := by
  induction t with
  | nil => exact List.prefix_refl _
  | cons c t ih =>
    rw [throughLastEnd]
    split
    · exact List.take_prefix _ _
    · exact List.nil_prefix
    · exact List.cons_prefix_cons.2 ⟨rfl, ih⟩

/-- A start tag keeps tokens orderly, and so does the raw text behind it. -/
theorem orderly_openingStep {c : Char} (hc : Text.isLetter c = true) (t : Text) :
    (openingStep c t).IsOrderly := by
  rw [openingStep]
  split
  · next name as closed r h =>
    obtain ⟨hname, has⟩ := Tag.isName_of_opening hc h
    dsimp only
    split
    · next hv =>
      rw [Bool.and_eq_true, Bool.not_eq_true'] at hv
      obtain ⟨rfl, hv⟩ := hv
      rw [verbatimStep.eq_def]
      split
      · next content u hu =>
        intro us hus _
        rw [List.cons_append, List.append_assoc]
        have hcontent := until?_eq_none_of_eq_some (isLocal_afterVerbatim? name) hu
        exact .verbatim hname has hv hcontent hus
      · next hu =>
        -- without a closing tag nothing is left after the content
        intro us _ hempty
        rw [hempty rfl, List.append_nil]
        obtain ⟨s, hs⟩ := throughLastEnd_prefix name r
        rw [← hs] at hu
        exact .unclosed hname has hv (until?_eq_none_of_append (isLocal_afterVerbatim? name) hu)
    · next hv =>
      refine fun us hus _ => .opening hname has ?_ hus
      cases closed with
      | true => exact Or.inl rfl
      | false => exact Or.inr (by simpa using hv)
  · exact fun us hus _ => .text _ hus
  · trivial

theorem orderly_closingStep (t : Text) : (closingStep t).IsOrderly := by
  rw [closingStep]
  split
  · trivial
  · next inside r h =>
    split
    · exact fun us hus _ => .closing _ hus
    · split
      · exact fun us hus _ => hus
      · exact fun us hus _ => .note (isWhole_comment (Text.cut?_singleton_eq_some_iff.1 h).1) hus

/-- What a bracket begins keeps tokens orderly. -/
theorem orderly_markupStep (t : Text) : (markupStep t).IsOrderly := by
  rw [markupStep.eq_def]
  split
  · exact fun us hus => hus
  · exact orderly_closingStep _
  · exact orderly_declarationStep _
  · exact orderly_noteStep fun data r h us hus => .note (Text.cut?_singleton_eq_some_iff.1 h).1 hus
  · split
    · next hc => exact orderly_openingStep hc _
    · exact fun us hus _ => .text _ hus

theorem orderly_numberToken (n : Nat) {ts : List Token} (hts : Orderly ts) :
    Orderly (numberToken n :: ts) := by
  rw [numberToken]
  split
  · exact .half n hts
  · exact .text _ hts

theorem orderly_numberStep (t : Text) : (numberStep t).IsOrderly := by
  rw [numberStep.eq_def]
  dsimp only
  split
  · split
    · exact fun us hus _ => orderly_numberToken _ hus
    · split
      · exact fun us hus => .text _ hus
      · exact fun us hus => hus
  · split
    · exact fun us hus => .text _ hus
    · exact fun us hus => hus

/-- A reference by name is text, so it keeps tokens orderly. -/
theorem orderly_nameStep (last : Bool) (t : Text) : (nameStep last t).IsOrderly := by
  rw [nameStep]
  dsimp only
  split
  · split
    · exact fun us hus => hus
    · exact fun us hus _ => .text _ hus
  · exact fun us hus _ => .text _ hus

theorem orderly_referenceStep (last : Bool) (t : Text) : (referenceStep last t).IsOrderly := by
  rw [referenceStep.eq_def]
  split
  · exact fun us hus => hus
  · exact orderly_numberStep _
  · split
    · exact orderly_nameStep last _
    · exact fun us hus _ => .text _ hus

/-- **A step of reading keeps tokens orderly.** -/
theorem orderly_step (last : Bool) (c : Char) (t : Text) : (step last c t).IsOrderly := by
  rw [step.eq_def]
  split
  · have h := orderly_markupStep t
    split
    · split
      · exact fun us hus _ => .text _ hus
      · exact fun us hus => hus
    · exact h
  · split
    · exact orderly_referenceStep last t
    · exact fun us hus _ => .text _ hus

/-- The result of a changed computation comes from a result of the computation. -/
theorem exists_of_map_eq_ok {α β : Type} {f : α → β} {x : Except Rejection α} {b : β}
    (h : x.map f = .ok b) : ∃ a, x = .ok a ∧ f a = b := by
  cases x with
  | error e => cases h
  | ok a => exact ⟨a, rfl, Except.ok.inj h⟩

/-- **The tokens of a document** are orderly. -/
theorem orderly_tokensFrom {last : Bool} {t : Text} {ts : List Token}
    (h : tokensFrom last t = .ok ts) : Orderly ts := by
  fun_induction tokensFrom last t generalizing ts with
  | case1 last =>
    cases h
    exact .nil
  -- after a step, the rest is orderly by induction; an empty rest is read to its end
  | case2 last c t tokens r hstep ih =>
    have horderly := orderly_step last c t
    rw [hstep] at horderly
    obtain ⟨us, hr, rfl⟩ := exists_of_map_eq_ok h
    refine horderly us (ih hr) fun hempty => ?_
    rw [hempty, tokensFrom] at hr
    cases hr
    rfl
  -- nothing more will come, so the rest is taken as text
  | case3 c t tokens r hstep =>
    have horderly := orderly_step true c t
    rw [hstep] at horderly
    cases h
    have htext := orderly_textToken r .nil
    rw [List.append_nil] at htext
    exact horderly _ htext
  -- reading starts anew as if nothing more came
  | case4 last c t tokens r hstep hlast ih =>
    have horderly := orderly_step last c t
    rw [hstep] at horderly
    obtain ⟨us, hr, rfl⟩ := exists_of_map_eq_ok h
    exact horderly us (ih hr)
  | case5 =>
    cases h
    exact .nil
  | case6 => cases h

end Showcase.Document

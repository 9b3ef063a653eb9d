import Showcase.Document.Token
import Showcase.Proofs.Text.Basic

/-!
# Ends

Notes and elements without markup go on to their first end (`until?`). What stands before it has no
end in it (`until?_eq_none_of_eq_some`), and written before another end, it goes on to that one
(`until?_append`).

The first needs that an end stays one whatever follows it, the second that what follows makes no
new end together with what stands before. Both hold of the ends of comments, of marked sections and
of elements without markup.
-/

namespace Showcase.Document

variable {close : Text → Option Text} {name a r s : Text} {c : Char}

/-! ## The first end -/

/-- What ends a piece of a document does so whatever follows. -/
def IsLocal (close : Text → Option Text) : Prop :=
  ∀ {b r : Text} (s : Text), close b = some r → close (b ++ s) = some (r ++ s)

/-- What is not found in a text is not found in the beginning of it. -/
theorem until?_eq_none_of_append (hclose : IsLocal close) (h : until? close (a ++ s) = none) :
    until? close a = none := by
  induction a with
  | nil => rfl
  | cons c a ih =>
    rw [List.cons_append, until?] at h
    split at h
    · cases h
    · next hc =>
      rw [until?]
      split
      · next r hr =>
        have := hclose s hr
        rw [List.cons_append, hc] at this
        cases this
      · rw [ih (Option.map_eq_none_iff.1 h)]
        rfl

/-- Nor is it found in the end of it. -/
theorem until?_drop (h : until? close a = none) (n : Nat) : until? close (a.drop n) = none := by
  induction n generalizing a with
  | zero => exact h
  | succ n ih =>
    cases a with
    | nil => rfl
    | cons c a =>
      rw [until?] at h
      split at h
      · cases h
      · exact ih (Option.map_eq_none_iff.1 h)

/-- What stands before the place that was found is the beginning of the text. -/
theorem until?_eq_some {t : Text} (h : until? close t = some (a, r)) : ∃ s, t = a ++ s := by
  induction t generalizing a with
  | nil => cases h
  | cons c t ih =>
    rw [until?] at h
    split at h
    · cases h
      exact ⟨c :: t, rfl⟩
    · rw [Option.map_eq_some_iff] at h
      obtain ⟨⟨b, r'⟩, hb, e⟩ := h
      cases e
      obtain ⟨s, rfl⟩ := ih hb
      exact ⟨s, rfl⟩

/-- What stands before the first end has no end in it. -/
theorem until?_eq_none_of_eq_some (hclose : IsLocal close) {t : Text}
    (h : until? close t = some (a, r)) : until? close a = none := by
  induction t generalizing a with
  | nil => cases h
  | cons c t ih =>
    rw [until?] at h
    split at h
    · cases h
      rfl
    · next hc =>
      rw [Option.map_eq_some_iff] at h
      obtain ⟨⟨b, r'⟩, hb, e⟩ := h
      cases e
      obtain ⟨s, rfl⟩ := until?_eq_some hb
      rw [until?]
      split
      · next u hu =>
        -- an end found in the shorter text would have been found in the longer one
        have := hclose s hu
        rw [List.cons_append, hc] at this
        cases this
      · rw [ih hb]
        rfl

/-- No end begins in a text that lacks a character of every end. -/
theorem until?_eq_none_of_not_mem (hc : ∀ b r, close b = some r → c ∈ b) {t : Text}
    (h : c ∉ t) : until? close t = none := by
  induction t with
  | nil => rfl
  | cons d t ih =>
    rw [until?]
    split
    · next r hr => exact absurd (hc _ r hr) h
    · rw [ih fun h' => h (List.mem_cons_of_mem d h')]
      rfl

/-- What stands before an end is found if no end begins in it and what follows makes none. -/
theorem until?_append (ha : until? close a = none)
    (hgrow : ∀ b, b ≠ [] → close (b ++ s) = (close b).map (· ++ s)) (hs : close s = some r)
    (hne : s ≠ []) : until? close (a ++ s) = some (a, r) := by
  induction a with
  | nil =>
    obtain ⟨c, t, rfl⟩ := List.exists_cons_of_ne_nil hne
    rw [List.nil_append, until?, hs]
  | cons c a ih =>
    rw [until?] at ha
    split at ha
    · cases ha
    · next hc =>
      rw [Option.map_eq_none_iff] at ha
      rw [List.cons_append, until?, ← List.cons_append, hgrow _ (List.cons_ne_nil c a), hc, ih ha]
      rfl

/-! ## Ends of several kinds -/

/-- A mark that is no white space ends the search for another one. -/
theorem afterBlanks?_append {c d : Char} (hd : Text.isBlank d = false) (hc : d ≠ c) (b : Text) :
    afterBlanks? c (b ++ d :: s) = (afterBlanks? c b).map (· ++ d :: s) := by
  rw [afterBlanks?, afterBlanks?, Text.dropWhile_append_cons hd]
  cases b.dropWhile Text.isBlank with
  | nil => exact if_neg hc
  | cons e r =>
    rw [List.cons_append]
    dsimp only
    split <;> rfl

theorem afterBlanks?_self (hc : Text.isBlank c = false) (t : Text) :
    afterBlanks? c (c :: t) = some t := by
  rw [afterBlanks?, List.dropWhile_cons_of_neg (by simp [hc])]
  exact if_pos rfl

/-- White space is passed, and nothing else. -/
theorem afterBlanks?_eq_some_iff (hc : Text.isBlank c = false) {b : Text} :
    afterBlanks? c b = some r ↔ ∃ w, (∀ d ∈ w, Text.isBlank d = true) ∧ b = w ++ c :: r := by
  constructor
  · intro h
    refine ⟨b.takeWhile Text.isBlank, fun d hd => List.all_eq_true.1 (List.all_takeWhile ..) d hd,
      ?_⟩
    rw [afterBlanks?] at h
    split at h
    · next d u hu =>
      split at h
      · next hd =>
        cases h
        rw [← hd, ← hu, List.takeWhile_append_dropWhile]
      · cases h
    · cases h
  · rintro ⟨w, hw, rfl⟩
    rw [afterBlanks?, List.dropWhile_append_of_pos hw, ← afterBlanks?, afterBlanks?_self hc]

/-- Whether a mark follows white space does not depend on what follows the mark. -/
theorem isLocal_afterBlanks? (hc : Text.isBlank c = false) : IsLocal (afterBlanks? c) := by
  intro b r s h
  rw [afterBlanks?_eq_some_iff hc] at h ⊢
  obtain ⟨w, hw, rfl⟩ := h
  exact ⟨w, hw, by rw [List.append_assoc]; rfl⟩

/-- Whether a text begins with a name does not depend on what follows the name. -/
theorem isLocal_afterFold? (p : Text) : IsLocal (Text.afterFold? p) := by
  intro b r s h
  exact Text.afterFold?_append h s

/-- A mark that is in no spelling of a name ends it. -/
theorem afterFold?_append {p : Text} {d : Char} (hd : ∀ c ∈ p, Text.sameFold c d = false)
    (b : Text) : Text.afterFold? p (b ++ d :: s) = (Text.afterFold? p b).map (· ++ d :: s) := by
  induction p generalizing b with
  | nil => rfl
  | cons c p ih =>
    obtain ⟨hc, hp⟩ := List.forall_mem_cons.1 hd
    cases b with
    | nil =>
      have h : Text.afterFold? (c :: p) (d :: s) = none := by rw [Text.afterFold?, hc]; rfl
      exact h
    | cons e b =>
      rw [List.cons_append, Text.afterFold?, Text.afterFold?]
      split
      · exact ih hp b
      · rfl

theorem length_le_of_afterFold? {p b : Text} (h : Text.afterFold? p b = some r) :
    p.length ≤ b.length := by
  obtain ⟨n, -, hn, rfl⟩ := Text.exists_of_afterFold? h
  rw [← hn, List.length_append]
  exact Nat.le_add_right ..

/-- Elements without markup end at closing tags only. -/
theorem verbatimEnd?_of_ne {b : Text} (h : ∀ t, b ≠ '<' :: '/' :: t) :
    verbatimEnd? name b = none := by
  rw [verbatimEnd?.eq_def]
  split
  · exact absurd rfl (h _)
  · rfl

/-- No closing tag of an element without markup goes on over the beginning of another tag. -/
theorem verbatimEnd?_append (hname : ∀ c ∈ name, Text.sameFold c '<' = false) {b : Text}
    (hb : b ≠ []) :
    verbatimEnd? name (b ++ '<' :: s) =
      (verbatimEnd? name b).map fun x => (x.1, x.2 ++ '<' :: s) := by
  have hblank : Text.isBlank '<' = false := by decide
  -- two characters decide whether an end tag may begin at all
  match b, hb with
  | [c], _ =>
    rw [verbatimEnd?_of_ne (b := [c]) (by simp), verbatimEnd?_of_ne (by simp)]
    rfl
  | c :: d :: b, _ =>
    by_cases h : c = '<' ∧ d = '/'
    · obtain ⟨rfl, rfl⟩ := h
      rw [List.cons_append, List.cons_append, verbatimEnd?, verbatimEnd?,
        Text.dropWhile_append_cons hblank, afterFold?_append hname]
      cases hfold : Text.afterFold? name (b.dropWhile Text.isBlank) with
      | none => rfl
      | some r =>
        have hlen := length_le_of_afterFold? hfold
        dsimp only [Option.map_some]
        rw [afterBlanks?_append hblank (by decide), Option.map_map, Option.map_map,
          List.take_append_of_le_length hlen]
        rfl
    · rw [verbatimEnd?_of_ne (by simpa using h), verbatimEnd?_of_ne (by simpa using h)]
      rfl

/-- An angle bracket that follows does not change whether the end of an element has come. -/
theorem afterVerbatim?_append (hname : ∀ c ∈ name, Text.sameFold c '<' = false) {b : Text}
    (hb : b ≠ []) :
    afterVerbatim? name (b ++ '<' :: s) = (afterVerbatim? name b).map (· ++ '<' :: s) := by
  rw [afterVerbatim?, afterVerbatim?, verbatimEnd?_append hname hb]
  cases verbatimEnd? name b with
  | none => rfl
  | some x =>
    dsimp only [Option.map_some]
    split <;> rfl

/-- What has been read as a closing tag is read as one in a longer text. -/
theorem verbatimEnd?_append_of_some {b written : Text} (h : verbatimEnd? name b = some (written, r))
    (s : Text) : verbatimEnd? name (b ++ s) = some (written, r ++ s) := by
  rw [verbatimEnd?.eq_def] at h
  split at h
  · next t =>
    dsimp only at h
    split at h
    · next u hu =>
      rw [Option.map_eq_some_iff] at h
      obtain ⟨r', hr, e⟩ := h
      cases e
      have hdrop : (t ++ s).dropWhile Text.isBlank = t.dropWhile Text.isBlank ++ s := by
        rw [List.dropWhile_append]
        refine if_neg fun hempty => ?_
        rw [List.isEmpty_iff] at hempty
        -- a name, and so an end tag, would be read from nothing
        rw [hempty] at hu
        cases name with
        | nil =>
          cases hu
          cases hr
        | cons c name => cases hu
      rw [List.cons_append, List.cons_append, verbatimEnd?, hdrop, isLocal_afterFold? name s hu]
      dsimp only
      rw [isLocal_afterBlanks? (by decide) s hr, Option.map_some,
        List.take_append_of_le_length (length_le_of_afterFold? hu)]
    · cases h
  · cases h

/-- The end of an element without markup is told by its closing tag alone. -/
theorem isLocal_afterVerbatim? (name : Text) : IsLocal (afterVerbatim? name) := by
  intro b r s h
  rw [afterVerbatim?.eq_def] at h
  split at h
  · next written r' hr =>
    split at h
    · next hwritten =>
      cases h
      rw [afterVerbatim?, verbatimEnd?_append_of_some hr]
      exact if_pos hwritten
    · cases h
  · cases h

theorem afterComment?_of_ne {b : Text} (h : ∀ t, b ≠ '-' :: '-' :: t) : afterComment? b = none := by
  rw [afterComment?.eq_def]
  split
  · exact absurd rfl (h _)
  · rfl

/-- The end of a comment that follows does not change whether one has come before. -/
theorem afterComment?_append {b : Text} (hb : b ≠ []) :
    afterComment? (b ++ '-' :: '-' :: '>' :: s) =
      (afterComment? b).map (· ++ '-' :: '-' :: '>' :: s) := by
  have hblank : Text.isBlank '-' = false := by decide
  have hne : '-' ≠ '>' := by decide
  match b, hb with
  | [c], _ =>
    rw [afterComment?_of_ne (b := [c]) (by simp)]
    by_cases h : c = '-'
    · subst h
      exact afterBlanks?_append hblank hne []
    · rw [afterComment?_of_ne (by simpa using h)]
      rfl
  | c :: d :: b, _ =>
    by_cases h : c = '-' ∧ d = '-'
    · obtain ⟨rfl, rfl⟩ := h
      exact afterBlanks?_append hblank hne b
    · rw [afterComment?_of_ne (by simpa using h), afterComment?_of_ne (by simpa using h)]
      rfl

/-- The end of a comment is told by its own characters. -/
theorem isLocal_afterComment? : IsLocal afterComment? := by
  intro b r s h
  rw [afterComment?.eq_def] at h
  split at h
  · exact isLocal_afterBlanks? (by decide) s h
  · cases h

/-- A comment ends with an angle bracket. -/
theorem mem_of_afterComment? {b : Text} (h : afterComment? b = some r) : '>' ∈ b := by
  rw [afterComment?.eq_def] at h
  split at h
  · obtain ⟨w, -, rfl⟩ := (afterBlanks?_eq_some_iff (by decide)).1 h
    simp
  · cases h

theorem afterSection?_of_ne {b : Text} (h : ∀ t, b ≠ ']' :: t) : afterSection? b = none := by
  rw [afterSection?.eq_def]
  split
  · exact absurd rfl (h _)
  · rfl

/-- The end of a section that follows does not change whether one has come before. -/
theorem afterSection?_append {b : Text} (hb : b ≠ []) :
    afterSection? (b ++ ']' :: ']' :: '>' :: s) =
      (afterSection? b).map (· ++ ']' :: ']' :: '>' :: s) := by
  have hblank : Text.isBlank ']' = false := by decide
  have hne : ']' ≠ '>' := by decide
  obtain ⟨c, b, rfl⟩ := List.exists_cons_of_ne_nil hb
  by_cases h : c = ']'
  · subst h
    rw [List.cons_append, afterSection?, afterSection?, afterBlanks?, afterBlanks?,
      Text.dropWhile_append_cons hblank]
    cases b.dropWhile Text.isBlank with
    | nil => exact afterBlanks?_append hblank hne []
    | cons e r =>
      rw [List.cons_append]
      dsimp only
      split
      · exact afterBlanks?_append hblank hne r
      · rfl
  · rw [afterSection?_of_ne (by simpa using h), afterSection?_of_ne (by simpa using h)]
    rfl

/-- The end of a section is told by its own characters. -/
theorem isLocal_afterSection? : IsLocal afterSection? := by
  intro b r s h
  rw [afterSection?.eq_def] at h
  split at h
  · obtain ⟨u, hu, hr⟩ := Option.bind_eq_some_iff.1 h
    rw [List.cons_append, afterSection?, isLocal_afterBlanks? (by decide) s hu, Option.bind_some]
    exact isLocal_afterBlanks? (by decide) s hr
  · cases h

/-- The names of elements without markup have no angle brackets in them. -/
theorem sameFold_of_isVerbatim (h : isVerbatim name = true) :
    ∀ c ∈ name, Text.sameFold c '<' = false := by
  simp only [isVerbatim, Bool.or_eq_true, beq_iff_eq] at h
  rcases h with rfl | rfl <;> exact Text.forall_mem_of_all (by decide +kernel)

theorem afterFold?_self (p t : Text) : Text.afterFold? p (p ++ t) = some t := by
  induction p with
  | nil => rfl
  | cons c p ih => rw [List.cons_append, Text.afterFold?, if_pos (Text.sameFold_refl c), ih]

/-- The closing tag as it is written ends such an element. -/
theorem afterVerbatim?_closing (h : isVerbatim name = true) (t : Text) :
    afterVerbatim? name ('<' :: '/' :: (name ++ '>' :: t)) = some t := by
  have hname : name.map Text.lowerAscii = name ∧ ∃ c r, name = c :: r ∧ Text.isBlank c = false := by
    simp only [isVerbatim, Bool.or_eq_true, beq_iff_eq] at h
    rcases h with rfl | rfl
    · exact ⟨by decide +kernel, 's', "cript".toList, by decide +kernel, by decide⟩
    · exact ⟨by decide +kernel, 's', "tyle".toList, by decide +kernel, by decide⟩
  obtain ⟨hlower, c, r, hc, hblank⟩ := hname
  have hdrop : (name ++ '>' :: t).dropWhile Text.isBlank = name ++ '>' :: t := by
    rw [hc, List.cons_append, List.dropWhile_cons_of_neg (by simp [hblank])]
  have hend : afterBlanks? '>' ('>' :: t) = some t := afterBlanks?_self (by decide) t
  rw [afterVerbatim?, verbatimEnd?, hdrop, afterFold?_self]
  dsimp only
  rw [hend, Option.map_some, List.take_left]
  exact if_pos hlower

/-- The data of a note of this kind has no end of such a note in it. -/
def NoteKind.IsWhole (data : Text) : NoteKind → Prop
  | .comment => until? afterComment? data = none
  | .section => until? afterSection? data = none
  | .instruction => '>' ∉ data
  | .declaration => True
  | .doctype => True

instance NoteKind.decidableIsWhole (data : Text) : DecidablePred (NoteKind.IsWhole data)
  | .comment => inferInstanceAs (Decidable (until? afterComment? data = none))
  | .section => inferInstanceAs (Decidable (until? afterSection? data = none))
  | .instruction => inferInstanceAs (Decidable ('>' ∉ data))
  | .declaration => isTrue trivial
  | .doctype => isTrue trivial

end Showcase.Document

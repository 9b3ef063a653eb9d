import Showcase.Text.Utf8
import Showcase.Outline.Entry
import Showcase.Proofs.Document.Piece

/-!
# Halves of surrogate pairs in outlines

A document may refer by number to half of a surrogate pair (`IsRead.number`). Where it stands in the
title of a heading, the outline has it too, and then the outline has no bytes.

Characters stand in for halves before the tree is made, and as before the tree does not depend on
how the texts are cut. So the outline of a document that is put together from pieces is that of the
tokens of its pieces (`IsRead.pointsOfText_eq`).

Main statement: `encode_pointsOfText`, by which an outline can be written if there are no halves.
-/

namespace Showcase

namespace Document

variable {a : Text} {ts : List Token}

/-- A reference by a number in hexadecimal digits. -/
theorem IsRead.number {digits : Text} (hne : digits ≠ [])
    (hdigits : ∀ c ∈ digits, (Text.hexValue? c).isSome = true) :
    IsRead ('&' :: '#' :: 'x' :: (digits ++ [';']))
      (numberToken (Text.hexNumber digits)).letters := by
  intro last t
  -- the digits run up to the semicolon, which is none
  have htake : (digits ++ ';' :: t).takeWhile (fun c => (Text.hexValue? c).isSome) = digits :=
    Text.takeWhile_run hdigits (by decide) t
  have hdrop : (digits ++ ';' :: t).drop digits.length = ';' :: t := List.drop_left
  have hnumber : numberStep ('x' :: (digits ++ ';' :: t)) =
      .read [numberToken (Text.hexNumber digits)] t := by
    have hend : (Text.hexValue? ';').isNone = true := by decide
    simp only [numberStep, htake, hdrop, if_neg hne, hend, if_true]
    rfl
  have hstep : step last '&' ('#' :: 'x' :: (digits ++ ';' :: t)) =
      .read [numberToken (Text.hexNumber digits)] t := by
    rw [step, if_neg (by decide), if_pos rfl, referenceStep, hnumber]
  have htext : '&' :: '#' :: 'x' :: (digits ++ [';']) ++ t =
      '&' :: '#' :: 'x' :: (digits ++ ';' :: t) := by simp
  rw [htext, letters_read hstep, List.flatMap_singleton]

/-! ## Tokens with stand-ins -/

theorem halves_letterTokens (t : Text) : halves (letterTokens t) = [] :=
  List.filterMap_eq_nil_iff.2 fun token htoken => by
    obtain ⟨c, -, rfl⟩ := List.mem_map.1 htoken
    rfl

/-- The halves are the same however the texts are cut. -/
theorem halves_flatMap_letters (ts : List Token) :
    halves (ts.flatMap Token.letters) = halves ts := by
  induction ts with
  | nil => rfl
  | cons token ts ih =>
    have happend (us vs : List Token) : halves (us ++ vs) = halves us ++ halves vs :=
      List.filterMap_append
    rw [List.flatMap_cons, happend, ih, ← List.singleton_append (l := ts), happend]
    congr 1
    cases token with
    | text t =>
      cases t with
      | nil => rfl
      | cons c t => exact halves_letterTokens (c :: t)
    | _ => rfl

theorem map_shown_letterTokens (standIn : Nat → Char) (t : Text) :
    (letterTokens t).map (Token.shown standIn) = letterTokens t := by
  rw [letterTokens, List.map_map]
  rfl

/-- Nor does it matter whether texts are cut before or after characters stand in for halves. -/
theorem map_shown_flatMap_letters (standIn : Nat → Char) (ts : List Token) :
    (ts.flatMap Token.letters).map (Token.shown standIn) =
      (ts.map (Token.shown standIn)).flatMap Token.letters := by
  rw [List.map_flatMap, List.flatMap_map]
  refine congrArg (List.flatMap · ts) (funext fun token => ?_)
  cases token with
  | text t =>
    cases t with
    | nil => rfl
    | cons c t => exact map_shown_letterTokens standIn (c :: t)
  | _ => rfl

end Document

namespace Outline

open Document (Token IsRead halves)

variable {spelling : Slug.Transliteration} {isDemo : Text → Bool}

/-- An outline does not depend on how the texts of its document are cut into tokens. -/
theorem tornJson_flatMap_letters (ts : List Token) :
    tornJson spelling isDemo (ts.flatMap Token.letters) = tornJson spelling isDemo ts := by
  funext standIn
  simp only [tornJson, Document.halves_flatMap_letters, Document.map_shown_flatMap_letters,
    Document.ofTokens_flatMap_letters]

/-- The outline of a document that is a piece, whatever stands in for the halves in it. -/
theorem pointsOfText_eq {a : Torn} {ts : (Nat → Char) → List Token}
    (h : ∀ standIn, IsRead (a standIn) (ts standIn)) :
    pointsOfText spelling isDemo a =
      .ok (Torn.points fun standIn => tornJson spelling isDemo (ts standIn) standIn) := by
  -- whatever stands in for the halves, the text is accepted, and read as these tokens
  have hread (standIn : Nat → Char) : ∃ us, Document.tokens (a standIn) = .ok us ∧
      us.flatMap Token.letters = ts standIn := by
    have hletters := h standIn false []
    rw [List.append_nil, Document.letters_nil, Document.letters] at hletters
    rw [Document.tokens]
    cases htokens : Document.tokensFrom false (a standIn) with
    | error r =>
      rw [htokens] at hletters
      cases hletters
    | ok us =>
      rw [htokens] at hletters
      exact ⟨us, rfl, by simpa [Except.map] using hletters⟩
  obtain ⟨_, haccepted, -⟩ := hread Torn.replacement
  rw [pointsOfText, haccepted, Except.map]
  refine congrArg (fun json : Torn => Except.ok json.points) (funext fun standIn => ?_)
  obtain ⟨us, hus, heq⟩ := hread standIn
  rw [hus, ← heq, tornJson_flatMap_letters]

/-- **An outline can be written**, if its document neither shows nor names halves of surrogate
pairs. -/
theorem encode_pointsOfText {t : Text} {ts : List Token} {ps : HexReference.Points}
    (hts : Document.tokens t = .ok ts) (hhalves : halves ts = [])
    (hps : pointsOfText spelling isDemo (fun _ => t) = .ok ps) :
    ∃ bytes, Text.encode ps = .ok bytes := by
  rw [pointsOfText_of_halves hts hhalves] at hps
  cases hes : ofText spelling isDemo t with
  | error r =>
    rw [hes] at hps
    cases hps
  | ok es =>
    rw [hes] at hps
    obtain rfl := Except.ok.inj hps
    exact ⟨_, Text.encode_points (Entry.document es)⟩

end Outline

end Showcase

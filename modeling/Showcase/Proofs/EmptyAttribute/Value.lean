import Showcase.Proofs.EmptyAttribute.Bare

/-!
# What becomes of values

An empty value in double quotes is dropped together with a `=` before it that is outside of quotes;
all other values of a tag are meant to be kept (`keptPieces`). They are kept exactly if the tag is
safe (`values_bared_eq_iff`). Dropping looks for the three characters of an empty assignment and not
for values, so there are two ways for a tag to be unsafe:

* a value in single quotes has an empty assignment in it, as in `@click='x=""'`, and loses it;
* a value in double quotes ends with `=`, and the next one follows it at once, as in `a="x=""y"`,
  and the two become one.
-/

namespace Showcase.EmptyAttribute

open Text

/-- The piece is a value. -/
def Piece.isQuoted : Piece → Bool
  | plain _ => false
  | quoted _ _ => true

/-- The values among the pieces of a tag. -/
def values (ps : List Piece) : List Piece := ps.filter Piece.isQuoted

/-- The pieces without the empty values in double quotes that stand right behind a `=` outside of
quotes, and without that `=`. -/
def keptPieces : List Piece → List Piece
  | [] => []
  | .plain '=' :: .quoted '"' [] :: ps => keptPieces ps
  | p :: ps => p :: keptPieces ps

/-- Dropping finds no assignment that has part in a value. -/
structure IsSafe (ps : List Piece) : Prop where
  /-- there is none in a value in single quotes -/
  single : ∀ v, .quoted '\'' v ∈ ps → ¬ "=\"\"".toList <:+: v
  /-- there is none across two values in double quotes -/
  double : ∀ v w, ¬ [.quoted '"' (v ++ ['=']), .quoted '"' w] <:+: ps

theorem keptPieces_cons {p : Piece} {ps : List Piece}
    (h : ∀ qs, p = .plain '=' → ps ≠ .quoted '"' [] :: qs) :
    keptPieces (p :: ps) = p :: keptPieces ps := by
  rw [keptPieces]
  exact fun qs e => h qs e

theorem isSafe_nil : IsSafe [] where
  single _ h := absurd h List.not_mem_nil
  double _ _ h := by simp at h

theorem isSafe_cons_iff {p : Piece} {ps : List Piece} :
    IsSafe (p :: ps) ↔
      (∀ v, p = .quoted '\'' v → ¬ "=\"\"".toList <:+: v) ∧ p.fuses ps = false ∧ IsSafe ps := by
  constructor
  · rintro ⟨hsingle, hdouble⟩
    refine ⟨fun v e => hsingle v (e ▸ List.mem_cons_self ..), ?_, ?_, ?_⟩
    · rw [← Bool.not_eq_true, fuses_eq_true_iff]
      rintro ⟨v, w, qs, rfl, rfl⟩
      exact hdouble v w (List.prefix_append _ qs).isInfix
    · exact fun v hv => hsingle v (List.mem_cons_of_mem p hv)
    · exact fun v w h => hdouble v w (h.trans (List.suffix_cons p ps).isInfix)
  · rintro ⟨hp, hf, hsingle, hdouble⟩
    refine ⟨fun v hv => ?_, fun v w h => ?_⟩
    · rcases List.mem_cons.1 hv with e | hv
      · exact hp v e.symm
      · exact hsingle v hv
    · rcases List.infix_cons_iff.1 h with ⟨qs, e⟩ | h
      · obtain ⟨rfl, rfl⟩ := List.cons.inj e
        exact Bool.noConfusion (hf.symm.trans (fuses_eq_true_iff.2 ⟨v, w, qs, rfl, rfl⟩))
      · exact hdouble v w h

theorem values_plain (c : Char) (ps : List Piece) : values (.plain c :: ps) = values ps := rfl

theorem values_quoted (mark : Char) (v : Text) (ps : List Piece) :
    values (.quoted mark v :: ps) = .quoted mark v :: values ps := rfl

/-- Dropping makes no new values. -/
theorem length_values_bared_le (ps : List Piece) :
    (values (baredPieces ps)).length ≤ (values (keptPieces ps)).length := by
  fun_induction baredPieces ps with
  | case1 => exact Nat.le_refl 0
  | case2 ps ih => exact ih
  | case3 p ps hne hf ih =>
    obtain ⟨v, w, qs, rfl, rfl⟩ := fuses_eq_true_iff.1 hf
    obtain ⟨w', qs', e⟩ := exists_baredPieces_double w qs
    rw [keptPieces_cons hne, values_quoted]
    rw [e] at ih ⊢
    exact Nat.le_succ_of_le ih
  | case4 p ps hne _ ih =>
    rw [keptPieces_cons hne]
    cases p with
    | plain c => exact ih
    | quoted mark v => exact Nat.succ_le_succ ih

/-- **The values of a tag are kept exactly if the tag is safe.** -/
theorem values_bared_eq_iff {ps : List Piece} (hps : ∀ p ∈ ps, p.IsSound) :
    values (baredPieces ps) = values (keptPieces ps) ↔ IsSafe ps := by
  fun_induction baredPieces ps with
  | case1 => exact iff_of_true rfl isSafe_nil
  | case2 ps ih =>
    have hqs := (List.forall_mem_cons.1 (List.forall_mem_cons.1 hps).2).2
    have hempty : (Piece.quoted '"' []).fuses ps = false := by
      rw [← Bool.not_eq_true, fuses_eq_true_iff]
      simp
    have hplain : (Piece.plain '=').fuses (.quoted '"' [] :: ps) = false := rfl
    rw [keptPieces, ih hqs, isSafe_cons_iff, isSafe_cons_iff]
    simp [hempty, hplain]
  | case3 p ps hne hf ih =>
    -- there is one value less than there should be
    refine iff_of_false (fun e => ?_) fun h => ?_
    · obtain ⟨v, w, qs, rfl, rfl⟩ := fuses_eq_true_iff.1 hf
      obtain ⟨w', qs', e'⟩ := exists_baredPieces_double w qs
      have hle := length_values_bared_le (.quoted '"' w :: qs)
      have hlen := congrArg List.length e
      rw [keptPieces_cons hne, e'] at hlen
      rw [e'] at hle
      simp only [extend, values_quoted, List.length_cons] at hle hlen
      omega
    · rw [isSafe_cons_iff, hf] at h
      exact Bool.noConfusion h.2.1
  | case4 p ps hne hf ih =>
    obtain ⟨hp, hqs⟩ := List.forall_mem_cons.1 hps
    rw [Bool.not_eq_true] at hf
    rw [keptPieces_cons hne, isSafe_cons_iff, ← ih hqs]
    cases p with
    | plain c => simp [Piece.bared, values_plain, hf]
    | quoted mark v =>
      have hquote : mark = '"' ∨ mark = '\'' := by simpa using hp.1
      rcases hquote with rfl | rfl
      · simp [Piece.bared, values_quoted, hf, bare_eq_self hp.2]
      · simp [Piece.bared, values_quoted, hf, bare_eq_self_iff]

instance : DecidablePred Piece.IsSound
  | .plain c => inferInstanceAs (Decidable (c ∉ _))
  | .quoted mark v => inferInstanceAs (Decidable (mark ∈ _ ∧ mark ∉ v))

/-- **What dropping does to values.** A search of the new text finds what is left of the tags of the
text, and the values of a tag are kept, but for empty ones behind a `=`, exactly if it is safe. -/
theorem values_of_drop (t : Text) :
    ∃ u ms, (∀ u' ms', tags.Splits t u' ms' ↔ u' = u ∧ ms' = ms) ∧
      (∀ u' ms', tags.Splits (drop t) u' ms' ↔
        u' = u ∧ ms' = ms.map fun m => (m.1.bared, m.2)) ∧
      ∀ m ∈ ms, (values m.1.bared.pieces = values (keptPieces m.1.pieces) ↔ IsSafe m.1.pieces) := by
  obtain ⟨u, ms, h⟩ := tags.exists_splits t
  exact ⟨u, ms, h.iff, (splits_drop h).iff, fun m _ => values_bared_eq_iff m.1.sound⟩

/-- A tag with code in single quotes. -/
def clickTag : Tag where
  pieces := "b @click=".toList.map .plain ++ [.quoted '\'' "x=\"\"".toList]
  sound := by decide

/-- The code loses the assignment in it. -/
theorem click_loses_assignment :
    clickTag.text = "<b @click='x=\"\"'>".toList ∧
      drop clickTag.text = "<b @click='x'>".toList ∧
      tags.Splits clickTag.text [] [(clickTag, [])] ∧
      tags.Splits (drop clickTag.text) [] [(clickTag.bared, [])] ∧
      values clickTag.bared.pieces ≠ values (keptPieces clickTag.pieces) := by
  have h : tags.Splits clickTag.text [] [(clickTag, [])] := by
    have h := Pattern.Splits.match_cons (P := tags) (a := clickTag) (t := []) trivial .nil
    rwa [List.append_nil] at h
  refine ⟨by decide, ?_, h, splits_drop h, by decide⟩
  rw [drop_of_splits h]
  decide

end Showcase.EmptyAttribute

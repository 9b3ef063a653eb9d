import Showcase.Proofs.EmptyAttribute.Tag

/-!
# What becomes of tags

Dropping goes over the tags of a text one by one, and it leaves the reading of the text as it was:
the new text splits at the same places into the texts around the tags and what became of the tags
(`search_drop`). There are two reasons.

* An empty assignment takes a scan through two quotes, so the scan is inside of the same quotes, or
  outside of all, before and after it, wherever the assignment stands: also across two neighbouring
  values (`isSome_tagEnd?_of_drops`). So no tag begins where none began before.
* What is left of a tag is a tag (`Tag.bared`, `Tag.text_bared`). Its pieces are those of the tag
  less the assignments in it, which are of three kinds: the character `=` and an empty value; an
  assignment inside of a value in single quotes; and the end of a value in double quotes with the
  beginning of the next one, which leaves one value where there were two.
-/

namespace Showcase.EmptyAttribute

open Text

/-! ## What a scan sees of dropped assignments -/

/-- A scan finds the end of a tag after assignments have been dropped if it found one before. -/
theorem isSome_tagEnd?_of_drops {t t' : Text} {q : Option Char}
    (hq : ∀ mark ∈ q, mark ∈ ['"', '\'']) (h : Drops t t') :
    (tagEnd? q t').isSome = (tagEnd? q t).isSome := by
  induction h generalizing q with
  | nil => rfl
  | keep c _ ih =>
    cases q with
    | none =>
      rw [tagEnd?, tagEnd?]
      split
      · rfl
      · split
        · rfl
        · rw [Option.isSome_map, Option.isSome_map, ih]
          intro mark hmark
          split at hmark
          · next hc => simpa [← Option.some.inj hmark] using hc
          · cases hmark
    | some k =>
      rw [tagEnd?, tagEnd?, Option.isSome_map, Option.isSome_map, ih]
      split
      · simp
      · exact hq
  | @drop t t' _ ih =>
    -- the scan passes two quotes and is where it was
    have e : (tagEnd? q ('=' :: '"' :: '"' :: t)).isSome = (tagEnd? q t).isSome := by
      cases q with
      | none => simp [tagEnd?]
      | some k =>
        have hk : k = '"' ∨ k = '\'' := by simpa using hq k rfl
        rcases hk with rfl | rfl <;> simp [tagEnd?]
    rw [e, ih hq]

/-- No tag begins in a text because of what is dropped behind it. -/
theorem vacant_of_drops {u r r' : Text} (h : tags.Vacant u r) (hr : Drops r r') :
    tags.Vacant u r' := by
  intro s hs hsu hstart
  refine h s hs hsu (starts_tags_iff.2 ?_)
  obtain ⟨c, s, rfl⟩ := List.exists_cons_of_ne_nil hs
  rw [starts_tags_iff, List.cons_append] at hstart
  by_cases hc : c = '<'
  · subst hc
    have e := isSome_tagEnd?_of_drops (q := none) (by simp) ((Drops.refl s).append hr)
    rw [tag?, Option.isSome_map, e] at hstart
    rw [List.cons_append, tag?, Option.isSome_map, hstart]
  · rw [tag?.eq_def] at hstart
    split at hstart
    · next e => exact absurd (List.cons.inj e).1 hc
    · cases hstart

/-! ## Dropping, one character at a time -/

theorem bare_assignment (t : Text) : bare ('=' :: '"' :: '"' :: t) = bare t := rfl

theorem bare_cons {c : Char} {t : Text} (h : c = '=' → ∀ r, t ≠ '"' :: '"' :: r) :
    bare (c :: t) = c :: bare t := by
  have hstart : startsWith (c :: t) "=\"\"".toList ≠ true := fun h' => by
    obtain ⟨r, e⟩ := startsWith_iff.1 h'
    exact h (List.cons.inj e).1 r (List.cons.inj e).2
  rw [bare, replaceAll, replaceFrom, if_neg hstart]
  rfl

/-- A character that is in no assignment parts the text. -/
theorem bare_append_cons {c : Char} (hc : c ∉ ['=', '"']) (t u : Text) :
    bare (t ++ c :: u) = bare t ++ c :: bare u :=
  replaceFrom_append_of_not_mem (by decide) (by simpa using hc) [] u (Nat.zero_le _)

/-- A value in double quotes is kept, but for an assignment that it begins. -/
theorem bare_append {v u : Text} (hv : '"' ∉ v)
    (h : v.getLast? = some '=' → ∀ r, u ≠ '"' :: '"' :: r) : bare (v ++ u) = v ++ bare u := by
  induction v with
  | nil => rfl
  | cons c v ih =>
    rw [List.mem_cons, not_or] at hv
    have hlast : v.getLast? = some '=' → ∀ r, u ≠ '"' :: '"' :: r := by
      cases v with
      | nil => simp
      | cons d v => simpa using h
    rw [List.cons_append, bare_cons, ih hv.2 hlast, List.cons_append]
    rintro rfl r e
    cases v with
    | nil => exact h rfl r e
    | cons d v => exact hv.2 ((List.cons.inj e).1 ▸ List.mem_cons_self ..)

/-- Only a text without an assignment stays as it is. -/
theorem bare_eq_self_iff {v : Text} : bare v = v ↔ ¬ "=\"\"".toList <:+: v := by
  induction v with
  | nil => exact iff_of_true rfl (by decide)
  | cons c v ih =>
    by_cases h : c = '=' ∧ ∃ r, v = '"' :: '"' :: r
    · obtain ⟨rfl, r, rfl⟩ := h
      refine iff_of_false (fun e => ?_) (not_not_intro (List.prefix_append _ r).isInfix)
      have hlen := (drops_bare r).length_le
      rw [bare_assignment] at e
      have := congrArg List.length e
      simp only [List.length_cons] at this
      omega
    · have hc : c = '=' → ∀ r, v ≠ '"' :: '"' :: r := fun hc r e => h ⟨hc, r, e⟩
      have hp : ¬ "=\"\"".toList <+: c :: v := by
        rintro ⟨r, e⟩
        exact hc (List.cons.inj e).1.symm r (List.cons.inj e).2.symm
      rw [bare_cons hc, List.infix_cons_iff, not_or, ← ih, List.cons_inj_right]
      exact ⟨fun e => ⟨hp, e⟩, And.right⟩

/-- Without a double quote there is no assignment to an empty value. -/
theorem bare_eq_self {v : Text} (hv : '"' ∉ v) : bare v = v :=
  bare_eq_self_iff.2 fun h => hv (h.subset (by decide))

/-! ## The pieces that are left -/

/-- What is dropped from a piece on its own. -/
def Piece.bared : Piece → Piece
  | plain c => plain c
  | quoted mark v => quoted mark (bare v)

/-- The piece is a value in double quotes that ends with `=`, and another such value follows it. -/
def Piece.fuses : Piece → List Piece → Bool
  | quoted '"' v, quoted '"' _ :: _ => v.getLast? == some '='
  | _, _ => false

/-- The value of a piece that has one. -/
def Piece.value : Piece → Text
  | plain _ => []
  | quoted _ v => v

/-- The pieces, the first of which is a value with `v` written before it. -/
def extend (v : Text) : List Piece → List Piece
  | .quoted mark w :: ps => .quoted mark (v ++ w) :: ps
  | ps => ps

/-- The pieces that are left when empty assignments are dropped from a tag. -/
def baredPieces : List Piece → List Piece
  | [] => []
  | .plain '=' :: .quoted '"' [] :: ps => baredPieces ps
  | p :: ps =>
    if p.fuses ps then extend p.value.dropLast (baredPieces ps) else p.bared :: baredPieces ps

/-- A value that ends with an equals sign fuses with the value behind it. -/
theorem fuses_eq_true_iff {p : Piece} {ps : List Piece} :
    p.fuses ps = true ↔ ∃ v w qs, p = .quoted '"' (v ++ ['=']) ∧ ps = .quoted '"' w :: qs := by
  constructor
  · intro h
    rw [Piece.fuses.eq_def] at h
    split at h
    · next v w qs =>
      obtain ⟨v, rfl⟩ := List.getLast?_eq_some_iff.1 (eq_of_beq h)
      exact ⟨v, w, qs, rfl, rfl⟩
    · cases h
  · rintro ⟨v, w, qs, rfl, rfl⟩
    simp [Piece.fuses]

/-- Pieces are bared one by one, unless they fuse. -/
theorem baredPieces_cons {p : Piece} {ps : List Piece}
    (h : ∀ qs, p = .plain '=' → ps ≠ .quoted '"' [] :: qs) :
    baredPieces (p :: ps) =
      if p.fuses ps then extend p.value.dropLast (baredPieces ps)
      else p.bared :: baredPieces ps := by
  rw [baredPieces]
  exact fun qs e => h qs e

/-- What is left of a value in double quotes is such a value. -/
theorem exists_baredPieces_double (w : Text) (ps : List Piece) :
    ∃ w' qs, baredPieces (.quoted '"' w :: ps) = .quoted '"' w' :: qs := by
  induction ps generalizing w with
  | nil => exact ⟨bare w, [], rfl⟩
  | cons p ps ih =>
    rw [baredPieces_cons (by simp)]
    split
    · next h =>
      obtain ⟨v, x, qs, -, e⟩ := fuses_eq_true_iff.1 h
      obtain ⟨rfl, rfl⟩ := List.cons.inj e
      obtain ⟨w', qs', e'⟩ := ih x
      exact ⟨_, qs', by rw [e']; rfl⟩
    · exact ⟨bare w, _, rfl⟩

/-- Where a text of pieces begins with a double quote, a value begins. -/
theorem exists_double_of_textOf {ps : List Piece} (hps : ∀ p ∈ ps, p.IsSound) {r : Text}
    (e : textOf ps = '"' :: r) :
    ∃ w qs, ps = .quoted '"' w :: qs ∧ '"' ∉ w ∧ r = w ++ '"' :: textOf qs := by
  cases ps with
  | nil => cases e
  | cons p ps =>
    have hp := hps p (List.mem_cons_self ..)
    cases p with
    | plain c =>
      obtain ⟨rfl, -⟩ := List.cons.inj e
      exact absurd (by simp) hp
    | quoted mark w =>
      rw [textOf_quoted] at e
      obtain ⟨rfl, rfl⟩ := List.cons.inj e
      exact ⟨w, ps, rfl, hp.2, rfl⟩

/-- **The pieces that are left make up the text that is left.** -/
theorem bare_textOf {ps : List Piece} (hps : ∀ p ∈ ps, p.IsSound) :
    bare (textOf ps) = textOf (baredPieces ps) := by
  fun_induction baredPieces ps with
  | case1 => rfl
  | case2 ps ih =>
    have hps := (List.forall_mem_cons.1 (List.forall_mem_cons.1 hps).2).2
    rw [textOf_plain, textOf_quoted, List.nil_append, bare_assignment, ih hps]
  | case3 p ps _ hf ih =>
    obtain ⟨hp, hqs⟩ := List.forall_mem_cons.1 hps
    obtain ⟨v, w, qs, rfl, rfl⟩ := fuses_eq_true_iff.1 hf
    obtain ⟨w', qs', e⟩ := exists_baredPieces_double w qs
    have ih := ih hqs
    have hv : '"' ∉ v := fun h => hp.2 (List.mem_append_left _ h)
    rw [e, textOf_quoted, textOf_quoted, bare_cons (by simp)] at ih
    rw [e, textOf_quoted, textOf_quoted, Piece.value, List.dropLast_concat, extend, textOf_quoted,
      List.append_assoc, List.singleton_append, bare_cons (by simp), bare_append hv (by simp),
      bare_assignment, (List.cons.inj ih).2, List.append_assoc]
  | case4 p ps hne hf ih =>
    obtain ⟨hp, hqs⟩ := List.forall_mem_cons.1 hps
    cases p with
    | plain c =>
      rw [textOf_plain, bare_cons, ih hqs]
      · rfl
      · rintro rfl r e
        -- the value after the `=` would be empty
        obtain ⟨w, qs, rfl, hw, e⟩ := exists_double_of_textOf hqs e
        cases w with
        | nil => exact hne qs rfl rfl
        | cons d w => exact hw ((List.cons.inj e).1 ▸ List.mem_cons_self ..)
    | quoted mark v =>
      obtain ⟨hmark, hv⟩ := hp
      have hquote : mark = '"' ∨ mark = '\'' := by simpa using hmark
      rcases hquote with rfl | rfl
      · have hlast : v.getLast? = some '=' → ∀ r, '"' :: textOf ps ≠ '"' :: '"' :: r := by
          intro hlast r e
          obtain ⟨w, qs, rfl, -, -⟩ := exists_double_of_textOf hqs (List.cons.inj e).2
          exact hf (by simp [Piece.fuses, hlast])
        rw [textOf_quoted, bare_cons (by simp), bare_append hv hlast, bare_cons (by simp), ih hqs,
          Piece.bared, bare_eq_self hv, textOf_quoted]
      · rw [textOf_quoted, bare_cons (by simp), bare_append_cons (by decide), ih hqs, Piece.bared,
          textOf_quoted]

/-- Bared pieces are sound again. -/
theorem sound_baredPieces {ps : List Piece} (hps : ∀ p ∈ ps, p.IsSound) :
    ∀ p ∈ baredPieces ps, p.IsSound := by
  fun_induction baredPieces ps with
  | case1 => exact hps
  | case2 ps ih => exact ih (List.forall_mem_cons.1 (List.forall_mem_cons.1 hps).2).2
  | case3 p ps _ hf ih =>
    obtain ⟨hp, hqs⟩ := List.forall_mem_cons.1 hps
    obtain ⟨v, w, qs, rfl, rfl⟩ := fuses_eq_true_iff.1 hf
    -- the value takes in the one behind it; neither has a quote inside
    obtain ⟨w', qs', e⟩ := exists_baredPieces_double w qs
    have ih := ih hqs
    rw [e, List.forall_mem_cons] at ih
    rw [e, Piece.value, List.dropLast_concat, extend, List.forall_mem_cons]
    refine ⟨⟨hp.1, fun h => ?_⟩, ih.2⟩
    rcases List.mem_append.1 h with h | h
    · exact hp.2 (List.mem_append_left _ h)
    · exact ih.1.2 h
  | case4 p ps _ _ ih =>
    obtain ⟨hp, hqs⟩ := List.forall_mem_cons.1 hps
    refine List.forall_mem_cons.2 ⟨?_, ih hqs⟩
    cases p with
    | plain c => exact hp
    | quoted mark v => exact ⟨hp.1, fun h => hp.2 ((drops_bare v).mem_of_mem h)⟩

/-- The tag that is left when empty assignments are dropped from a tag. -/
def Tag.bared (m : Tag) : Tag := ⟨baredPieces m.pieces, sound_baredPieces m.sound⟩

/-- **Baring a tag bares its text.** -/
theorem Tag.text_bared (m : Tag) : m.bared.text = bare m.text := by
  rw [Tag.text, Tag.text, bare_cons (by simp), bare_append_cons (by decide), bare_textOf m.sound]
  rfl

/-! ## Texts -/

/-- A tag at the front is bared. -/
theorem drop_of_tag {t a r : Text} (h : tag? t = some (a, r)) : drop t = bare a ++ drop r := by
  rw [drop]
  split <;> simp_all

theorem drop_cons_of_none {c : Char} {t : Text} (h : tag? (c :: t) = none) :
    drop (c :: t) = c :: drop t := by
  rw [drop]
  split <;> simp_all

theorem drop_nil : drop [] = [] := by
  rw [drop]
  split <;> simp_all [tag?]

/-- What is outside of tags stays. -/
theorem drop_append_of_vacant {u r : Text} (h : tags.Vacant u r) :
    drop (u ++ r) = u ++ drop r := by
  induction u with
  | nil => rfl
  | cons c u ih =>
    have hc : tag? (c :: (u ++ r)) = none := by
      rw [← Option.not_isSome_iff_eq_none, ← starts_tags_iff]
      exact h (c :: u) (List.cons_ne_nil c u) (List.suffix_refl _)
    rw [List.cons_append, drop_cons_of_none hc,
      ih fun s hs hsu => h s hs (hsu.trans (List.suffix_cons c u)), List.cons_append]

/-- **The whole text**: each tag is bared, and what stands between them stays. -/
theorem drop_of_splits {t u : Text} {ms : List (Tag × Text)} (h : tags.Splits t u ms) :
    drop t = u ++ ms.flatMap fun m => bare m.1.text ++ m.2 := by
  induction h with
  | @last u h =>
    have e := drop_append_of_vacant h
    rw [List.append_nil, drop_nil] at e
    exact e
  | @found t u v m ms h _ _ ih =>
    have htag : drop (tags.text m ++ t) = bare m.text ++ drop t := drop_of_tag (tag?_text m t)
    rw [drop_append_of_vacant h, htag, ih, List.flatMap_cons, List.append_assoc]

/-- The new text splits where the text did. -/
theorem splits_drop {t u : Text} {ms : List (Tag × Text)} (h : tags.Splits t u ms) :
    tags.Splits (drop t) u (ms.map fun m => (m.1.bared, m.2)) := by
  induction h with
  | @last u h =>
    rw [drop_of_splits (.last h), List.flatMap_nil, List.append_nil]
    exact .last h
  | @found t u v m ms h _ _ ih =>
    have htag : drop (tags.text m ++ t) = tags.text m.bared ++ drop t :=
      (drop_of_tag (tag?_text m t)).trans (congrArg (· ++ drop t) m.text_bared.symm)
    rw [drop_append_of_vacant h, htag]
    refine .found (vacant_of_drops h ?_) trivial ih
    rw [← htag]
    exact drops_drop _

/-- **Dropping reads the same tags again.** Where a search of a text finds tags, the texts around
them are kept, each tag loses its empty assignments, and a search of the new text finds what is left
of these tags, at the same places and nowhere else. -/
theorem search_drop (t : Text) :
    ∃ u ms, (∀ u' ms', tags.Splits t u' ms' ↔ u' = u ∧ ms' = ms) ∧
      t = u ++ ms.flatMap (fun m => m.1.text ++ m.2) ∧
      drop t = u ++ ms.flatMap (fun m => bare m.1.text ++ m.2) ∧
      (∀ m ∈ ms, m.1.bared.text = bare m.1.text) ∧
      ∀ u' ms', tags.Splits (drop t) u' ms' ↔ u' = u ∧ ms' = ms.map fun m => (m.1.bared, m.2) := by
  obtain ⟨u, ms, h⟩ := tags.exists_splits t
  exact ⟨u, ms, h.iff, h.text_eq, drop_of_splits h, fun m _ => m.1.text_bared, (splits_drop h).iff⟩

end Showcase.EmptyAttribute

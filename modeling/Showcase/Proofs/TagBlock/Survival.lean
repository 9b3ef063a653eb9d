import Showcase.Proofs.TagBlock.Shape

/-!
# Survival of blocks

A change to a text may spoil what stands between the tags of a block, and the attributes in its
opening tag. The block survives if four short texts do: the beginning of the opening tag, its `>`,
and the closing tag. They are *solid*: they begin with an angle bracket and have no `&`, `=` or `"`
in them. Where a change keeps every solid text (`Keeps`), it keeps the blocks
(`HasBlock.of_keeps`).
-/

namespace Showcase.TagBlock

open Text

/-- The characters of references and assignments that solid texts do without. -/
def foreign : List Char := ['&', '=', '"']

theorem foreign_facts : ∀ c ∈ foreign,
    c.toNat < 128 ∧ isLetter c = false ∧ isBlank c = false ∧ c ∉ ['<', '/', '>'] :=
  forall_mem_of_all (by decide)

/-- Begins with an angle bracket, and has nothing of a reference or of an assignment in it. -/
def IsSolid (w : Text) : Prop :=
  (∃ c s, w = c :: s ∧ (c = '<' ∨ c = '>')) ∧ ∀ c ∈ foreign, c ∉ w

/-- What `R` relates to a text with `w` in it has `w` in it, between what `R` relates to the texts
around it. -/
def Keeps (R : Text → Text → Prop) (w : Text) : Prop :=
  ∀ t u s, R (t ++ (w ++ u)) s → ∃ t' u', s = t' ++ (w ++ u') ∧ R t t' ∧ R u u'

/-! ## Solid texts in tags -/

theorem not_mem_of_spells {name n : Text} (hname : IsWord name) (hn : Spells name n) {c : Char}
    (hc : c ∈ foreign) : c ∉ n := by
  obtain ⟨hascii, hletter, -, -⟩ := foreign_facts c hc
  exact hn.not_mem hname hascii hletter

/-- The beginning of an opening tag, up to the end of the name and one character further. -/
theorem isSolid_beginning {name n : Text} {b : Char} (hname : IsWord name) (hn : Spells name n)
    (hb : isBlank b = true ∨ b = '>') : IsSolid ('<' :: (n ++ [b])) := by
  refine ⟨⟨'<', n ++ [b], rfl, Or.inl rfl⟩, fun c hc hcw => ?_⟩
  obtain ⟨-, -, hblank, hmark⟩ := foreign_facts c hc
  simp only [List.mem_cons, List.mem_append, List.not_mem_nil, or_false] at hcw hmark
  rcases hcw with rfl | hcn | rfl
  · exact hmark (Or.inl rfl)
  · exact not_mem_of_spells hname hn hc hcn
  · rcases hb with hb | rfl
    · rw [hb] at hblank
      cases hblank
    · exact hmark (Or.inr (Or.inr rfl))

theorem isSolid_end : IsSolid ['>'] := ⟨⟨'>', [], rfl, Or.inr rfl⟩, forall_mem_of_all (by decide)⟩

theorem IsClosing.isSolid {name tag : Text} (hname : IsWord name) (h : IsClosing name tag) :
    IsSolid tag := by
  obtain ⟨n, w, hn, hw, rfl⟩ := h
  refine ⟨⟨'<', _, rfl, Or.inl rfl⟩, fun c hc hcw => ?_⟩
  obtain ⟨-, -, hblank, hmark⟩ := foreign_facts c hc
  simp only [List.mem_cons, List.mem_append, List.not_mem_nil, or_false] at hcw hmark
  rcases hcw with rfl | rfl | (hcn | hcw) | rfl
  · exact hmark (Or.inl rfl)
  · exact hmark (Or.inr (Or.inl rfl))
  · exact not_mem_of_spells hname hn hc hcn
  · rw [hw c hcw] at hblank
    cases hblank
  · exact hmark (Or.inr (Or.inr rfl))

/-! ## Blocks -/

/-- For a block it does not matter which `>` ends the opening tag. -/
theorem hasBlock_of_pieces {name n x tag : Text} (hn : Spells name n) (hx : isApart x = true)
    (hc : IsClosing name tag) (a m d : Text) :
    HasBlock name (a ++ ('<' :: (n ++ (x ++ '>' :: (m ++ (tag ++ d)))))) := by
  -- the opening tag ends with the first `>`, which may stand earlier than the last
  obtain ⟨y, z, e, hy⟩ := List.eq_append_cons_of_mem (show '>' ∈ x ++ ['>'] by simp)
  have hyx : isApart y = true := by
    cases y with
    | nil => rfl
    | cons c y =>
      cases x with
      | nil => exact absurd ((List.cons.inj e).1 ▸ List.mem_cons_self ..) hy
      | cons c' x =>
        obtain ⟨rfl, -⟩ := List.cons.inj e
        exact hx
  refine hasBlock_iff.2 ⟨a, _, z ++ m, tag, d, ⟨n, y, hn, hyx, hy, rfl⟩, hc, ?_⟩
  have e := congrArg (· ++ (m ++ (tag ++ d))) e
  simp only [List.append_assoc, List.cons_append, List.nil_append] at e ⊢
  rw [e]

/-- **A change that keeps solid texts keeps blocks.** -/
theorem HasBlock.of_keeps {R : Text → Text → Prop} {name t s : Text} (hname : IsWord name)
    (hR : ∀ w, IsSolid w → Keeps R w) (h : HasBlock name t) (hts : R t s) : HasBlock name s := by
  obtain ⟨a, tag, m, tag', d, ⟨n, x, hn, hx, -, rfl⟩, hc, rfl⟩ := hasBlock_iff.1 h
  have hclosing := hR tag' (hc.isSolid hname)
  cases x with
  | nil =>
    -- the name, up to `>`, and the closing tag
    have hopening := hR _ (isSolid_beginning hname hn (Or.inr rfl))
    rw [List.append_nil] at hts
    obtain ⟨a', r, rfl, -, hr⟩ := hopening _ _ _ hts
    obtain ⟨m', d', rfl, -, -⟩ := hclosing _ _ _ hr
    have := hasBlock_of_pieces hn hx hc a' m' d'
    simpa using this
  | cons b x =>
    -- the name and the white space after it, some `>`, and the closing tag
    have hopening := hR _ (isSolid_beginning hname hn (Or.inl hx))
    have e : a ++ ('<' :: (n ++ b :: x ++ ['>']) ++ (m ++ (tag' ++ d))) =
        a ++ ('<' :: (n ++ [b]) ++ (x ++ (['>'] ++ (m ++ (tag' ++ d))))) := by simp
    rw [e] at hts
    obtain ⟨a', r, rfl, -, hr⟩ := hopening _ _ _ hts
    obtain ⟨x', r, rfl, -, hr⟩ := hR _ isSolid_end _ _ _ hr
    obtain ⟨m', d', rfl, -, -⟩ := hclosing _ _ _ hr
    have := hasBlock_of_pieces (x := b :: x') hn hx hc a' m' d'
    simpa using this

end Showcase.TagBlock

import Showcase.Demo.TagBlock
import Showcase.Proofs.Text.Basic

/-!
# What blocks look like

The readers of `TagBlock` are described here without saying how they read:

* an opening tag is `<`, a case variant of the name, and a rest that is empty or begins with white
  space, up to the first `>` (`IsOpening`, `opening?_eq_some_iff`);
* a closing tag is `</`, a case variant of the name and white space, up to `>` (`IsClosing`,
  `closing?_eq_some_iff`);
* a text has a complete block in it exactly if an opening tag in it is followed, at whatever
  distance, by a closing tag (`hasBlock_iff`). So a text never loses a block by being part of a
  longer one (`HasBlock.of_infix`).

The names that matter are made of letters. A tag of such a name holds only one `<`, so no tag
reaches beyond the beginning of another one, and whether a block stands at the beginning of a text
does not depend on what follows the block (`block?_append`).
-/

namespace Showcase

namespace Text

/-! ## Case variants -/

/-- The text `n` is a case variant of `p`. -/
def Spells (p n : Text) : Prop := afterFold? p n = some []

/-- What is read by `afterFold?` is a case variant, and any case variant is read. -/
theorem afterFold?_eq_some_iff {p t r : Text} :
    afterFold? p t = some r ↔ ∃ n, Spells p n ∧ t = n ++ r := by
  constructor
  · intro h
    obtain ⟨n, hn, -, rfl⟩ := exists_of_afterFold? h
    exact ⟨n, hn, rfl⟩
  · rintro ⟨n, hn, rfl⟩
    exact afterFold?_append hn r

/-- Only the empty text spells the empty name. -/
theorem spells_nil {n : Text} : Spells [] n ↔ n = [] := by simp [Spells, afterFold?]

/-- A name is spelled character by character. -/
theorem spells_cons {c : Char} {p n : Text} :
    Spells (c :: p) n ↔ ∃ d m, n = d :: m ∧ sameFold c d = true ∧ Spells p m := by
  constructor
  · intro h
    cases n with
    | nil => cases h
    | cons d n =>
      rw [Spells, afterFold?] at h
      split at h
      · next hcd => exact ⟨d, n, rfl, hcd, h⟩
      · cases h
  · rintro ⟨d, m, rfl, hcd, hm⟩
    rw [Spells, afterFold?, if_pos hcd]
    exact hm

/-- Spellings of a name are as long as the name. -/
theorem Spells.length_eq {p n : Text} (h : Spells p n) : n.length = p.length := by
  obtain ⟨m, -, hm, rfl⟩ := exists_of_afterFold? h
  rw [List.append_nil, hm]

/-- Each character of a spelling is a case variant of one of the name. -/
theorem Spells.exists_of_mem {p n : Text} (h : Spells p n) {d : Char} (hd : d ∈ n) :
    ∃ c ∈ p, sameFold c d = true := by
  induction p generalizing n with
  | nil =>
    rw [spells_nil.1 h] at hd
    cases hd
  | cons c p ih =>
    obtain ⟨e, m, rfl, hce, hm⟩ := spells_cons.1 h
    rcases List.mem_cons.1 hd with rfl | hd
    · exact ⟨c, List.mem_cons_self .., hce⟩
    · obtain ⟨c', hc', hcd⟩ := ih hm hd
      exact ⟨c', List.mem_cons_of_mem _ hc', hcd⟩

/-- Case variants fold to the same text. -/
theorem Spells.map_fold {p n : Text} (h : Spells p n) : n.map fold = p.map fold := by
  induction p generalizing n with
  | nil => rw [spells_nil.1 h]
  | cons c p ih =>
    obtain ⟨d, m, rfl, hcd, hm⟩ := spells_cons.1 h
    rw [List.map_cons, List.map_cons, ih hm, eq_of_beq hcd]

/-- The letters of ASCII, by their numbers. -/
theorem toNat_of_isLetter {c : Char} (h : isLetter c = true) :
    (65 ≤ c.toNat ∧ c.toNat ≤ 90) ∨ (97 ≤ c.toNat ∧ c.toNat ≤ 122) := by
  simp only [isLetter, Bool.or_eq_true, Bool.and_eq_true, decide_eq_true_eq, Char.le_def,
    UInt32.le_iff_toNat_le] at h
  exact h.symm

/-- In ASCII, lower case keeps letters apart from what is no letter, and changes only letters. -/
theorem lowerAscii_ascii : ∀ n : Fin 128,
    isLetter (lowerAscii (Char.ofNat n)) = isLetter (Char.ofNat n) ∧
      (isLetter (Char.ofNat n) = false → lowerAscii (Char.ofNat n) = Char.ofNat n) := by
  decide

/-- A case variant of a letter is a letter, or lies outside of ASCII. -/
theorem sameFold_eq_false_of_isLetter {c d : Char} (hc : isLetter c = true) (hd : d.toNat < 128)
    (hl : isLetter d = false) : sameFold c d = false := by
  have hc' : c.toNat < 128 := by
    have := toNat_of_isLetter hc
    omega
  obtain ⟨hcl, -⟩ := lowerAscii_ascii ⟨c.toNat, hc'⟩
  obtain ⟨-, hdl⟩ := lowerAscii_ascii ⟨d.toNat, hd⟩
  rw [Char.ofNat_toNat] at hcl hdl
  rw [sameFold, fold_ascii hc', fold_ascii hd, hdl hl, beq_eq_false_iff_ne]
  intro e
  rw [e, hl, hc] at hcl
  cases hcl

/-- A text of ASCII letters. -/
def IsWord (p : Text) : Prop := ∀ c ∈ p, isLetter c = true

/-- Spelled in whatever case, a word has no ASCII character in it but letters. -/
theorem Spells.not_mem {p n : Text} (h : Spells p n) (hp : IsWord p) {d : Char}
    (hd : d.toNat < 128) (hl : isLetter d = false) : d ∉ n := by
  intro hdn
  obtain ⟨c, hc, hcd⟩ := h.exists_of_mem hdn
  rw [sameFold_eq_false_of_isLetter (hp c hc) hd hl] at hcd
  cases hcd

end Text

namespace TagBlock

open Text

/-! ## Opening tags -/

/-- A text that is empty or begins with white space. -/
def isApart : Text → Bool
  | [] => true
  | c :: _ => isBlank c

/-- The text is an opening tag of the name. -/
def IsOpening (name tag : Text) : Prop :=
  ∃ n a, Spells name n ∧ isApart a = true ∧ '>' ∉ a ∧ tag = '<' :: (n ++ a ++ ['>'])

/-- What is read as an opening tag is one. -/
theorem opening?_sound {name t tag r : Text} (h : opening? name t = some (tag, r)) :
    IsOpening name tag ∧ t = tag ++ r := by
  refine ⟨?_, eq_append_of_opening? h⟩
  rw [opening?.eq_def] at h
  split at h
  · next u =>
    split at h
    · next c s hs =>
      split at h
      · next hc =>
        simp only [Option.map_eq_some_iff, Prod.mk.injEq, Prod.exists] at h
        obtain ⟨a, b, hab, rfl, rfl⟩ := h
        obtain ⟨n, hn, rfl⟩ := afterFold?_eq_some_iff.1 hs
        obtain ⟨ha, e⟩ := cut?_singleton_eq_some_iff.1 hab
        -- what follows the name sets it apart, or is the bracket
        refine ⟨n, a, hn, ?_, ha, by rw [← hn.length_eq, List.take_left]⟩
        cases a with
        | nil => rfl
        | cons x a =>
          obtain ⟨rfl, -⟩ := List.cons.inj e
          have : c ≠ '>' := fun e => ha (e ▸ List.mem_cons_self ..)
          simpa [isApart, this] using hc
      · cases h
    · cases h
  · cases h

/-- An opening tag is read as far as it goes, whatever follows it. -/
theorem opening?_complete {name tag : Text} (h : IsOpening name tag) (r : Text) :
    opening? name (tag ++ r) = some (tag, r) := by
  obtain ⟨n, a, hn, hap, ha, rfl⟩ := h
  have hcut : cut? ['>'] (a ++ '>' :: r) = some (a, r) := cut?_singleton_eq_some_iff.2 ⟨ha, rfl⟩
  have hread : afterFold? name (n ++ (a ++ '>' :: r)) = some (a ++ '>' :: r) :=
    afterFold?_eq_some_iff.2 ⟨n, hn, rfl⟩
  have htake : (n ++ (a ++ '>' :: r)).take name.length = n := by
    rw [← hn.length_eq, List.take_left]
  -- the name is followed by the first character of `a`, or by `>`
  obtain ⟨c, s, hcs, hc⟩ : ∃ c s, a ++ '>' :: r = c :: s ∧ (isBlank c || c == '>') = true := by
    cases a with
    | nil => exact ⟨'>', r, rfl, rfl⟩
    | cons c a => exact ⟨c, a ++ '>' :: r, rfl, by rw [show isBlank c = true from hap]; rfl⟩
  have e : '<' :: (n ++ a ++ ['>']) ++ r = '<' :: (n ++ (a ++ '>' :: r)) := by simp
  rw [e]
  rw [hcs] at hcut hread htake ⊢
  simp only [opening?, hread, if_pos hc, hcut, htake, Option.map_some]

/-- **An opening tag is read** exactly if the text begins with one, and then that one is read. -/
theorem opening?_eq_some_iff {name t tag r : Text} :
    opening? name t = some (tag, r) ↔ IsOpening name tag ∧ t = tag ++ r := by
  constructor
  · exact opening?_sound
  · rintro ⟨h, rfl⟩
    exact opening?_complete h r

/-! ## Closing tags -/

/-- The text is a closing tag of the name. -/
def IsClosing (name tag : Text) : Prop :=
  ∃ n w, Spells name n ∧ (∀ c ∈ w, isBlank c = true) ∧ tag = '<' :: '/' :: (n ++ w ++ ['>'])

/-- What is read as a closing tag is one. -/
theorem closing?_sound {name t tag r : Text} (h : closing? name t = some (tag, r)) :
    IsClosing name tag ∧ t = tag ++ r := by
  refine ⟨?_, eq_append_of_closing? h⟩
  rw [closing?.eq_def] at h
  split at h
  · next u =>
    split at h
    · next s hs =>
      split at h
      · next v hv =>
        simp only [Option.some.injEq, Prod.mk.injEq] at h
        obtain ⟨rfl, rfl⟩ := h
        obtain ⟨n, hn, rfl⟩ := afterFold?_eq_some_iff.1 hs
        refine ⟨n, s.takeWhile isBlank, hn, fun c hc => ?_, ?_⟩
        · exact List.all_eq_true.1 List.all_takeWhile c hc
        · rw [← hn.length_eq, List.take_left]
      · cases h
    · cases h
  · cases h

/-- A closing tag is read as far as it goes, whatever follows it. -/
theorem closing?_complete {name tag : Text} (h : IsClosing name tag) (r : Text) :
    closing? name (tag ++ r) = some (tag, r) := by
  obtain ⟨n, w, hn, hw, rfl⟩ := h
  have hread : afterFold? name (n ++ (w ++ '>' :: r)) = some (w ++ '>' :: r) :=
    afterFold?_eq_some_iff.2 ⟨n, hn, rfl⟩
  have htake : (n ++ (w ++ '>' :: r)).take name.length = n := by
    rw [← hn.length_eq, List.take_left]
  -- white space ends at `>`
  have hblank : (w ++ '>' :: r).takeWhile isBlank = w := takeWhile_run hw (by decide) r
  have hrest : (w ++ '>' :: r).dropWhile isBlank = '>' :: r := dropWhile_run hw (by decide) r
  have e : '<' :: '/' :: (n ++ w ++ ['>']) ++ r = '<' :: '/' :: (n ++ (w ++ '>' :: r)) := by simp
  rw [e]
  simp only [closing?, hread, hrest, htake, hblank]

/-- **A closing tag is read** exactly if the text begins with one. -/
theorem closing?_eq_some_iff {name t tag r : Text} :
    closing? name t = some (tag, r) ↔ IsClosing name tag ∧ t = tag ++ r := by
  constructor
  · exact closing?_sound
  · rintro ⟨h, rfl⟩
    exact closing?_complete h r

/-- Whether a text begins with a closing tag. -/
theorem closing?_isSome_iff {name t : Text} :
    (closing? name t).isSome = true ↔ ∃ tag, IsClosing name tag ∧ tag <+: t := by
  constructor
  · intro h
    obtain ⟨⟨tag, r⟩, h⟩ := Option.isSome_iff_exists.1 h
    obtain ⟨ht, rfl⟩ := closing?_sound h
    exact ⟨tag, ht, List.prefix_append tag r⟩
  · rintro ⟨tag, ht, r, rfl⟩
    rw [closing?_complete ht]
    rfl

/-- A closing tag of a word has no `<` after its first character. -/
theorem IsClosing.exists_cons {name tag : Text} (h : IsClosing name tag) (hname : IsWord name) :
    ∃ s, tag = '<' :: s ∧ '<' ∉ s := by
  obtain ⟨n, w, hn, hw, rfl⟩ := h
  refine ⟨_, rfl, ?_⟩
  have h₁ : '<' ∉ n := hn.not_mem hname (by decide) (by decide)
  have h₂ : '<' ∉ w := fun hc => absurd (hw '<' hc) (by decide)
  simp [h₁, h₂]

/-- A closing tag that begins before a `<` ends before it. -/
theorem closing?_append_tag {name s : Text} (hname : IsWord name) (hs : s ≠ []) (v : Text) :
    (closing? name (s ++ '<' :: v)).isSome = (closing? name s).isSome := by
  rw [Bool.eq_iff_iff, closing?_isSome_iff, closing?_isSome_iff]
  constructor
  · rintro ⟨tag, ht, hp⟩
    obtain ⟨x, rfl, hx⟩ := ht.exists_cons hname
    refine ⟨_, ht, ?_⟩
    obtain ⟨d, s, rfl⟩ := List.exists_cons_of_ne_nil hs
    rw [List.cons_append, List.cons_prefix_cons] at hp
    exact List.cons_prefix_cons.2 ⟨hp.1, prefix_of_prefix_append_cons hx hp.2⟩
  · rintro ⟨tag, ht, hp⟩
    exact ⟨tag, ht, hp.trans (List.prefix_append s _)⟩

/-! ## The first closing tag -/

/-- **The first closing tag** is found: one is there, and none begins before it. -/
theorem untilClosing?_eq_some_iff {name t a tag r : Text} :
    untilClosing? name t = some (a, tag, r) ↔
      IsClosing name tag ∧ t = a ++ (tag ++ r) ∧
        ∀ s, s ≠ [] → s <:+ a → closing? name (s ++ (tag ++ r)) = none := by
  induction t generalizing a with
  | nil =>
    constructor
    · intro h
      cases h
    · rintro ⟨⟨n, w, -, -, rfl⟩, e, -⟩
      simp at e
  | cons c t ih =>
    rw [untilClosing?]
    constructor
    · intro h
      split at h
      · next tag' r' hc =>
        simp only [Option.some.injEq, Prod.mk.injEq] at h
        obtain ⟨rfl, rfl, rfl⟩ := h
        obtain ⟨ht, e⟩ := closing?_sound hc
        refine ⟨ht, e, fun s hs hsa => ?_⟩
        exact absurd (List.suffix_nil.1 hsa) hs
      · next hc =>
        simp only [Option.map_eq_some_iff, Prod.mk.injEq, Prod.exists] at h
        obtain ⟨a', _, _, h, rfl, rfl, rfl⟩ := h
        obtain ⟨ht, rfl, hfirst⟩ := ih.1 h
        refine ⟨ht, rfl, fun s hs hsa => ?_⟩
        -- the whole was looked at just now, and what is shorter by induction
        rcases List.suffix_cons_iff.1 hsa with rfl | hsa
        · exact hc
        · exact hfirst s hs hsa
    · rintro ⟨ht, e, hfirst⟩
      cases a with
      | nil =>
        rw [e, List.nil_append, closing?_complete ht]
      | cons d a =>
        rw [List.cons_append, List.cons.injEq] at e
        obtain ⟨rfl, rfl⟩ := e
        rw [← List.cons_append, hfirst _ (by simp) (List.suffix_refl _)]
        rw [ih.2 ⟨ht, rfl, fun s hs hsa => hfirst s hs (hsa.trans (List.suffix_cons c a))⟩]
        rfl

/-- A closing tag is found if there is one anywhere. -/
theorem untilClosing?_isSome_iff {name t : Text} :
    (untilClosing? name t).isSome = true ↔ ∃ a tag r, IsClosing name tag ∧ t = a ++ (tag ++ r) := by
  constructor
  · intro h
    obtain ⟨⟨a, tag, r⟩, h⟩ := Option.isSome_iff_exists.1 h
    obtain ⟨ht, e, -⟩ := untilClosing?_eq_some_iff.1 h
    exact ⟨a, tag, r, ht, e⟩
  · rintro ⟨a, tag, r, ht, rfl⟩
    -- a closing tag that is found earlier will do as well
    induction a with
    | nil =>
      obtain ⟨n, w, -, -, e⟩ := id ht
      have hread := closing?_complete ht r
      rw [e] at hread ⊢
      rw [List.nil_append, List.cons_append] at *
      rw [untilClosing?, hread]
      rfl
    | cons c a ih =>
      rw [List.cons_append, untilClosing?]
      split
      · rfl
      · rw [Option.isSome_map]
        exact ih

/-! ## Blocks -/

/-- **A block** is an opening tag, what stands before the first closing tag, and that tag. -/
theorem block?_eq_some_iff {name t r : Text} {b : Block} :
    block? name t = some (b, r) ↔
      IsOpening name b.opening ∧ t = b.opening ++ (b.content ++ (b.closing ++ r)) ∧
        untilClosing? name (b.content ++ (b.closing ++ r)) = some (b.content, b.closing, r) := by
  rw [block?.eq_def]
  constructor
  · intro h
    split at h
    · next tag s hs =>
      simp only [Option.map_eq_some_iff, Prod.mk.injEq, Prod.exists] at h
      obtain ⟨a, c, d, h, rfl, rfl⟩ := h
      obtain ⟨ht, rfl⟩ := opening?_sound hs
      obtain ⟨-, rfl, -⟩ := untilClosing?_eq_some_iff.1 h
      exact ⟨ht, rfl, h⟩
    · cases h
  · rintro ⟨ht, rfl, hu⟩
    rw [opening?_complete ht]
    simp only [hu, Option.map_some]

/-- A block begins at every opening tag that some closing tag follows. -/
theorem isSome_block? {name tag closing : Text} (ht : IsOpening name tag)
    (hc : IsClosing name closing) (m d : Text) :
    (block? name (tag ++ (m ++ (closing ++ d)))).isSome = true := by
  have hu : (untilClosing? name (m ++ (closing ++ d))).isSome = true :=
    untilClosing?_isSome_iff.2 ⟨m, closing, d, hc, rfl⟩
  simp only [block?, opening?_complete ht, Option.isSome_map, hu]

/-- A block is not empty. -/
theorem length_text_pos {name t r : Text} {b : Block} (h : block? name t = some (b, r)) :
    0 < b.text.length := by
  have h₁ := length_lt_of_block? h
  have h₂ := congrArg List.length (eq_append_of_block? h)
  rw [List.length_append] at h₂
  omega

/-- Whether a block stands at the beginning of a text does not depend on what follows the block. -/
theorem block?_append {name t r : Text} {b : Block} (hname : IsWord name)
    (h : block? name t = some (b, r)) (r' : Text) : block? name (b.text ++ r') = some (b, r') := by
  obtain ⟨ho, -, hu⟩ := block?_eq_some_iff.1 h
  obtain ⟨hc, -, hfirst⟩ := untilClosing?_eq_some_iff.1 hu
  refine block?_eq_some_iff.2 ⟨ho, by simp [Block.text], ?_⟩
  refine untilClosing?_eq_some_iff.2 ⟨hc, rfl, fun s hs hsa => ?_⟩
  -- a closing tag in the content does not reach into the closing tag of the block
  obtain ⟨x, hx, -⟩ := hc.exists_cons hname
  have key (v : Text) :
      (closing? name (s ++ (b.closing ++ v))).isSome = (closing? name s).isSome := by
    rw [hx]
    exact closing?_append_tag hname hs (x ++ v)
  have := hfirst s hs hsa
  rw [← Option.not_isSome_iff_eq_none, key] at this ⊢
  exact this

/-! ## Texts with a block in them -/

/-- A complete block of the name stands somewhere in the text. -/
def HasBlock (name t : Text) : Prop := ∃ s, s <:+ t ∧ (block? name s).isSome = true

/-- A text has a block exactly if a closing tag comes somewhere after an opening one. -/
theorem hasBlock_iff {name t : Text} :
    HasBlock name t ↔ ∃ a tag m tag' d,
      IsOpening name tag ∧ IsClosing name tag' ∧ t = a ++ (tag ++ (m ++ (tag' ++ d))) := by
  constructor
  · rintro ⟨s, ⟨a, rfl⟩, hs⟩
    obtain ⟨⟨b, r⟩, h⟩ := Option.isSome_iff_exists.1 hs
    obtain ⟨ho, rfl, hu⟩ := block?_eq_some_iff.1 h
    obtain ⟨hc, -, -⟩ := untilClosing?_eq_some_iff.1 hu
    exact ⟨a, b.opening, b.content, b.closing, r, ho, hc, rfl⟩
  · rintro ⟨a, tag, m, tag', d, ho, hc, rfl⟩
    exact ⟨_, List.suffix_append a _, isSome_block? ho hc m d⟩

/-- What a part of a text has, the text has. -/
theorem HasBlock.of_infix {name t u : Text} (h : HasBlock name t) (htu : t <:+: u) :
    HasBlock name u := by
  obtain ⟨a, tag, m, tag', d, ho, hc, rfl⟩ := hasBlock_iff.1 h
  obtain ⟨x, y, rfl⟩ := htu
  exact hasBlock_iff.2 ⟨x ++ a, tag, m, tag', d ++ y, ho, hc, by simp only [List.append_assoc]⟩

theorem not_hasBlock_nil (name : Text) : ¬ HasBlock name [] := by
  rintro ⟨s, hs, h⟩
  rw [List.suffix_nil.1 hs, block?_nil] at h
  cases h

/-- A block that does not begin here begins later. -/
theorem HasBlock.of_cons {name t : Text} {c : Char} (h : HasBlock name (c :: t))
    (hc : block? name (c :: t) = none) : HasBlock name t := by
  obtain ⟨s, hs, hb⟩ := h
  rcases List.suffix_cons_iff.1 hs with rfl | hs
  · rw [hc] at hb
    cases hb
  · exact ⟨s, hs, hb⟩

/-- Blocks are taken away and nothing is added. -/
theorem length_strip_le (name t : Text) : (strip name t).length ≤ t.length := by
  rw [strip]
  fun_induction parts name t with
  | case1 t b r h ih =>
    have := length_lt_of_block? h
    rw [List.flatMap_cons, Part.outside, List.nil_append]
    omega
  | case2 => exact Nat.le_refl 0
  | case3 c r h ih =>
    rw [List.flatMap_cons, Part.outside, List.singleton_append, List.length_cons, List.length_cons]
    omega

/-- The texts with a block in them are those that removing blocks changes. -/
theorem hasBlock_iff_strip_ne {name t : Text} : HasBlock name t ↔ strip name t ≠ t := by
  constructor
  · intro h
    -- by length, since behind a block the text goes on much shorter
    induction hn : t.length using Nat.strongRecOn generalizing t with
    | ind n ih =>
      cases hb : block? name t with
      | some x =>
        -- the block is gone, and nothing comes in for it
        have hlt := length_lt_of_block? hb
        have hle := length_strip_le name x.2
        intro e
        rw [strip, parts_of_block hb, List.flatMap_cons, Part.outside, List.nil_append] at e
        rw [← e, ← strip] at hlt
        omega
      | none =>
        cases t with
        | nil => exact absurd h (not_hasBlock_nil name)
        | cons c t =>
          rw [strip, parts_cons_of_none hb]
          intro e
          refine ih t.length ?_ (h.of_cons hb) rfl (List.cons.inj e).2
          rw [← hn]
          exact Nat.lt_succ_self _
  · intro h
    refine Classical.byContradiction fun hno => h (strip_eq_self_of_no_block fun s hs => ?_)
    rw [← Option.not_isSome_iff_eq_none]
    exact fun hb => hno ⟨s, hs, hb⟩

instance (name t : Text) : Decidable (HasBlock name t) :=
  decidable_of_iff _ hasBlock_iff_strip_ne.symm

/-! ## Texts that mention no tag -/

/-- Somewhere in the text, a case variant of the name stands right after the mark. -/
def mentions (mark name : Text) : Text → Bool
  | [] => false
  | c :: t => ((after? mark (c :: t)).bind (afterFold? name)).isSome || mentions mark name t

/-- Where a name is not mentioned behind a mark, none of its spellings is. -/
theorem not_prefix_of_mentions {mark name t n s : Text} (h : mentions mark name t = false)
    (hn : Spells name n) (hs : s ≠ []) (hst : s <:+ t) : ¬ mark ++ n <+: s := by
  induction t with
  | nil => exact absurd (List.suffix_nil.1 hst) hs
  | cons c t ih =>
    simp only [mentions, Bool.or_eq_false_iff] at h
    rcases List.suffix_cons_iff.1 hst with rfl | hst
    · rintro ⟨r, hr⟩
      rw [← hr, List.append_assoc, after?_append, Option.bind_some,
        afterFold?_append hn] at h
      cases h.1
    · exact ih h.2 hst

/-- What is not mentioned in a text is not mentioned in the end of it. -/
theorem mentions_of_suffix {mark name t u : Text} (h : mentions mark name t = false)
    (hut : u <:+ t) : mentions mark name u = false := by
  induction t with
  | nil => exact List.suffix_nil.1 hut ▸ h
  | cons c t ih =>
    rcases List.suffix_cons_iff.1 hut with rfl | hut
    · exact h
    · simp only [mentions, Bool.or_eq_false_iff] at h
      exact ih h.2 hut

/-- A block begins with `<` and a case variant of its name. -/
theorem exists_prefix_of_block? {name t r : Text} {b : Block} (h : block? name t = some (b, r)) :
    ∃ n, Spells name n ∧ '<' :: n <+: t := by
  obtain ⟨⟨n, a, hn, -, -, e⟩, rfl, -⟩ := block?_eq_some_iff.1 h
  refine ⟨n, hn, ?_⟩
  rw [e, List.cons_append, List.cons_prefix_cons, List.append_assoc, List.append_assoc]
  exact ⟨rfl, List.prefix_append n _⟩

/-- No block begins where no case variant of its name follows the `<`. -/
theorem block?_eq_none_of_not_prefix {name t : Text} (h : ∀ n, Spells name n → ¬ '<' :: n <+: t) :
    block? name t = none := by
  rw [← Option.not_isSome_iff_eq_none, Option.isSome_iff_exists]
  rintro ⟨⟨b, r⟩, hb⟩
  obtain ⟨n, hn, hp⟩ := exists_prefix_of_block? hb
  exact h n hn hp

/-- What looks like the beginning of a tag of a word before a `<` lies before it. -/
theorem cons_prefix_of_append_tag {name n s v : Text} (hname : IsWord name) (hn : Spells name n)
    (hs : s ≠ []) (h : '<' :: n <+: s ++ '<' :: v) : '<' :: n <+: s := by
  obtain ⟨c, s, rfl⟩ := List.exists_cons_of_ne_nil hs
  rw [List.cons_append, List.cons_prefix_cons] at h
  exact List.cons_prefix_cons.2
    ⟨h.1, prefix_of_prefix_append_cons (hn.not_mem hname (by decide) (by decide)) h.2⟩

/-! ## Reading characters -/

/-- Characters at which no block begins are parts of their own. -/
theorem parts_append_of_none {name u r : Text}
    (h : ∀ s, s ≠ [] → s <:+ u → block? name (s ++ r) = none) :
    parts name (u ++ r) = u.map Part.char ++ parts name r := by
  induction u with
  | nil => rfl
  | cons c u ih =>
    have hc : block? name (c :: (u ++ r)) = none := h (c :: u) (by simp) (List.suffix_refl _)
    rw [List.cons_append, parts_cons_of_none hc,
      ih fun s hs hsu => h s hs (hsu.trans (List.suffix_cons c u))]
    rfl

/-- Blocks begin at angle brackets only. -/
theorem parts_append_of_not_mem {name u : Text} (h : '<' ∉ u) (r : Text) :
    parts name (u ++ r) = u.map Part.char ++ parts name r := by
  refine parts_append_of_none fun s hs hsu => block?_eq_none_of_not_prefix fun n _ hp => ?_
  obtain ⟨c, s, rfl⟩ := List.exists_cons_of_ne_nil hs
  rw [List.cons_append, List.cons_prefix_cons] at hp
  exact h (hp.1 ▸ hsu.subset (List.mem_cons_self ..))

/-- A text that mentions no opening tag is read as characters before any tag. -/
theorem parts_append_of_mentions {name u : Text} (hname : IsWord name)
    (h : mentions ['<'] name u = false) (v : Text) :
    parts name (u ++ '<' :: v) = u.map Part.char ++ parts name ('<' :: v) := by
  refine parts_append_of_none fun s hs hsu => block?_eq_none_of_not_prefix fun n hn hp => ?_
  exact not_prefix_of_mentions h hn hs hsu (cons_prefix_of_append_tag hname hn hs hp)

end TagBlock

end Showcase

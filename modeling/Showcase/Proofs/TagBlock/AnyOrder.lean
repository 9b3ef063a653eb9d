import Mathlib.Data.List.Induction
import Showcase.Demo.Payload
import Showcase.Proofs.TagBlock.Marked
import Showcase.Proofs.TagBlock.Sharing

/-!
# Blocks of several names, in any order

The blocks of several names are removed name by name, and each name but the first one is searched
for in what the others have left. So the order of the names matters as soon as a block of one name
is in the way of a block of another one: it may take away one of its tags, or bring a tag together
from two pieces.

Removing the blocks of a name from what is left of a marked text agrees with marking them in the
whole text (`strip_left`) if none is *disturbed* (`Undisturbed`): each block of the whole text is
taken away as a whole or keeps both its tags, and the tags of each block that is found in what is
left are tags of the whole text. If this is so whichever names come first (`IsOrderly`), all orders
of the names leave the same text, the one that is in no block of any of the names (`stripAll_perm`).
-/

namespace Showcase.TagBlock

open Text Marked

variable {name : Text}

/-! ## Places -/

/-- The blocks among several parts, each with the text before it. -/
def places : List Part → List (Text × Block)
  | [] => []
  | .char c :: ps => (places ps).map fun x => (c :: x.1, x.2)
  | .block b :: ps => ([], b) :: (places ps).map fun x => (b.text ++ x.1, x.2)

/-- A block among the parts of a text is found where it is said to be. -/
theorem exists_of_mem_places {t : Text} {x : Text × Block} (h : x ∈ places (parts name t)) :
    ∃ r, t = x.1 ++ (x.2.text ++ r) ∧ block? name (x.2.text ++ r) = some (x.2, r) := by
  fun_induction parts name t generalizing x with
  | case1 t b r hb ih =>
    obtain rfl := eq_append_of_block? hb
    rcases List.mem_cons.1 h with rfl | h
    · exact ⟨r, rfl, hb⟩
    · obtain ⟨y, hy, rfl⟩ := List.mem_map.1 h
      obtain ⟨s, rfl, hs⟩ := ih hy
      exact ⟨s, (List.append_assoc ..).symm, hs⟩
  | case2 => cases h
  | case3 c r hb ih =>
    obtain ⟨y, hy, rfl⟩ := List.mem_map.1 h
    obtain ⟨s, rfl, hs⟩ := ih hy
    exact ⟨s, rfl, hs⟩

theorem mem_places_of_block {t r : Text} {b : Block} {x : Text × Block}
    (h : block? name t = some (b, r)) (hx : x ∈ places (parts name r)) :
    (b.text ++ x.1, x.2) ∈ places (parts name t) := by
  rw [parts_of_block h]
  exact List.mem_cons_of_mem _ (List.mem_map_of_mem hx)

theorem mem_places_cons_of_none {t : Text} {c : Char} {x : Text × Block}
    (h : block? name (c :: t) = none) (hx : x ∈ places (parts name t)) :
    (c :: x.1, x.2) ∈ places (parts name (c :: t)) := by
  rw [parts_cons_of_none h]
  exact List.mem_map_of_mem hx

/-! ## Undisturbed blocks -/

/-- The block stands in the marked text behind `a`: its tags are left, each in one piece, and `v` is
what is between them. -/
def Stands (m a v : Marked) (b : Block) : Prop :=
  a ++ (kept b.opening ++ (v ++ kept b.closing)) <+: m

/-- What is marked in the text is not in the way of the blocks of the name. -/
structure Undisturbed (name : Text) (m : Marked) : Prop where
  /-- a block of the whole text is taken away as a whole, or it keeps its tags -/
  spared : ∀ x ∈ places (parts name (text m)),
    left ((m.drop x.1.length).take x.2.text.length) = [] ∨
      ∃ a v, Stands m a v x.2 ∧ text a = x.1 ∧ text v = x.2.content
  /-- the tags of a block that is found in what is left are tags of the whole text -/
  whole : ∀ x ∈ places (parts name (left m)),
    ∃ a v, Stands m a v x.2 ∧ left a = x.1 ∧ left v = x.2.content

/-- The texts of a standing block are found by how long they are; where its opening tag is not left,
there is nothing to look for. -/
theorem exists_stands_iff {m : Marked} {b : Block} {P : Marked → Marked → Prop} :
    (∃ a v, Stands m a v b ∧ P a v) ↔
      ∃ i ∈ List.range (m.length + 1), kept b.opening <+: m.drop i ∧
        ∃ j ∈ List.range (m.length + 1),
          Stands m (m.take i) ((m.drop (i + b.opening.length)).take j) b ∧
            P (m.take i) ((m.drop (i + b.opening.length)).take j) := by
  constructor
  · rintro ⟨a, v, hs, hP⟩
    obtain ⟨d, hd⟩ := id hs
    have hlen := congrArg List.length hd
    simp only [List.length_append] at hlen
    have ha : m.take a.length = a := by simp [← hd]
    have ho : m.drop a.length = kept b.opening ++ (v ++ kept b.closing ++ d) := by simp [← hd]
    have hv : (m.drop (a.length + b.opening.length)).take v.length = v := by
      rw [← List.drop_drop, ho, ← length_kept b.opening, List.drop_left, List.append_assoc,
        List.take_left]
    -- the parts are found again by their lengths
    refine ⟨a.length, List.mem_range.2 (by omega), ho ▸ List.prefix_append _ _, v.length,
      List.mem_range.2 (by omega), ?_⟩
    rw [ha, hv]
    exact ⟨hs, hP⟩
  · rintro ⟨i, -, -, j, -, h⟩
    exact ⟨_, _, h⟩

instance (m : Marked) (b : Block) (P : Marked → Marked → Prop) [∀ a v, Decidable (P a v)] :
    Decidable (∃ a v, Stands m a v b ∧ P a v) :=
  haveI (a v : Marked) : Decidable (Stands m a v b) :=
    inferInstanceAs (Decidable (a ++ (kept b.opening ++ (v ++ kept b.closing)) <+: m))
  decidable_of_iff _ exists_stands_iff.symm

instance (name : Text) (m : Marked) : Decidable (Undisturbed name m) :=
  decidable_of_iff (_ ∧ _) ⟨fun h => ⟨h.1, h.2⟩, fun h => ⟨h.spared, h.whole⟩⟩

/-- As long as nothing is taken away, nothing is disturbed. -/
theorem undisturbed_kept (name t : Text) : Undisturbed name (kept t) := by
  have key (x : Text × Block) (hx : x ∈ places (parts name t)) :
      Stands (kept t) (kept x.1) (kept x.2.content) x.2 := by
    obtain ⟨r, e, -⟩ := exists_of_mem_places hx
    exact ⟨kept r, by rw [e]; simp [Block.text]⟩
  constructor
  · intro x hx
    rw [text_kept] at hx
    exact .inr ⟨_, _, key x hx, text_kept _, text_kept _⟩
  · intro x hx
    rw [left_kept] at hx
    exact ⟨_, _, key x hx, left_kept _, left_kept _⟩

/-- Nothing is left before a character that is left only if nothing is before it. -/
theorem eq_nil_of_left_eq_nil {a m : Marked} {c : Char} (hp : a <+: (c, false) :: m)
    (h : left a = []) : a = [] := by
  cases a with
  | nil => rfl
  | cons x a =>
    obtain ⟨rfl, -⟩ := List.cons_prefix_cons.1 hp
    cases h

/-- A closing tag of what is left does not begin before the first one of the whole text, if it is a
tag of the whole text. -/
theorem eq_nil_of_closing {z r : Marked} {closing closing' : Text} (hc' : IsClosing name closing')
    (hp : kept closing' <+: z ++ (kept closing ++ r))
    (hfirst : text z ≠ [] → closing? name (text z ++ (closing ++ text r)) = none) : z = [] := by
  refine Classical.byContradiction fun hz => ?_
  have htag := prefix_text hp
  rw [text_append, text_append, text_kept, text_kept] at htag
  have hsome := closing?_isSome_iff.2 ⟨closing', hc', htag⟩
  rw [hfirst (mt text_eq_nil.1 hz)] at hsome
  cases hsome

/-- A closing tag that is left does not begin before the first one of what is left. -/
theorem eq_nil_of_closing_left {z r : Marked} {closing closing' : Text}
    (hc : IsClosing name closing) (hp : z ++ kept closing' <+: kept closing ++ r)
    (hfirst : left z ≠ [] → closing? name (closing ++ left r) = none) : z = [] := by
  refine Classical.byContradiction fun hz => ?_
  have hnil : left z ≠ [] := by
    obtain ⟨n, w, -, -, hcons⟩ := hc
    rw [hcons, kept_cons, List.cons_append] at hp
    exact mt (eq_nil_of_left_eq_nil ((List.prefix_append z _).trans hp)) hz
  have hnone := hfirst hnil
  rw [closing?_complete hc] at hnone
  cases hnone

/-- The first closing tag of the whole text is the first one of what is left, if that is a tag of
the whole text. -/
theorem untilClosing?_left {v r : Marked} {closing : Text} (hc : IsClosing name closing)
    (hfirst : ∀ s, s ≠ [] → s <:+ text v → closing? name (s ++ (closing ++ text r)) = none)
    (hwhole : ∀ content closing' r',
      untilClosing? name (left v ++ (closing ++ left r)) = some (content, closing', r') →
        ∃ v', v' ++ kept closing' <+: v ++ (kept closing ++ r) ∧ left v' = content) :
    untilClosing? name (left v ++ (closing ++ left r)) = some (left v, closing, left r) := by
  have hsome : (untilClosing? name (left v ++ (closing ++ left r))).isSome = true :=
    untilClosing?_isSome_iff.2 ⟨_, _, _, hc, rfl⟩
  obtain ⟨⟨content, closing', r'⟩, hu⟩ := Option.isSome_iff_exists.1 hsome
  obtain ⟨v', hp, rfl⟩ := hwhole _ _ _ hu
  obtain ⟨hc', e, hfirst'⟩ := untilClosing?_eq_some_iff.1 hu
  -- the texts before the two tags begin at the same place, and neither goes further
  obtain rfl : v' = v := by
    rcases List.prefix_or_prefix_of_prefix ((List.prefix_append v' _).trans hp)
      (List.prefix_append v _) with ⟨z, rfl⟩ | ⟨z, rfl⟩
    · rw [List.append_assoc, List.prefix_append_right_inj] at hp
      rw [eq_nil_of_closing hc' hp fun hz => hfirst (text z) hz (by simp), List.append_nil]
    · rw [List.append_assoc, List.prefix_append_right_inj] at hp
      rw [left_append, List.append_assoc, List.append_cancel_left_eq] at e
      rw [eq_nil_of_closing_left hc hp fun hz => e ▸ hfirst' (left z) hz (by simp),
        List.append_nil]
  have hread := closing?_complete hc (left r)
  rw [List.append_cancel_left_eq] at e
  rw [e, closing?_complete hc'] at hread
  cases hread
  exact hu

namespace Undisturbed

variable {m : Marked}

/-- The block at the beginning of what is left. -/
theorem exists_of_block? {r : Text} {b : Block} (h : Undisturbed name m)
    (hb : block? name (left m) = some (b, r)) :
    ∃ a v, Stands m a v b ∧ left a = [] ∧ left v = b.content := by
  refine h.whole ([], b) ?_
  rw [parts_of_block hb]
  exact List.mem_cons_self ..

/-- The block at the beginning of the whole text. -/
theorem spared_head {r : Text} {b : Block} (h : Undisturbed name m)
    (hb : block? name (text m) = some (b, r)) :
    left (m.take b.text.length) = [] ∨
      ∃ v, kept b.opening ++ (v ++ kept b.closing) <+: m ∧ text v = b.content := by
  have hmem : ([], b) ∈ places (parts name (text m)) := by
    rw [parts_of_block hb]
    exact List.mem_cons_self ..
  rcases h.spared _ hmem with hnil | ⟨a, v, hs, ha, hv⟩
  · exact .inl hnil
  · obtain rfl := text_eq_nil.1 ha
    exact .inr ⟨v, hs, hv⟩

/-- Where no block begins in the whole text, none begins in what is left. -/
theorem block?_left_eq_none {c : Char} (h : Undisturbed name ((c, false) :: m))
    (hb : block? name (text ((c, false) :: m)) = none) : block? name (c :: left m) = none := by
  rcases hl : block? name (c :: left m) with _ | ⟨b, r⟩
  · rfl
  · obtain ⟨a, v, hs, ha, -⟩ := h.exists_of_block? hl
    obtain rfl := eq_nil_of_left_eq_nil ((List.prefix_append _ _).trans hs) ha
    obtain ⟨ho, -, hu⟩ := block?_eq_some_iff.1 hl
    obtain ⟨hc, -, -⟩ := untilClosing?_eq_some_iff.1 hu
    obtain ⟨d, hd⟩ := hs
    have htext : text ((c, false) :: m) = b.opening ++ (text v ++ (b.closing ++ text d)) := by
      simp [← hd]
    have hsome := isSome_block? ho hc (text v) (text d)
    rw [← htext, hb] at hsome
    cases hsome

/-- A block that keeps its tags is found in what is left. -/
theorem block?_left {r v : Marked} {b : Block}
    (hm : m = kept b.opening ++ (v ++ (kept b.closing ++ r))) (h : Undisturbed name m)
    (hv : text v = b.content) (hb : block? name (text m) = some (b, text r)) :
    block? name (left m) = some (⟨b.opening, left v, b.closing⟩, left r) := by
  obtain ⟨ho, -, hu⟩ := block?_eq_some_iff.1 hb
  obtain ⟨hc, -, hfirst⟩ := untilClosing?_eq_some_iff.1 hu
  have hleft : left m = b.opening ++ (left v ++ (b.closing ++ left r)) := by simp [hm]
  rw [hleft]
  -- the opening tag stays; the closing one is still the first, for marks make no new block
  refine block?_eq_some_iff.2 ⟨ho, rfl, untilClosing?_left hc ?_ ?_⟩
  · rwa [hv]
  · intro content closing r' hu
    have hb : block? name (left m) = some (⟨b.opening, content, closing⟩, r') := by
      obtain ⟨-, e, -⟩ := untilClosing?_eq_some_iff.1 hu
      rw [hleft, e]
      rw [e] at hu
      exact block?_eq_some_iff.2 ⟨ho, rfl, hu⟩
    obtain ⟨a, v', hs, ha, hv'⟩ := h.exists_of_block? hb
    obtain rfl : a = [] := by
      obtain ⟨n, w, -, -, -, ho⟩ := ho
      rw [hm, ho, kept_cons] at hs
      exact eq_nil_of_left_eq_nil ((List.prefix_append a _).trans hs) ha
    rw [Stands, hm, List.nil_append, List.prefix_append_right_inj] at hs
    exact ⟨v', hs, hv'⟩

/-- What follows a place is undisturbed if the blocks behind it are found from there on as well. -/
theorem of_append {x : Marked} (h : Undisturbed name (x ++ m))
    (htext : ∀ y ∈ places (parts name (text m)),
      (text x ++ y.1, y.2) ∈ places (parts name (text (x ++ m))))
    (hleft : ∀ y ∈ places (parts name (left m)),
      (left x ++ y.1, y.2) ∈ places (parts name (left (x ++ m)))) : Undisturbed name m where
  spared y hy := by
    rcases h.spared _ (htext y hy) with hnil | ⟨a, v, hs, ha, hv⟩
    · rw [List.length_append, length_text, List.drop_append, List.drop_eq_nil_of_le
        (Nat.le_add_right ..), List.nil_append, Nat.add_sub_cancel_left] at hnil
      exact .inl hnil
    · have hlen : x.length ≤ a.length := by
        rw [← length_text, ← length_text a, ha, List.length_append]
        exact Nat.le_add_right ..
      obtain ⟨a, rfl⟩ := List.prefix_of_prefix_length_le (List.prefix_append x m)
        ((List.prefix_append a _).trans hs) hlen
      rw [Stands, List.append_assoc, List.prefix_append_right_inj] at hs
      rw [text_append, List.append_cancel_left_eq] at ha
      exact .inr ⟨a, v, hs, ha, hv⟩
  whole y hy := by
    obtain ⟨a, v, hs, ha, hv⟩ := h.whole _ (hleft y hy)
    obtain ⟨a, rfl⟩ : x <+: a := by
      rcases List.prefix_or_prefix_of_prefix (List.prefix_append x m)
        ((List.prefix_append a _).trans hs) with hx | ⟨z, rfl⟩
      · exact hx
      · -- the block begins with a character that is left, so it does not begin before `z`
        rw [left_append, List.append_assoc, List.self_eq_append_right, List.append_eq_nil_iff] at ha
        obtain ⟨r, -, hb⟩ := exists_of_mem_places (hleft y hy)
        obtain ⟨⟨n, w, -, -, -, ho⟩, -, -⟩ := block?_eq_some_iff.1 hb
        rw [Stands, List.append_assoc, List.prefix_append_right_inj, ho, kept_cons,
          List.cons_append] at hs
        obtain ⟨d, hd⟩ := hs
        have hz := eq_nil_of_left_eq_nil (hd ▸ List.prefix_append z m) ha.1
        exact ⟨[], by rw [hz, List.append_nil, List.append_nil]⟩
    rw [Stands, List.append_assoc, List.prefix_append_right_inj] at hs
    rw [left_append, List.append_cancel_left_eq] at ha
    exact ⟨a, v, hs, ha, hv⟩

end Undisturbed

/-- **Removing the blocks of a name from what is left is marking them in the whole text**, if none
is disturbed. The induction is on the marked text, which is read along with what is left of it. -/
theorem strip_left {m : Marked} (h : Undisturbed name m) :
    strip name (left m) = left (mark name m) := by
  induction hn : m.length using Nat.strongRecOn generalizing m with
  | ind n ih =>
  subst hn
  rcases hb : block? name (text m) with _ | ⟨b, r⟩
  · cases m with
    | nil => exact congrArg _ (parts_nil name)
    | cons x m =>
      rw [mark_cons_of_none hb]
      obtain ⟨c, _ | _⟩ := x
      · -- a character that is left: what is left is read there in the same way
        have hl := h.block?_left_eq_none hb
        have hm : Undisturbed name m :=
          h.of_append (x := [(c, false)]) (fun _ => mem_places_cons_of_none hb)
            fun _ => mem_places_cons_of_none hl
        rw [left_cons_false, left_cons_false, strip_cons_of_none hl,
          ih m.length (Nat.lt_succ_self _) hm rfl]
      · -- a character that is taken away
        have hm : Undisturbed name m :=
          h.of_append (x := [(c, true)]) (fun _ => mem_places_cons_of_none hb) fun _ hy => hy
        exact ih m.length (Nat.lt_succ_self _) hm rfl
  · obtain ⟨x, m, rfl, hx, rfl⟩ := exists_of_text_eq_append (eq_append_of_block? hb)
    have hlen : m.length < (x ++ m).length := by
      have := length_text_pos hb
      rw [← hx, length_text] at this
      rw [List.length_append]
      omega
    have htext : ∀ y ∈ places (parts name (text m)),
        (text x ++ y.1, y.2) ∈ places (parts name (text (x ++ m))) := by
      intro y hy
      rw [hx]
      exact mem_places_of_block hb hy
    rw [left_mark_of_block hx hb]
    rcases h.spared_head hb with hnil | ⟨v, hp, hv⟩
    · -- a block that is taken away
      rw [← hx, length_text, List.take_left] at hnil
      have hm := h.of_append htext fun y hy => by rwa [hnil, left_append, hnil]
      rw [left_append, hnil]
      exact ih m.length hlen hm rfl
    · -- a block that keeps its tags
      obtain rfl := eq_of_prefix hp (by simp [hv, hx, Block.text])
      have hl := h.block?_left (by simp) hv hb
      have hm := h.of_append htext fun y hy => by
        simpa [Block.text] using mem_places_of_block hl hy
      rw [strip_of_block hl]
      exact ih m.length hlen hm rfl

/-! ## All names -/

/-- Whichever names come first, their blocks do not disturb those of the next name. -/
def IsOrderly (names : List Text) (t : Text) : Prop :=
  ∀ first name rest, (first ++ name :: rest).Perm names → Undisturbed name (markAll first t)

/-- For two names there are two things to be looked at. -/
theorem isOrderly_pair_iff {p q t : Text} :
    IsOrderly [p, q] t ↔ Undisturbed q (mark p (kept t)) ∧ Undisturbed p (mark q (kept t)) := by
  constructor
  · intro h
    exact ⟨h [p] q [] (List.Perm.refl _), h [q] p [] (List.Perm.swap p q [])⟩
  · rintro ⟨hq, hp⟩ first name rest hperm
    -- of two names, none or one precedes the name that is looked at
    rcases first with _ | ⟨a, _ | ⟨b, first⟩⟩
    · exact undisturbed_kept name t
    · obtain rfl : rest = [] := by simpa using hperm.length_eq
      have ha : a = p ∨ a = q := by simpa using hperm.subset (List.mem_cons_self ..)
      rcases ha with rfl | rfl
      · obtain rfl := List.singleton_perm_singleton.1 ((List.perm_cons _).1 hperm)
        exact hq
      · obtain rfl :=
          List.singleton_perm_singleton.1 ((List.perm_cons _).1 (hperm.trans (.swap ..)))
        exact hp
    · simpa using hperm.length_eq

theorem stripAll_concat (names : List Text) (name t : Text) :
    stripAll (names ++ [name]) t = strip name (stripAll names t) := by
  rw [stripAll, List.foldl_append]
  rfl

theorem stripAll_eq_left {names first rest : List Text} {t : Text} (h : IsOrderly names t)
    (hp : (first ++ rest).Perm names) : stripAll first t = left (markAll first t) := by
  induction first using List.reverseRecOn generalizing rest with
  | nil => exact (left_kept t).symm
  | append_singleton first name ih =>
    rw [List.append_assoc, List.singleton_append] at hp
    rw [stripAll_concat, markAll_concat, ih hp, strip_left (h first name rest hp)]

/-- **Blocks of several names are removed in any order**, if none is in the way of another one: what
is left is the text that is in no block of any of the names. -/
theorem stripAll_perm {names names' : List Text} {t : Text} (h : IsOrderly names t)
    (hp : names'.Perm names) :
    stripAll names' t = stripAll names t ∧ stripAll names t = left (markAll names t) := by
  have key {ns : List Text} (hns : ns.Perm names) : stripAll ns t = left (markAll names t) := by
    have hall : (ns ++ []).Perm names := by rwa [List.append_nil]
    rw [← markAll_perm hns t, stripAll_eq_left h hall]
  exact ⟨(key hp).trans (key (List.Perm.refl names)).symm, key (List.Perm.refl names)⟩

/-- A block of one name beside a block of another one, which has a block of the first name in it. -/
def nestedBody : Text :=
  "<style>a</style><p>b</p><script>'<style>c</style>'</script>".toList

theorem stripAll_nestedBody :
    (IsOrderly [Payload.scriptTag, Payload.styleTag] nestedBody ∧
      [Payload.styleTag, Payload.scriptTag].Perm [Payload.scriptTag, Payload.styleTag]) ∧
    (stripAll [Payload.styleTag, Payload.scriptTag] nestedBody =
        stripAll [Payload.scriptTag, Payload.styleTag] nestedBody ∧
      stripAll [Payload.scriptTag, Payload.styleTag] nestedBody =
        left (markAll [Payload.scriptTag, Payload.styleTag] nestedBody)) ∧
    left (markAll [Payload.scriptTag, Payload.styleTag] nestedBody) = "<p>b</p>".toList := by
  have h : IsOrderly [Payload.scriptTag, Payload.styleTag] nestedBody :=
    isOrderly_pair_iff.2 (by decide +kernel)
  have hp : [Payload.styleTag, Payload.scriptTag].Perm [Payload.scriptTag, Payload.styleTag] :=
    .swap ..
  exact ⟨⟨h, hp⟩, stripAll_perm h hp, by decide +kernel⟩

/-- A style sheet with an opening tag of a script in a comment, markup, and a script. -/
def commentBody : Text :=
  "<style>/* <script> */</style><p>a</p><script></script>".toList

/-- The order of the names matters: searched for first, the scripts begin in the comment, and the
closing tag of the style sheet is taken away with the markup. -/
theorem stripAll_commentBody :
    stripAll [Payload.scriptTag, Payload.styleTag] commentBody = "<style>/* ".toList ∧
      stripAll [Payload.styleTag, Payload.scriptTag] commentBody = "<p>a</p>".toList := by
  constructor <;> decide +kernel

end Showcase.TagBlock

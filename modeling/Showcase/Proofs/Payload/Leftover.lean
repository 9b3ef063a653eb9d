import Showcase.Proofs.EmptyAttribute.Drops
import Showcase.Proofs.HexReference.Border
import Showcase.Proofs.Payload.Splitting
import Showcase.Proofs.TagBlock.Seam
import Showcase.Proofs.TagBlock.Survival

/-!
# Blocks that are left over

The markup of a payload goes through three stages, and each of them may bring a block to life in a
text that had none:

* when a block is removed, the texts around it may make up a new one, across the seam;
* a character that is restored from its reference may be the `<` of a tag;
* a dropped assignment may leave a tag with a bare name.

None of the later stages destroys a block (`HasBlock.restore`, `HasBlock.drop`). So there is a block
left in the markup exactly if one of the stages has brought one to life (`hasBlock_html_iff`).
-/

namespace Showcase

open Text TagBlock

/-! ## Stages that keep blocks -/

theorem TagBlock.IsSolid.isFirm {w : Text} (h : IsSolid w) :
    HexReference.IsFirm (HexReference.points w) := by
  obtain ⟨⟨c, s, rfl, hc⟩, hw⟩ := h
  refine ⟨⟨c.toNat, HexReference.points s, rfl, ?_⟩, fun hmem => ?_⟩
  · rcases hc with rfl | rfl <;> rfl
  · obtain ⟨d, hd, e⟩ := List.mem_map.1 hmem
    obtain rfl : d = '&' := by rw [← Char.ofNat_toNat d, e]
    exact hw '&' (by decide) hd

/-- Restoring characters destroys no block. -/
theorem TagBlock.HasBlock.restore {name t : Text} (hname : IsWord name) (h : HasBlock name t) :
    HasBlock name (HexReference.restore t) := by
  refine h.of_keeps (R := fun t s => s = HexReference.restore t) hname (fun w hw t u s hs => ?_) rfl
  exact ⟨_, _, hs.trans (HexReference.restore_append hw.isFirm t u), rfl, rfl⟩

/-- Dropping empty assignments destroys no block. -/
theorem TagBlock.HasBlock.drop {name t : Text} (hname : IsWord name) (h : HasBlock name t) :
    HasBlock name (EmptyAttribute.drop t) := by
  refine h.of_keeps hname (fun w hw t u s hs => ?_) (EmptyAttribute.drops_drop t)
  obtain ⟨⟨c, r, rfl, -⟩, hw⟩ := hw
  exact hs.append_inv (List.cons_ne_nil c r) (hw '=' (by decide)) (hw '"' (by decide))

namespace Payload

/-! ## What is left of a source -/

theorem isWord_of_mem_tags {name : Text} (h : name ∈ tags) : IsWord name := by
  rcases List.mem_cons.1 h with rfl | h
  · exact isWord_scriptTag
  · obtain rfl := List.mem_singleton.1 h
    exact isWord_styleTag

/-- The source with its script blocks, and then its style blocks, cut out. -/
def sewn (body : Text) : Sewn := cut styleTag (cut scriptTag (Sewn.whole body))

theorem text_sewn (body : Text) : (sewn body).text = stripAll tags body := by
  rw [sewn, text_cut, text_cut, Sewn.text_whole]
  rfl

/-- What is left of a source has no block in it but across seams. -/
theorem not_hasBlock_of_sewn {name body w : Text} (hname : name ∈ tags)
    (h : Sewn.Stretch (sewn body) w) : ¬ HasBlock name w := by
  rcases List.mem_cons.1 hname with rfl | hname
  · exact not_hasBlock_of_stretch isWord_scriptTag (stretch_of_cut h)
  · obtain rfl := List.mem_singleton.1 hname
    exact not_hasBlock_of_stretch isWord_styleTag h

/-- The text has a block of the name, although it was made of texts that have none. -/
def Awakens (name : Text) (before : Text → Prop) (after : Text) : Prop :=
  (∀ w, before w → ¬ HasBlock name w) ∧ HasBlock name after

/-- **Which blocks are left in the markup**: those that one of the stages has brought to life. The
first stage makes its text of the stretches between the seams. -/
theorem hasBlock_html_iff (body : Text) {name : Text} (hname : name ∈ tags) :
    (sewn body).text = stripAll tags body ∧
    (HasBlock name (ofBody body).html ↔
      Awakens name (Sewn.Stretch (sewn body)) (stripAll tags body) ∨
      Awakens name (· = stripAll tags body) (HexReference.restore (stripAll tags body)) ∨
      Awakens name (· = HexReference.restore (stripAll tags body)) (ofBody body).html) := by
  have hword := isWord_of_mem_tags hname
  have hhtml : (ofBody body).html =
      EmptyAttribute.drop (HexReference.restore (stripAll tags body)) := rfl
  refine ⟨text_sewn body, ?_⟩
  constructor
  · intro h
    -- there is a first step after which the HTML has a block; conversely, no later step takes it
    -- away
    by_cases hv : HasBlock name (HexReference.restore (stripAll tags body))
    · by_cases hu : HasBlock name (stripAll tags body)
      · exact Or.inl ⟨fun w hw => not_hasBlock_of_sewn hname hw, hu⟩
      · exact Or.inr (Or.inl ⟨fun w hw => hw ▸ hu, hv⟩)
    · exact Or.inr (Or.inr ⟨fun w hw => hw ▸ hv, h⟩)
  · rintro (⟨-, h⟩ | ⟨-, h⟩ | ⟨-, h⟩)
    · rw [hhtml]
      exact (h.restore hword).drop hword
    · rw [hhtml]
      exact h.drop hword
    · exact h

/-- The halves of a script block come together when the block between them is removed. -/
theorem halves_awaken_script :
    scriptTag ∈ tags ∧
      HasBlock scriptTag (ofBody "<scr<script>a</script>ipt>b</script>".toList).html :=
  ⟨by decide, (hasBlock_html_iff _ (by decide)).2.2 (Or.inl
    ⟨fun _ hw => not_hasBlock_of_sewn (by decide) hw, by decide +kernel⟩)⟩

/-- A script block comes out of a text in which nothing is removed. -/
theorem reference_awakens_script :
    HasBlock scriptTag (ofBody "&#x003C;script>x</script>".toList).html := by
  decide +kernel

end Payload

end Showcase

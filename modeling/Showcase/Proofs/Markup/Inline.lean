import Showcase.Markup.Inline.Reader

/-!
# What is read in a paragraph

Inline content is gathered piece by piece and then paired up where marks emphasise. A property of
pieces holds of whatever is read if it holds of those without content, and passes from the content
to the piece around it (`Dialect.Gives`). What a dialect does not have needs no thought: raw HTML
and struck text.

* Raw HTML is read in one place only (`gives_atom?`), and gathering words makes no other pieces
  (`gives_scan`).
* Only a run of tildes strikes text through, and such runs are read only where the dialect says so
  (`Piece.Gives`).

Main statement: `Inline.forall_mem_read`.
-/

namespace Showcase

/-- A property that pieces of inline content have if a dialect is all that they are read by. -/
structure Dialect.Gives (d : Dialect) (P : Inline → Prop) : Prop where
  text : ∀ t, P (.text t)
  special : ∀ t, P (.special t)
  softBreak : P .softBreak
  hardBreak : P .hardBreak
  code : ∀ t, P (.code t)
  html : d.html = true → ∀ t, P (.html t)
  emphasis : ∀ mark content, (∀ i ∈ content, P i) → P (.emphasis mark content)
  strong : ∀ mark content, P (.emphasis mark content) → P (.strong content)
  strike : d.strikes = true → ∀ content, (∀ i ∈ content, P i) → P (.strike content)
  link : ∀ target content, (∀ i ∈ content, P i) → P (.link target content)
  image : ∀ target content, (∀ i ∈ content, P i) → P (.image target content)

namespace Inline

variable {d : Dialect} {P : Inline → Prop}

/-! ## Emphasis -/

/-- Tildes count only where the dialect has struck text. -/
def MayMark (d : Dialect) (mark : Char) : Prop := mark = '~' → d.strikes = true

/-- Emphasis gives what its content gives, and its own mark. -/
theorem gives_wrap (h : d.Gives P) {mark : Char} (hmark : MayMark d mark) {content : List Inline}
    (hcontent : ∀ i ∈ content, P i) : ∀ i ∈ wrap mark content, P i := by
  rw [wrap.eq_def]
  split
  · next htilde =>
    -- of an odd number of tildes, one stays text
    have hstrike (c : List Inline) (hc : ∀ i ∈ c, P i) : P (.strike c.reverse) :=
      h.strike (hmark htilde) _ fun i hi => hc i (List.mem_reverse.1 hi)
    split
    · exact List.forall_mem_cons.2 ⟨h.text _, List.forall_mem_singleton.2
        (hstrike _ (List.forall_mem_cons.1 hcontent).2)⟩
    · exact List.forall_mem_singleton.2 (hstrike _ hcontent)
  · split
    · split
      · exact List.forall_mem_singleton.2 (h.strong _ _ (List.forall_mem_singleton.1 hcontent))
      · exact List.forall_mem_singleton.2 (h.emphasis _ _ hcontent)
    · exact List.forall_mem_singleton.2
        (h.emphasis _ _ fun i hi => hcontent i (List.mem_reverse.1 hi))

/-- What is on the stack of openers and after it has the property. -/
structure Nesting.Gives (n : Nesting) (P : Inline → Prop) : Prop where
  openers : ∀ o ∈ n.openers, ∀ i ∈ o.before, P i
  content : ∀ i ∈ n.content, P i

/-- An opener that finds no partner becomes text. -/
theorem gives_unpaired (h : d.Gives P) {o : Opener} (ho : ∀ i ∈ o.before, P i)
    {content : List Inline} (hcontent : ∀ i ∈ content, P i) :
    ∀ i ∈ content ++ .text (unitText o.mark) :: o.before, P i :=
  List.forall_mem_append.2 ⟨hcontent, List.forall_mem_cons.2 ⟨h.text _, ho⟩⟩

/-- Closing an opener wraps what came after it. -/
theorem gives_close? (h : d.Gives P) {r : Run} (hr : MayMark d r.mark) {os : List Opener}
    {content : List Inline} {n : Nesting} (hn : close? r os content = some n)
    (hos : ∀ o ∈ os, ∀ i ∈ o.before, P i) (hcontent : ∀ i ∈ content, P i) : n.Gives P := by
  induction os generalizing content with
  | nil => cases hn
  | cons o os ih =>
    obtain ⟨ho, hos⟩ := List.forall_mem_cons.1 hos
    rw [close?] at hn
    split at hn
    · cases hn
      exact ⟨hos, List.forall_mem_append.2 ⟨gives_wrap h hr hcontent, ho⟩⟩
    · exact ih hn hos (gives_unpaired h ho hcontent)

theorem gives_push (r : Run) (k : Nat) {n : Nesting} (hn : n.Gives P) : (push r k n).Gives P := by
  induction k generalizing n with
  | zero => exact hn
  | succ k ih =>
    exact ih ⟨List.forall_mem_cons.2 ⟨hn.content, hn.openers⟩,
      fun i hi => absurd hi List.not_mem_nil⟩

theorem gives_plain (h : d.Gives P) (r : Run) (k : Nat) {n : Nesting} (hn : n.Gives P) :
    (plain r k n).Gives P := by
  refine ⟨hn.openers, List.forall_mem_append.2 ⟨fun i hi => ?_, hn.content⟩⟩
  rw [List.eq_of_mem_replicate hi]
  exact h.text _

theorem gives_openUnits (h : d.Gives P) (r : Run) (k : Nat) {n : Nesting} (hn : n.Gives P) :
    (openUnits r k n).Gives P := by
  rw [openUnits]
  split
  · exact gives_push r k hn
  · exact gives_plain h r k hn

theorem gives_closeUnits (h : d.Gives P) {r : Run} (hr : MayMark d r.mark) (k : Nat) {n : Nesting}
    (hn : n.Gives P) : (closeUnits r k n).Gives P := by
  induction k generalizing n with
  | zero => exact hn
  | succ k ih =>
    rw [closeUnits]
    split
    · next m hm => exact ih (gives_close? h hr hm hn.openers hn.content)
    · exact gives_openUnits h r (k + 1) hn

theorem gives_withOdd (h : d.Gives P) (r : Run) {n : Nesting} (hn : n.Gives P) :
    (withOdd r n).Gives P := by
  rw [withOdd]
  split
  · exact ⟨hn.openers, List.forall_mem_cons.2 ⟨h.text _, hn.content⟩⟩
  · exact hn

/-- The piece has the property, or is a run that the dialect has. -/
def Piece.Gives (d : Dialect) (P : Inline → Prop) : Piece → Prop
  | .node i => P i
  | .run r => MayMark d r.mark

/-- **A step of nesting gives only what its piece gives.** -/
theorem gives_step (h : d.Gives P) {n : Nesting} (hn : n.Gives P) {p : Piece} (hp : p.Gives d P) :
    (step n p).Gives P := by
  cases p with
  | node i => exact ⟨hn.openers, List.forall_mem_cons.2 ⟨hp, hn.content⟩⟩
  | run r =>
    have hodd := gives_withOdd h r hn
    rw [step]
    split
    · exact gives_closeUnits h hp _ hodd
    · exact gives_openUnits h r _ hodd

/-- Openers that were never closed are taken as text. -/
theorem gives_settle (h : d.Gives P) {os : List Opener} {content : List Inline}
    (hos : ∀ o ∈ os, ∀ i ∈ o.before, P i) (hcontent : ∀ i ∈ content, P i) :
    ∀ i ∈ settle os content, P i := by
  induction os generalizing content with
  | nil => exact hcontent
  | cons o os ih =>
    obtain ⟨ho, hos⟩ := List.forall_mem_cons.1 hos
    exact ih hos (gives_unpaired h ho hcontent)

/-- **Resolving emphasis** keeps the property. -/
theorem gives_resolve (h : d.Gives P) {ps : List Piece} (hps : ∀ p ∈ ps, p.Gives d P) :
    ∀ i ∈ resolve ps, P i := by
  -- the induction is on the pieces, for every state that they may be met in
  have hfold : ∀ (ps : List Piece) (n : Nesting), n.Gives P → (∀ p ∈ ps, p.Gives d P) →
      (ps.foldl step n).Gives P := by
    intro ps
    induction ps with
    | nil => exact fun n hn _ => hn
    | cons p ps ih =>
      intro n hn hps
      obtain ⟨hp, hps⟩ := List.forall_mem_cons.1 hps
      exact ih (step n p) (gives_step h hn hp) hps
  have hempty : Nesting.Gives ⟨[], []⟩ P :=
    ⟨fun o ho => absurd ho List.not_mem_nil, fun i hi => absurd hi List.not_mem_nil⟩
  have hn := hfold ps _ hempty hps
  intro i hi
  exact gives_settle h hn.openers hn.content i (List.mem_reverse.1 hi)

/-! ## Reading -/

/-- A link that is written bare gives a link and a text. -/
theorem gives_autolink? (h : d.Gives P) {standIn : Nat → Char} {t r : Text} {i : Inline}
    (hi : autolink? standIn t = some (i, r)) : P i := by
  have hlink {destination shown : Text} {r' : Text}
      (hi : (bareLink? standIn destination shown).map (fun i => (i, r')) = some (i, r)) : P i := by
    obtain ⟨j, hj, e⟩ := Option.map_eq_some_iff.1 hi
    cases e
    obtain ⟨url, -, rfl⟩ := Option.map_eq_some_iff.1 hj
    exact h.link _ _ (List.forall_mem_singleton.2 (h.text _))
  rw [autolink?] at hi
  dsimp only at hi
  split at hi
  · split at hi
    · exact hlink hi
    · split at hi
      · exact hlink hi
      · cases hi
  · cases hi

/-- Raw HTML is given only by a dialect that reads it. -/
theorem gives_rawHtml? (h : d.Gives P) {t r : Text} {i : Inline}
    (hi : rawHtml? d t = some (i, r)) : P i := by
  rw [rawHtml?] at hi
  split at hi
  · next hhtml =>
    obtain ⟨x, -, e⟩ := Option.map_eq_some_iff.1 hi
    cases e
    exact h.html hhtml _
  · cases hi

/-- **Atoms.** Raw HTML is one where the dialect has it. -/
theorem gives_atom? (h : d.Gives P) {standIn : Nat → Char} {t r : Text} {i : Inline}
    (hi : atom? d standIn t = some (i, r)) : P i := by
  rw [atom?.eq_def] at hi
  split at hi
  · cases hi
    exact h.hardBreak
  · cases hi
    exact h.special _
  · obtain ⟨x, -, e⟩ := Option.map_eq_some_iff.1 hi
    cases e
    exact h.code _
  · next t =>
    cases hlink : autolink? standIn t with
    | none =>
      rw [hlink] at hi
      exact gives_rawHtml? h hi
    | some x =>
      rw [hlink] at hi
      cases hi
      exact gives_autolink? h hlink
  · obtain ⟨x, -, e⟩ := Option.map_eq_some_iff.1 hi
    cases e
    exact h.special _
  · cases hi

/-- A way to read labels keeps the property. -/
def Reading.Gives (read : Reading) (P : Inline → Prop) : Prop :=
  ∀ depth skips place before t, ∀ i ∈ read depth skips place before t, P i

/-- The token has the property if it is a construct, and is one of the dialect's runs if it is a
run. -/
def Token.Gives (d : Dialect) (P : Inline → Prop) : Token → Prop
  | .node i _ => P i
  | .run r => MayMark d r.mark
  | _ => True

variable {ctx : Context}

/-- Tokens without content of their own give what their dialect does. -/
theorem gives_simpleToken (h : ctx.dialect.Gives P) (before c : Char) (t : Text) :
    (simpleToken ctx before c t).Gives ctx.dialect P := by
  rw [simpleToken]
  split
  · next hc =>
    have hmark : (runAt before c (c :: t)).mark = c := rfl
    intro htilde
    rw [hmark] at htilde
    subst htilde
    have htildes : ctx.dialect.strikes = true ∧ t.head? = some '~' := by simpa using hc
    exact htildes.1
  · split
    · next i r hi => exact gives_atom? h hi
    · trivial

/-- A token gives what is given inside of it. -/
theorem gives_token (h : ctx.dialect.Gives P) {read : Reading} (hread : read.Gives P)
    (depth : Nat) (before : Char) (place : Nat) (skips : Skips) (c : Char) (t : Text) :
    (token ctx read depth before place skips c t).1.Gives ctx.dialect P := by
  -- one split for each way in which a token may begin; only links and images read further content
  rw [token.eq_def]
  split
  · trivial
  split
  · trivial
  split
  · split
    · exact h.link _ _ (hread _ _ _ _ _)
    · trivial
  split
  · split
    · split
      · exact h.image _ _ (hread _ _ _ _ _)
      · trivial
    · trivial
  split
  · exact gives_simpleToken h before c t
  · trivial

/-- The words before a token are text. -/
theorem gives_flush (h : d.Gives P) (words : Text) {ps : List Piece} (hps : ∀ p ∈ ps, p.Gives d P) :
    ∀ p ∈ flush words ps, p.Gives d P := by
  rw [flush]
  split
  · exact hps
  · exact List.forall_mem_cons.2 ⟨h.text _, hps⟩

/-- So are those before the end of a line, which is a break besides. -/
theorem gives_lineEnd (h : d.Gives P) (words : Text) {ps : List Piece}
    (hps : ∀ p ∈ ps, p.Gives d P) : ∀ p ∈ lineEnd words ps, p.Gives d P := by
  have hbreak {i : Inline} (hi : P i) : ∀ p ∈ .node i :: ps, p.Gives d P :=
    List.forall_mem_cons.2 ⟨hi, hps⟩
  rw [lineEnd.eq_def]
  split
  · exact gives_flush h _ (hbreak h.hardBreak)
  · exact gives_flush h _ (hbreak h.softBreak)
  · exact gives_flush h _ (hbreak h.softBreak)

/-- Gathering pieces keeps the property. -/
theorem gives_scan (h : ctx.dialect.Gives P) {read : Reading} (hread : read.Gives P)
    (depth k : Nat) (before : Char) (place : Nat) (words : Text) (skips : Skips) (t : Text) :
    ∀ p ∈ scan ctx read depth k before place words skips t, p.Gives ctx.dialect P := by
  -- the induction is on the text, of which `k` characters may still belong to the last token
  induction t generalizing k before place words skips with
  | nil =>
    rw [scan]
    exact gives_flush h words fun p hp => absurd hp List.not_mem_nil
  | cons c t ih =>
    cases k with
    | succ k =>
      rw [scan]
      exact ih k _ _ _ _
    | zero =>
      have htoken := gives_token h hread depth before place skips c t
      rw [scan]
      dsimp only
      -- words, the end of a line, a run of marks, and a construct
      split
      · exact ih _ _ _ _ _
      · exact gives_lineEnd h words (ih _ _ _ _ _)
      · next r hr =>
        rw [hr] at htoken
        exact gives_flush h words (List.forall_mem_cons.2 ⟨htoken, ih _ _ _ _ _⟩)
      · next i n hi =>
        rw [hi] at htoken
        exact gives_flush h words (List.forall_mem_cons.2 ⟨htoken, ih _ _ _ _ _⟩)

/-- **Reading gives only what the dialect gives**, by induction on the depth of nesting. -/
theorem gives_readFrom (h : ctx.dialect.Gives P) (fuel : Nat) :
    Reading.Gives (readFrom ctx fuel) P := by
  induction fuel with
  | zero => exact fun _ _ _ _ _ => List.forall_mem_singleton.2 (h.text _)
  | succ fuel ih =>
    intro depth skips place before t
    exact gives_resolve h (gives_scan h ih depth 0 before place [] skips t)

/-- **Whatever is read** in a text has a property that the dialect gives. -/
theorem forall_mem_read (h : ctx.dialect.Gives P) (t : Text) : ∀ i ∈ read ctx t, P i :=
  gives_readFrom h (t.length + 1) _ _ _ _ _

end Inline

end Showcase

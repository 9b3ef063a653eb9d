import Showcase.Proofs.Markup.Openers
import Showcase.Proofs.Page.DemoTokens

/-!
# Demos in demos

Nothing keeps a demo from being opened in another one: while the lines of a demo are read, the rule
that opens demos is in use like all others. So tokens of demos nest (`Nests`) exactly on pages with
a demo in the content of another one (`nests_readPage_iff`).

The lines of a page may rule this out. If each demo that may be opened is ended before the next one
may be opened, then the demos on the page come one after the other, and so do their tokens
(`not_nests_of_areApart`).

Main statement: `Engine.nests_iff_exists_demo`.
-/

namespace Showcase

namespace Block

open Token

/-! ## Tokens that nest -/

/-- A demo is opened between a token that opens a demo and the token that closes it. -/
def Nests (ts : List Token) : Prop :=
  ∃ before first inside last after, ts = before ++ first :: (inside ++ last :: after) ∧
    first.bracket? = some .U ∧ last.bracket? = some .D ∧ IsBalanced inside ∧
    ∃ t ∈ inside, t.bracket? = some .U

/-- Each demo is closed before the next one is opened. -/
def IsFlat (ts : List Token) : Prop :=
  ∃ n, ts.filterMap bracket? = (List.replicate n [DyckStep.U, DyckStep.D]).flatten

variable {ts us : List Token}

/-- Tokens without demos are flat. -/
theorem HasNoDemo.isFlat (h : HasNoDemo ts) : IsFlat ts :=
  ⟨0, List.filterMap_eq_nil_iff.2 fun t ht => bracket?_eq_none_iff.2 (h t ht)⟩

/-- Flat tokens one after the other are flat. -/
theorem IsFlat.append (h : IsFlat ts) (h' : IsFlat us) : IsFlat (ts ++ us) := by
  obtain ⟨n, hn⟩ := h
  obtain ⟨m, hm⟩ := h'
  refine ⟨n + m, ?_⟩
  rw [List.filterMap_append, hn, hm, ← List.replicate_append_replicate, List.flatten_append]

/-- A demo without others in it. -/
theorem HasNoDemo.isFlat_demo (info : Text) (h : HasNoDemo ts) :
    IsFlat (Block.between (start Marker.keyword info) (stop Marker.keyword) ts) := by
  have hstart : bracket? (start Marker.keyword info) = some .U := rfl
  have hnone : ts.filterMap bracket? = [] :=
    List.filterMap_eq_nil_iff.2 fun t ht => bracket?_eq_none_iff.2 (h t ht)
  refine ⟨1, ?_⟩
  rw [Block.between, List.filterMap_cons_some hstart, List.filterMap_append, hnone]
  rfl

/-- Two brackets that open never stand side by side in pairs of brackets. -/
theorem not_infix_pairs (n : Nat) :
    ¬[DyckStep.U, DyckStep.U] <:+: (List.replicate n [DyckStep.U, DyckStep.D]).flatten := by
  induction n with
  | zero => simp
  | succ n ih =>
    rw [List.replicate_succ, List.flatten_cons]
    simpa [List.infix_cons_iff] using ih

/-- What is opened first inside of a demo stands right behind its opening bracket. -/
theorem Nests.infix_brackets (h : Nests ts) :
    [DyckStep.U, DyckStep.U] <:+: ts.filterMap bracket? := by
  obtain ⟨before, first, inside, last, after, rfl, hfirst, hlast, ⟨w, hw⟩, t, ht, hopens⟩ := h
  have hne : w.toList ≠ [] := fun hnil => by
    have hmem := List.mem_filterMap.2 ⟨t, ht, hopens⟩
    rw [← hw, hnil] at hmem
    exact List.not_mem_nil hmem
  obtain ⟨rest, hrest⟩ : ∃ rest, w.toList = .U :: rest :=
    ⟨_, w.head_eq_U hne ▸ (List.cons_head_tail hne).symm⟩
  refine ⟨before.filterMap bracket?, rest ++ .D :: after.filterMap bracket?, ?_⟩
  rw [List.filterMap_append, List.filterMap_cons_some hfirst, List.filterMap_append, ← hw, hrest,
    List.filterMap_cons_some hlast]
  simp only [List.append_assoc, List.cons_append, List.nil_append]

/-- Flat tokens do not nest. -/
theorem IsFlat.not_nests (h : IsFlat ts) : ¬Nests ts := by
  obtain ⟨n, hn⟩ := h
  exact fun hnests => not_infix_pairs n (hn ▸ hnests.infix_brackets)

/-! ## The demos of blocks -/

variable {d : Text × List Block}

/-- The demos of several blocks are those of each of them. -/
theorem mem_demosOf {bs : List Block} : d ∈ demosOf bs ↔ ∃ b ∈ bs, d ∈ b.demos := by
  induction bs with
  | nil => simp [demosOf]
  | cons b bs ih => rw [demosOf, List.mem_append, ih, List.exists_mem_cons_iff]

/-- And so for the items of a list. -/
theorem mem_demosIn {is : List (List Block)} : d ∈ demosIn is ↔ ∃ i ∈ is, d ∈ demosOf i := by
  induction is with
  | nil => simp [demosIn]
  | cons i is ih => rw [demosIn, List.mem_append, ih, List.exists_mem_cons_iff]

/-- What a block has in it stands between its own two tokens. -/
theorem infix_between (first last : Token) (ts : List Token) : ts <:+: between first last ts :=
  ⟨[first], [last], rfl⟩

mutual

/-- **The tokens of a demo** stand side by side, whatever it stands in. -/
theorem infix_tokens : ∀ b : Block, d ∈ b.demos → tokens (.demo d.1 d.2) <:+: b.tokens
  | .quote content, h => (infix_tokensOf content h).trans (infix_between _ _ _)
  | .list _ _ items, h => (infix_tokensIn items h).trans (infix_between _ _ _)
  | .demo info content, h => by
    rcases List.mem_cons.1 h with rfl | h
    · exact List.infix_rfl
    · exact (infix_tokensOf content h).trans (infix_between _ _ _)
  | .notice _ content, h => (infix_tokensOf content h).trans (infix_between _ _ _)
  -- the other blocks have no blocks in them
  | .paragraph _, h => absurd h List.not_mem_nil
  | .heading _ _, h => absurd h List.not_mem_nil
  | .thematicBreak, h => absurd h List.not_mem_nil
  | .code _, h => absurd h List.not_mem_nil
  | .fence _ _, h => absurd h List.not_mem_nil
  | .html _, h => absurd h List.not_mem_nil
  | .table _ _ _, h => absurd h List.not_mem_nil

/-- The tokens of a demo are among those of the blocks that it is in. -/
theorem infix_tokensOf : ∀ bs : List Block, d ∈ demosOf bs →
    tokens (.demo d.1 d.2) <:+: tokensOf bs
  | [], h => absurd h List.not_mem_nil
  | b :: bs, h => by
    rcases List.mem_append.1 h with h | h
    · exact (infix_tokens b h).trans (List.prefix_append _ _).isInfix
    · exact (infix_tokensOf bs h).trans (List.suffix_append _ _).isInfix

/-- And among those of the items that it is in. -/
theorem infix_tokensIn : ∀ is : List (List Block), d ∈ demosIn is →
    tokens (.demo d.1 d.2) <:+: tokensIn is
  | [], h => absurd h List.not_mem_nil
  | i :: is, h => by
    rcases List.mem_append.1 h with h | h
    · exact ((infix_tokensOf i h).trans (infix_between _ _ _)).trans
        (List.prefix_append _ _).isInfix
    · exact (infix_tokensIn is h).trans (List.suffix_append _ _).isInfix

end

/-- What a grammar gives, it gives for the content of demos too. -/
theorem gives_inside {g : Grammar} {P : Block → Prop} (h : g.Gives P) :
    g.Gives fun b => P b ∧ ∀ d ∈ b.demos, ∀ c ∈ d.2, P c := by
  -- blocks without content have no demos in them
  have hleaf {b : Block} (hb : P b) (hnone : b.demos = []) :
      P b ∧ ∀ d ∈ b.demos, ∀ c ∈ d.2, P c :=
    ⟨hb, fun d hd => absurd (hnone ▸ hd) List.not_mem_nil⟩
  -- a demo among the content is one of some block of it
  have hinside {content : List Block}
      (hcontent : ∀ b ∈ content, P b ∧ ∀ d ∈ b.demos, ∀ c ∈ d.2, P c) :
      ∀ d ∈ demosOf content, ∀ c ∈ d.2, P c := by
    intro d hd
    obtain ⟨b, hb, hdb⟩ := mem_demosOf.1 hd
    exact (hcontent b hb).2 d hdb
  exact {
    paragraph := fun source => hleaf (h.paragraph source) rfl
    heading := fun level source => hleaf (h.heading level source) rfl
    thematicBreak := hleaf h.thematicBreak rfl
    code := fun content => hleaf (h.code content) rfl
    fence := fun info content => hleaf (h.fence info content) rfl
    html := fun hhtml content => hleaf (h.html hhtml content) rfl
    table := fun alignments header rows => hleaf (h.table alignments header rows) rfl
    quote := fun content hcontent =>
      ⟨h.quote content fun b hb => (hcontent b hb).1, hinside hcontent⟩
    list := fun start tight items hitems => by
      refine ⟨h.list start tight items fun i hi b hb => (hitems i hi b hb).1, fun d hd => ?_⟩
      obtain ⟨i, hi, hdi⟩ := mem_demosIn.1 hd
      exact hinside (hitems i hi) d hdi
    -- the demo itself comes first, then those in its content
    demo := fun hdemos hnotices info hvalid content hcontent => by
      have hb := fun b hb => (hcontent b hb).1
      exact ⟨h.demo hdemos hnotices info hvalid content hb,
        List.forall_mem_cons.2 ⟨hb, hinside hcontent⟩⟩
    notice := fun name hname content hcontent =>
      ⟨h.notice name hname content fun b hb => (hcontent b hb).1, hinside hcontent⟩ }

/-! ## Tokens and demos -/

/-- The tokens tell whether there are demos, and that none of these has another one in it. -/
structure Tells (ts : List Token) (ds : List (Text × List Block)) : Prop where
  none : ds = [] → HasNoDemo ts
  flat : (∀ d ∈ ds, demosOf d.2 = []) → IsFlat ts

namespace Tells

variable {ds es : List (Text × List Block)}

/-- Where there are no demos, there is nothing to tell. -/
theorem of_hasNoDemo (h : HasNoDemo ts) (ds : List (Text × List Block)) : Tells ts ds :=
  ⟨fun _ => h, fun _ => h.isFlat⟩

/-- What two rows of tokens tell, they tell in a row. -/
theorem append (h : Tells ts ds) (h' : Tells us es) : Tells (ts ++ us) (ds ++ es) where
  none hnone := by
    obtain ⟨hds, hes⟩ := List.append_eq_nil_iff.1 hnone
    exact (h.none hds).append (h'.none hes)
  flat hflat := by
    obtain ⟨hds, hes⟩ := List.forall_mem_append.1 hflat
    exact (h.flat hds).append (h'.flat hes)

/-- A block that is no demo tells what its content does. -/
theorem between {first last : Token} (hfirst : first.isDemo = false) (hlast : last.isDemo = false)
    (h : Tells ts ds) : Tells (between first last ts) ds := by
  have hends (t : Token) (ht : t.isDemo = false) : Tells [t] [] :=
    of_hasNoDemo (List.forall_mem_singleton.2 ht) []
  have := (hends first hfirst).append (h.append (hends last hlast))
  rwa [List.append_nil] at this

/-- A demo tells of itself, and of those in its content. -/
theorem demo (info : Text) {content : List Block}
    (h : Tells (Block.tokensOf content) (demosOf content)) :
    Tells (tokens (.demo info content)) (demos (.demo info content)) where
  none hnone := nomatch hnone
  flat hflat := (h.none (hflat _ List.mem_cons_self)).isFlat_demo info

/-- What each block tells, all of them tell. -/
theorem tokensOf {bs : List Block} (h : ∀ b ∈ bs, Tells b.tokens b.demos) :
    Tells (tokensOf bs) (demosOf bs) := by
  induction bs with
  | nil => exact of_hasNoDemo (fun t ht => absurd ht List.not_mem_nil) []
  | cons b bs ih =>
    obtain ⟨hb, hbs⟩ := List.forall_mem_cons.1 h
    exact hb.append (ih hbs)

/-- And so for the items of a list. -/
theorem tokensIn {is : List (List Block)} (h : ∀ i ∈ is, ∀ b ∈ i, Tells b.tokens b.demos) :
    Tells (tokensIn is) (demosIn is) := by
  induction is with
  | nil => exact of_hasNoDemo (fun t ht => absurd ht List.not_mem_nil) []
  | cons i is ih =>
    obtain ⟨hi, his⟩ := List.forall_mem_cons.1 h
    exact ((tokensOf hi).between rfl rfl).append (ih his)

end Tells

variable {g : Grammar} (hdemo : Marker.keyword ∉ g.notices)
include hdemo

/-- So every block that is read tells of its demos. -/
theorem gives_tells : g.Gives fun b => Tells b.tokens b.demos :=
  gives_of_hasNoDemo hdemo (fun b hb _ => .of_hasNoDemo hb b.demos)
    (fun _ hcontent => (Tells.tokensOf hcontent).between rfl rfl)
    (fun _ _ _ hitems => (Tells.tokensIn hitems).between rfl rfl)
    (fun info _ hcontent => (Tells.tokensOf hcontent).demo info)
    (fun _ hname _ hcontent => (Tells.tokensOf hcontent).between (not_isDemo_of_ne hname _)
      (not_isDemo_of_ne hname _))

/-- **Tokens nest** where a demo has another one in it, and nowhere else. -/
theorem nests_readPage_iff (page : Text) :
    Nests (tokensOf (readPage g page).1) ↔
      ∃ d ∈ demosOf (readPage g page).1, demosOf d.2 ≠ [] := by
  constructor
  · intro h
    by_contra hnone
    have hflat : ∀ d ∈ demosOf (readPage g page).1, demosOf d.2 = [] := by simpa using hnone
    -- if no demo has another one in it, the tokens of demos alternate
    have htells := Tells.tokensOf (forall_mem_readPage (gives_tells hdemo) page)
    exact (htells.flat hflat).not_nests h
  · rintro ⟨d, hd, hne⟩
    have hcontent : ∀ b ∈ d.2, IsBalanced b.tokens := by
      obtain ⟨b, hb, hdb⟩ := mem_demosOf.1 hd
      have hinside := gives_inside (composes_isBalanced.gives hdemo)
      exact (forall_mem_readPage hinside page b hb).2 d hdb
    obtain ⟨e, he⟩ := List.exists_mem_of_ne_nil _ hne
    -- the opening token of the inner demo stands among the tokens of the outer one's content
    have hstart : start Marker.keyword e.1 ∈ tokensOf d.2 :=
      (infix_tokensOf d.2 he).subset List.mem_cons_self
    obtain ⟨before, after, htokens⟩ := infix_tokensOf _ hd
    refine ⟨before, start Marker.keyword d.1, tokensOf d.2, stop Marker.keyword, after, ?_, rfl,
      rfl, composes_isBalanced.tokensOf hcontent, _, hstart, rfl⟩
    rw [← htokens, tokens, Block.between]
    simp only [List.append_assoc, List.cons_append, List.nil_append]

omit hdemo

/-! ## Demos and lines -/

/-- The lines tell whether there may be demos, and whether one may have another one in it. -/
structure KeepsApart (g : Grammar) (ls : List Line) (ds : List (Text × List Block)) : Prop where
  none : (∀ l ∈ ls, openers g l = []) → ds = []
  apart : areApart g ls = true → ∀ d ∈ ds, demosOf d.2 = []

namespace KeepsApart

variable {ls part whole : List Line} {ds : List (Text × List Block)}

/-- Where nothing is opened, nothing has to be kept apart. -/
theorem nil : KeepsApart g ls [] := ⟨fun _ => rfl, fun _ _ hd => absurd hd List.not_mem_nil⟩

/-- Demos that stand in several places. -/
theorem of_mem (h : ∀ d ∈ ds, ∃ es, d ∈ es ∧ KeepsApart g ls es) : KeepsApart g ls ds where
  none hnone := List.eq_nil_iff_forall_not_mem.2 fun d hd => by
    obtain ⟨es, hes, hkeeps⟩ := h d hd
    exact List.not_mem_nil (hkeeps.none hnone ▸ hes)
  apart hapart d hd := by
    obtain ⟨es, hes, hkeeps⟩ := h d hd
    exact hkeeps.apart hapart d hes

/-- Demos of several blocks are kept apart if those of each of them are. -/
theorem demosOf {content : List Block} (h : ∀ b ∈ content, KeepsApart g ls b.demos) :
    KeepsApart g ls (demosOf content) := .of_mem fun d hd => by
  obtain ⟨b, hb, hdb⟩ := mem_demosOf.1 hd
  exact ⟨b.demos, hdb, h b hb⟩

/-- And so for the items of a list. -/
theorem demosIn {items : List (List Block)} (h : ∀ i ∈ items, ∀ b ∈ i, KeepsApart g ls b.demos) :
    KeepsApart g ls (demosIn items) := .of_mem fun d hd => by
  obtain ⟨i, hi, hdi⟩ := mem_demosIn.1 hd
  exact ⟨Block.demosOf i, hdi, demosOf (h i hi)⟩

/-- More lines keep at least as much apart. -/
theorem widen (h : part <:+: whole) (hpart : KeepsApart g part ds) : KeepsApart g whole ds where
  none hnone := hpart.none fun l hl => hnone l (h.subset hl)
  apart hapart := hpart.apart (areApart_of_isInfix h hapart)

/-- So do the lines before they were cut for a quote or an item. -/
theorem become (h : List.Forall₂ Line.Becomes whole part) (hpart : KeepsApart g part ds) :
    KeepsApart g whole ds where
  none hnone := hpart.none (openers_eq_nil_of_forall₂ h hnone)
  apart hapart := hpart.apart (areApart_of_becomes h hapart)

/-- **A demo** has no other one in it if none may be opened before it is ended. -/
theorem demo (f : Frame) {l : Line} {window : Nat} {colons : Colons}
    (hcolons : colons? g l.content = some colons) (hcontainer : colons.container = .demo)
    {content : List Block} (hcontent : ∀ b ∈ content,
      KeepsApart g (ls.take (untilEnd g f colons.isClosedBy window ls).1) b.demos) :
    KeepsApart g (l :: ls.take window) (demos (.demo colons.info content)) := by
  have hopeners : colons ∈ openers g l :=
    mem_openers_iff.2 ⟨⟨l.content, List.suffix_rfl, hcolons⟩, hcontainer⟩
  refine ⟨fun hnone => ?_, fun hapart => ?_⟩
  · rw [hnone l List.mem_cons_self] at hopeners
    exact absurd hopeners List.not_mem_nil
  · have hclear := (areApart_cons.1 hapart).1 colons hopeners
    have hinside := (demosOf hcontent).none (openers_of_mem_take_untilEnd f hclear)
    rw [demos, hinside]
    exact List.forall_mem_singleton.2 hinside

end KeepsApart

/-- The lines of every block that is read keep its demos apart. -/
theorem reads_keepsApart (g : Grammar) : g.Reads fun ls b => KeepsApart g ls b.demos where
  widen _ _ _ := .widen
  become _ _ _ := .become
  paragraph _ _ := .nil
  heading _ _ _ _ _ := .nil
  thematicBreak _ := .nil
  code _ _ := .nil
  fence _ _ _ := .nil
  html _ _ _ := .nil
  table _ _ _ _ _ := .nil
  quote _ _ := .demosOf
  list _ _ _ _ := .demosIn
  demo f _ _ _ _ hcolons hcontainer _ := .demo f hcolons hcontainer
  notice _ _ _ _ := .demosOf

/-- **Lines that keep demos apart.** No tokens nest if each demo that may be opened is ended before
the next one may be opened. -/
theorem not_nests_of_areApart (hdemo : Marker.keyword ∉ g.notices) {page : Text}
    (h : areApart g (Line.all page) = true) : ¬Nests (tokensOf (readPage g page).1) := by
  rw [nests_readPage_iff hdemo]
  rintro ⟨d, hd, hne⟩
  have hkeeps := KeepsApart.demosOf (forall_mem_readPage_lines (reads_keepsApart g) page)
  exact hne (hkeeps.apart h d hd)

end Block

/-! ## Engines -/

namespace Engine

open Block

/-- **Demos in demos.** With a complete configuration, and no notice that is called as demos are,
every page is written token by token. A demo is opened between another one and its end exactly if it
stands in the content of that one; and this is not so if each line that may open a demo is followed
by one that ends it before the next line that may open one. -/
theorem nests_iff_exists_demo {c : Config} (h : c.IsComplete)
    (hnotices : ∀ s ∈ Setting.Record.find? c "notice_containers".toList,
      Marker.keyword ∉ s.items.map Setting.display) (spelling : Slug.Transliteration) :
    ∃ e, ofConfig spelling c = .ok e ∧ ∀ source : Text,
      (Nests (tokensOf (e.blocks source)) ↔
        ∃ d ∈ demosOf (e.blocks source), demosOf d.2 ≠ []) ∧
      (areApart e.grammar (Line.all (Source.readable source)) = true →
        ¬Nests (tokensOf (e.blocks source))) ∧
      ∀ known, ∃ made texts, e.render known source = .ok made ∧ made.html = texts.flatten ∧
        AreWritten e.widget (tokensOf (e.blocks source)) texts := by
  obtain ⟨e, he, hsettings⟩ := h.exists_engine spelling
  obtain ⟨w, hw⟩ := h.exists_widget
  rw [← hsettings] at hw
  have hdemo : Marker.keyword ∉ e.grammar.notices := by
    obtain ⟨s, hs, hread⟩ := exists_notices he
    exact hread ▸ hnotices s hs
  refine ⟨e, he, fun source => ⟨nests_readPage_iff hdemo _, not_nests_of_areApart hdemo, ?_⟩⟩
  intro known
  obtain ⟨made, hmade, -⟩ := exists_render hw known source
  obtain ⟨texts, hhtml, hwritten⟩ := exists_areWritten hdemo hw hmade
  exact ⟨made, texts, hmade, hhtml, hwritten⟩

/-- Demos one after the other. Two stand in lists, and the last one is not ended by a marker. -/
def orderly : Text := "::: demo a\n<i>\n:::\n- ::: demo b\n  <i>\n  ::::\n\n1. ::: demo\n".toList

/-- Whatever else stands on a page, demos that are kept apart by its lines do not nest. -/
theorem nests_iff_exists_demo_orderly :
    ∃ e, ofConfig Slug.spelling Config.default = .ok e ∧
      areApart e.grammar (Line.all (Source.readable orderly)) = true ∧
      (tokensOf (e.blocks orderly)).filterMap Token.bracket? = [.U, .D, .U, .D, .U, .D] ∧
      ¬Nests (tokensOf (e.blocks orderly)) := by
  obtain ⟨e, he, hpages⟩ := nests_iff_exists_demo Config.isComplete_default
    (fun s hs => by
      obtain rfl := Option.some.inj hs
      decide)
    Slug.spelling
  obtain rfl := Except.ok.inj ((DemoSection.ofConfig_default Slug.spelling).symm.trans he)
  have hapart : areApart (DemoSection.defaultEngine Slug.spelling).grammar
      (Line.all (Source.readable orderly)) = true := by decide +kernel
  exact ⟨_, he, hapart, by decide +kernel, (hpages orderly).2.1 hapart⟩

/-- A demo that is opened in another one. The closing marker ends the outer one, and the inner one
ends with the lines of the outer one. -/
def doubled : Text := "::: demo\n::: demo\n:::\n".toList

/-- Demos nest on a page of three lines. -/
theorem nests_doubled :
    ∃ e, ofConfig Slug.spelling Config.default = .ok e ∧ Nests (tokensOf (e.blocks doubled)) := by
  refine ⟨_, DemoSection.ofConfig_default Slug.spelling, ?_⟩
  have hdemo : Marker.keyword ∉ (DemoSection.defaultEngine Slug.spelling).grammar.notices := by
    decide
  have hinner : ((demosOf ((DemoSection.defaultEngine Slug.spelling).blocks doubled)).any
      fun d => !(demosOf d.2).isEmpty) = true := by decide +kernel
  obtain ⟨d, hd, hne⟩ := List.any_eq_true.1 hinner
  exact (nests_readPage_iff hdemo _).2 ⟨d, hd, by simpa using hne⟩

end Engine

end Showcase

import Showcase.Page.Spelling
import Showcase.Proofs.Page.Complete

/-!
# What lasts in a session

The renders of a session write into one context and read from it, but a render puts its own
configuration there before it reads any, and its own payloads. So nothing is left of earlier renders
but the wish for a component (`Context.render_eq`, `Context.renders_getElem?`).

The pages of an engine session are read without regard to what is known by then: the definitions of
earlier pages may change what a link on a later page leads to, but neither which demos there are nor
what their sources are. So the payloads gather page by page (`pages_getElem?`).
-/

namespace Showcase

namespace Session

namespace Context

variable {spelling : Slug.Transliteration} {project : Config} {ctx : Context} {r : Request}

/-- A page as a component: its HTML, with a line feed at its end unless it is empty, between the
opening and the closing lines. -/
def componentLines (sectionClass html : Text) : Text :=
  "<template>\n  <section class=\"".toList ++ sectionClass ++ "\">\n".toList ++
    (html ++ if html = [] ∨ html.getLast? = some '\n' then [] else ['\n']) ++
      "  </section>\n</template>\n".toList

theorem wrap_eq (sectionClass html : Text) :
    Component.wrap sectionClass html = componentLines sectionClass html := by
  have hends : Text.endsWith html ['\n'] = true ↔ html.getLast? = some '\n' := by
    rw [Text.endsWith, Text.startsWith_iff, ← List.head?_reverse]
    exact List.head?_eq_some_iff.symm
  have hlines : Component.lines html =
      html ++ if html = [] ∨ html.getLast? = some '\n' then [] else ['\n'] := by
    by_cases h : html = [] ∨ html.getLast? = some '\n'
    · rw [Component.lines, if_pos (h.imp id hends.2), if_pos h, List.append_nil]
    · rw [Component.lines, if_neg (mt (Or.imp id hends.1) h), if_neg h]
  unfold Component.wrap componentLines
  rw [hlines]

/-- A page as a session hands it out. -/
def handedOut (asComponent : Bool) (r : Request) (html : Text) : Text :=
  if asComponent then
    componentLines (((Setting.Record.find? r.config "component_class".toList).map
      Setting.display).getD []) html
  else html

/-- The render of a page that nothing has gone before, not as a component. -/
def alone (spelling : Slug.Transliteration) (project : Config) (r : Request) :
    Except Failure Text × Context :=
  (fresh project).render spelling { r with asComponent := false }

/-- A page is finished with its own configuration. -/
theorem finish_eq (r : Request) (hctx : ctx.config = r.config) (html : Text) :
    ctx.finish html =
      ((fresh r.config).finish html).map (handedOut ctx.asComponent r) := by
  have hfresh : (fresh r.config).config = r.config := rfl
  rw [finish, finish, hctx, hfresh, Engine.need]
  cases hclass : Setting.Record.find? r.config "component_class".toList with
  | none => rfl
  | some sectionClass =>
    cases hwanted : ctx.asComponent with
    | false => rfl
    | true =>
      simp only [bind, Except.bind, pure, Except.pure, Except.map, handedOut, hclass, if_true,
        wrap_eq]
      rfl

/-- **A render reads nothing of its context** but the wish for a component. -/
theorem render_eq (spelling : Slug.Transliteration) (project : Config) (ctx : Context)
    (r : Request) :
    (ctx.render spelling r).1 = (alone spelling project r).1.map
        (handedOut (ctx.asComponent || r.asComponent) r) ∧
      (ctx.render spelling r).2.asComponent = (ctx.asComponent || r.asComponent) ∧
      ∀ html, (alone spelling project r).1 = .ok html →
        (ctx.render spelling r).2.payloads = (alone spelling project r).2.payloads := by
  have hmake : make spelling { r with asComponent := false } = make spelling r := rfl
  rw [alone, render, render, hmake]
  cases make spelling r with
  | error f => exact ⟨rfl, rfl, fun html h => nomatch h⟩
  | ok made =>
    refine ⟨?_, rfl, fun _ _ => rfl⟩
    exact finish_eq r rfl made.html

/-- The answers of a session, whatever its context is at the beginning. -/
theorem renders_getElem? (spelling : Slug.Transliteration) (project : Config) (ctx : Context)
    {rs : List Request} {i : Nat} {r : Request} (hr : rs[i]? = some r) :
    ∃ after, (renders spelling ctx rs)[i]? = some
        ((alone spelling project r).1.map
          (handedOut (ctx.asComponent || (rs.take (i + 1)).any Request.asComponent) r), after) ∧
      ∀ html, (alone spelling project r).1 = .ok html →
        after.payloads = (alone spelling project r).2.payloads := by
  -- the context carries over whether a component was wanted, and nothing else that shows
  induction rs generalizing ctx i with
  | nil => cases hr
  | cons s rs ih =>
    obtain ⟨hanswer, hwanted, hpayloads⟩ := render_eq spelling project ctx s
    cases i with
    | zero =>
      obtain rfl := Option.some.inj hr
      refine ⟨(ctx.render spelling s).2, ?_, hpayloads⟩
      rw [List.take_succ_cons, List.take_zero, List.any_cons, List.any_nil, Bool.or_false,
        ← hanswer]
      rfl
    | succ i =>
      obtain ⟨after, hafter, hpayloads'⟩ := ih (ctx.render spelling s).2 hr
      refine ⟨after, ?_, hpayloads'⟩
      rw [hwanted, Bool.or_assoc] at hafter
      exact hafter

/-- A page by itself is what a render makes of it, as a component if one is wanted by then. -/
theorem page_eq_map_render (spelling : Slug.Transliteration) (ctx : Context) (r : Request) :
    page spelling r.config (ctx.asComponent || r.asComponent) r.source =
      (ctx.render spelling r).1.map (⟨·, (ctx.render spelling r).2.payloads⟩) := by
  rw [page, render, make]
  cases Engine.ofConfig spelling r.config with
  | error f => rfl
  | ok engine =>
    simp only [bind, Except.bind]
    cases engine.render [] (Source.clean r.source) with
    | error f => rfl
    | ok made =>
      -- what the later stages look up is what the request has put there
      have hconfig : (ctx.begin r).config = r.config := rfl
      have hwanted : (ctx.begin r).asComponent = (ctx.asComponent || r.asComponent) := rfl
      simp only [finish, hconfig, hwanted]
      cases Engine.need r.config "component_class" with
      | error f => rfl
      | ok sectionClass => rfl

/-- A page by itself is what a render makes of it that nothing has gone before. -/
theorem page_eq_render (spelling : Slug.Transliteration) (project : Config) (r : Request) :
    page spelling r.config r.asComponent r.source =
      ((fresh project).render spelling r).1.map
        (⟨·, ((fresh project).render spelling r).2.payloads⟩) :=
  page_eq_map_render spelling (fresh project) r

/-- **The answers of a session.** Each of them is the page that is made alone, as a component if one
has been wanted by then, with the class that its own configuration says; and the payloads are those
of that page. -/
theorem answers_of_session (spelling : Slug.Transliteration) (project : Config)
    (rs : List Request) {i : Nat} {r : Request} (hr : rs[i]? = some r) :
    ∃ ctx, (renders spelling (fresh project) rs)[i]? = some
        ((alone spelling project r).1.map
          (handedOut ((rs.take (i + 1)).any Request.asComponent) r), ctx) ∧
      ∀ html, (alone spelling project r).1 = .ok html →
        ctx.payloads = (alone spelling project r).2.payloads :=
  renders_getElem? spelling project (fresh project) hr

/-- A plain page, a component with a class of its own, and a page that does not ask for anything. -/
def mixed : List Request :=
  [⟨"[a]: /b".toList, Config.default, false⟩,
    ⟨"b".toList, Config.default.change "component_class".toList (.text "wide".toList), true⟩,
    ⟨"[a]".toList, Config.default, false⟩]

/-- The last page is a component too, and of the class in its configuration. -/
theorem answers_of_session_mixed :
    ∃ html ctx, (alone Slug.spelling Config.default ⟨"[a]".toList, Config.default, false⟩).1 =
        .ok html ∧
      (renders Slug.spelling (fresh Config.default) mixed)[2]? =
        some (.ok (componentLines "content".toList html), ctx) ∧
      ctx.payloads =
        (alone Slug.spelling Config.default ⟨"[a]".toList, Config.default, false⟩).2.payloads := by
  obtain ⟨ctx, hctx, hpayloads⟩ := answers_of_session Slug.spelling Config.default mixed
    (i := 2) (r := ⟨"[a]".toList, Config.default, false⟩) rfl
  obtain ⟨made, hmade⟩ := Config.isComplete_default.exists_page Slug.spelling false "[a]".toList
  have hpage := page_eq_render Slug.spelling Config.default ⟨"[a]".toList, Config.default, false⟩
  -- the configuration is complete, so the page is made alone as well
  obtain ⟨html, hhtml⟩ : ∃ html,
      (alone Slug.spelling Config.default ⟨"[a]".toList, Config.default, false⟩).1 = .ok html := by
    rw [alone]
    cases h : ((fresh Config.default).render Slug.spelling
        ⟨"[a]".toList, Config.default, false⟩).1 with
    | ok html => exact ⟨html, rfl⟩
    | error f =>
      rw [h] at hpage
      exact nomatch hpage.symm.trans hmade
  rw [hhtml] at hctx
  exact ⟨html, ctx, hhtml, hctx, hpayloads html hhtml⟩

end Context

/-! ## Sessions with one engine -/

/-- The pages since the session last started afresh. -/
def sinceFresh : List Sheet → List Sheet
  | [] => []
  | s :: ss => if ss.any Sheet.fresh then sinceFresh ss else s :: ss

theorem sinceFresh_concat (ss : List Sheet) (s : Sheet) :
    sinceFresh (ss ++ [s]) = if s.fresh then [s] else sinceFresh ss ++ [s] := by
  induction ss with
  | nil => cases hs : s.fresh <;> rfl
  | cons t ss ih =>
    rw [List.cons_append, sinceFresh, sinceFresh, ih, List.any_append, List.any_cons, List.any_nil,
      Bool.or_false]
    cases s.fresh with
    | true => rw [Bool.or_true, if_pos rfl]; rfl
    | false => cases ss.any Sheet.fresh <;> rfl

section Engine

variable {e : Engine} {alone : Text → List Payload}
  (halone : ∀ known source, ∃ made, e.render known source = .ok made ∧
    made.payloads = alone source)

include halone

/-- **A page adds its payloads** to those since the session started afresh. -/
theorem exists_page_of_memory {m : Memory} {before : List Sheet} (s : Sheet)
    (hm : m.payloads = (sinceFresh before).flatMap fun s => alone s.source) :
    ∃ made, e.render (if s.fresh then Memory.empty else m).definitions s.source = .ok made ∧
      ((if s.fresh then Memory.empty else m).after made).payloads =
        (sinceFresh (before ++ [s])).flatMap fun s => alone s.source := by
  obtain ⟨made, hmade, hown⟩ :=
    halone (if s.fresh then Memory.empty else m).definitions s.source
  refine ⟨made, hmade, ?_⟩
  rw [sinceFresh_concat]
  cases s.fresh with
  | true => exact (List.nil_append _).trans (hown.trans (List.append_nil _).symm)
  | false =>
    have hafter : ((if false = true then Memory.empty else m).after made).payloads =
        m.payloads ++ made.payloads := rfl
    rw [hafter, hm, hown, if_neg Bool.false_ne_true, List.flatMap_append, List.flatMap_singleton]

/-- The pages of a session that has gone on for some time. -/
theorem pages_getElem? {m : Memory} {before : List Sheet}
    (hm : m.payloads = (sinceFresh before).flatMap fun s => alone s.source) {ss : List Sheet}
    {i : Nat} (hi : i < ss.length) :
    ∃ page, (pages e m ss)[i]? = some (.ok page) ∧
      page.payloads =
        (sinceFresh (before ++ ss.take (i + 1))).flatMap fun s => alone s.source := by
  induction ss generalizing m before i with
  | nil => exact absurd hi (Nat.not_lt_zero i)
  | cons s ss ih =>
    obtain ⟨made, hmade, hpayloads⟩ := exists_page_of_memory halone s hm
    rw [pages]
    simp only [hmade]
    cases i with
    | zero => exact ⟨_, rfl, hpayloads⟩
    | succ i =>
      obtain ⟨page, hpage, hown⟩ := ih hpayloads (Nat.lt_of_succ_lt_succ hi)
      rw [List.append_assoc] at hown
      exact ⟨page, hpage, hown⟩

end Engine

/-- **The payloads of a session.** With a complete configuration every page of a session is made,
and the payloads by then are those of the pages since the session last started afresh, each as if it
was made alone. -/
theorem payloads_of_session {c : Config} (h : c.IsComplete) (spelling : Slug.Transliteration) :
    ∃ e, Engine.ofConfig spelling c = .ok e ∧
      ∃ alone : Text → Engine.Rendered, (∀ source, e.render [] source = .ok (alone source)) ∧
        ∀ (ss : List Sheet) (i : Nat), i < ss.length →
          ∃ page, (pages e Memory.empty ss)[i]? = some (.ok page) ∧
            page.payloads =
              (sinceFresh (ss.take (i + 1))).flatMap fun s => (alone s.source).payloads := by
  obtain ⟨e, he, hsettings⟩ := h.exists_engine spelling
  obtain ⟨w, hw⟩ := h.exists_widget
  have hrender := Engine.exists_render (hsettings ▸ hw)
  obtain ⟨alone, halone⟩ := Classical.skolem.1 (hrender [])
  have hall : ∀ known source, ∃ made, e.render known source = .ok made ∧
      made.payloads = (alone source).payloads := fun known source => by
    obtain ⟨made, hmade, hpayloads⟩ := hrender known source
    exact ⟨made, hmade, hpayloads.trans (halone source).2.symm⟩
  have hempty : Memory.empty.payloads =
      (sinceFresh []).flatMap fun s => (alone s.source).payloads := rfl
  exact ⟨e, he, alone, fun source => (halone source).1,
    fun ss i hi => pages_getElem? hall hempty hi⟩

/-- A page with a definition and a demo. -/
def defined : Text := "[a]: /b\n::: demo [a]\n[a]\n:::\n".toList

/-- The same page twice, and once more after starting afresh. -/
theorem payloads_of_session_defined :
    ∃ e made second third, Engine.ofConfig Slug.spelling Config.default = .ok e ∧
      e.render [] defined = .ok made ∧
      (pages e Memory.empty [⟨defined, false⟩, ⟨defined, false⟩, ⟨defined, true⟩])[1]? =
        some (.ok second) ∧ second.payloads = made.payloads ++ made.payloads ∧
      (pages e Memory.empty [⟨defined, false⟩, ⟨defined, false⟩, ⟨defined, true⟩])[2]? =
        some (.ok third) ∧ third.payloads = made.payloads := by
  obtain ⟨e, he, alone, halone, hpages⟩ :=
    payloads_of_session Config.isComplete_default Slug.spelling
  obtain ⟨second, hsecond, htwice⟩ :=
    hpages [⟨defined, false⟩, ⟨defined, false⟩, ⟨defined, true⟩] 1 (by decide)
  obtain ⟨third, hthird, honce⟩ :=
    hpages [⟨defined, false⟩, ⟨defined, false⟩, ⟨defined, true⟩] 2 (by decide)
  refine ⟨e, alone defined, second, third, he, halone defined, hsecond, htwice.trans ?_, hthird,
    honce.trans ?_⟩
  · exact congrArg _ (List.append_nil _)
  · exact List.append_nil _

end Session

end Showcase

import Showcase.Page.Session

/-!
# Complete configurations

A configuration is complete if it has every setting that the defaults have, those of demos included,
and its preset names a dialect. Nothing else is asked of a configuration: with a complete one, every
page is made (`Config.IsComplete.exists_page`).
-/

namespace Showcase

/-- What succeeds has succeeded up to its last step. -/
theorem exists_of_bind_eq_ok {ε α β : Type} {x : Except ε α} {f : α → Except ε β} {b : β}
    (h : x >>= f = .ok b) : ∃ a, x = .ok a ∧ f a = .ok b := by
  cases x with
  | error e => cases h
  | ok a => exact ⟨a, rfl, h⟩

/-- What fails has failed in its first step or after it. -/
theorem of_bind_eq_error {ε α β : Type} {x : Except ε α} {f : α → Except ε β} {e : ε}
    (h : x >>= f = .error e) : x = .error e ∨ ∃ a, x = .ok a ∧ f a = .error e := by
  cases x with
  | error e' =>
    obtain rfl := Except.error.inj h
    exact .inl rfl
  | ok a => exact .inr ⟨a, rfl, h⟩

/-- The notices that are read are those of the configuration. -/
theorem Engine.exists_notices {spelling : Slug.Transliteration} {c : Config} {e : Engine}
    (h : ofConfig spelling c = .ok e) :
    ∃ s, Setting.Record.find? c "notice_containers".toList = some s ∧
      e.grammar.notices = s.items.map Setting.display := by
  obtain ⟨preset, -, h⟩ := exists_of_bind_eq_ok h
  obtain ⟨options, -, h⟩ := exists_of_bind_eq_ok h
  dsimp only at h
  -- the settings are looked up one after the other, and all lookups succeeded
  split at h
  · obtain ⟨dialect, -, h⟩ := exists_of_bind_eq_ok h
    obtain ⟨least, -, h⟩ := exists_of_bind_eq_ok h
    obtain ⟨shown, -, h⟩ := exists_of_bind_eq_ok h
    obtain ⟨symbol, -, h⟩ := exists_of_bind_eq_ok h
    obtain ⟨before, -, h⟩ := exists_of_bind_eq_ok h
    obtain ⟨demo, -, h⟩ := exists_of_bind_eq_ok h
    obtain ⟨notices, hnotices, h⟩ := exists_of_bind_eq_ok h
    obtain ⟨tableClass, -, h⟩ := exists_of_bind_eq_ok h
    obtain ⟨domain, -, h⟩ := exists_of_bind_eq_ok h
    obtain rfl := Except.ok.inj h
    refine ⟨notices, ?_, rfl⟩
    rw [need] at hnotices
    split at hnotices
    · next s hs => exact Except.ok.inj hnotices ▸ hs
    · cases hnotices
  · cases h

/-- An engine that has all settings of the widget element makes every page, and its payloads do not
depend on the definitions that are known by then. -/
theorem Engine.exists_render {e : Engine} {w : Widget} (hw : e.widget.widget = .ok w)
    (known : Definitions) (source : Text) :
    ∃ made, e.render known source = .ok made ∧
      made.payloads = payloads (Block.readPage e.grammar (Source.readable source)).1 := by
  simp only [render, hw, bind, Except.bind, pure, Except.pure]
  split <;> exact ⟨_, rfl, rfl⟩

namespace Config

open Setting

/-- Every setting of the defaults is there, and the preset names a dialect. -/
structure IsComplete (c : Config) : Prop where
  settings : ∀ e ∈ Config.default, (Record.find? c e.1).isSome = true
  demo : ∀ e ∈ Config.default.demo, (Record.find? c.demo e.1).isSome = true
  preset : ∀ name ∈ Record.find? c "preset".toList, (Dialect.named? name.display).isSome = true

theorem isComplete_default : Config.default.IsComplete where
  settings := by decide
  demo := by decide
  preset := by
    rintro name hname
    obtain rfl := Option.some.inj hname
    rfl

namespace IsComplete

variable {c : Config} (h : c.IsComplete)
include h

theorem exists_need (key : String) (hkey : key.toList ∈ Config.default.map Prod.fst) :
    ∃ s, Engine.need c key = .ok s ∧ Record.find? c key.toList = some s := by
  obtain ⟨e, he, heq⟩ := List.mem_map.1 hkey
  obtain ⟨s, hs⟩ := Option.isSome_iff_exists.1 (h.settings e he)
  rw [heq] at hs
  exact ⟨s, by rw [Engine.need, hs], hs⟩

theorem exists_demo (key : Text) (hkey : key ∈ Config.default.demo.map Prod.fst) :
    ∃ s, Record.find? c.demo key = some s := by
  obtain ⟨e, he, rfl⟩ := List.mem_map.1 hkey
  exact Option.isSome_iff_exists.1 (h.demo e he)

/-- The widget element has all its settings. -/
theorem exists_widget : ∃ widget, (WidgetSettings.ofRecord c.demo).widget = .ok widget := by
  obtain ⟨element, helement⟩ := h.exists_demo WidgetSettings.elementKey (by decide)
  obtain ⟨boxClass, hclass⟩ := h.exists_demo WidgetSettings.classKey (by decide)
  obtain ⟨property, hproperty⟩ := h.exists_demo WidgetSettings.propertyKey (by decide)
  refine ⟨⟨element.display, boxClass.display, property.display⟩, ?_⟩
  rw [WidgetSettings.widget, WidgetSettings.ofRecord, helement, hclass, hproperty]
  rfl

/-- The engine is made, with the widget element of the configuration. -/
theorem exists_engine (spelling : Slug.Transliteration) :
    ∃ engine, Engine.ofConfig spelling c = .ok engine ∧
      engine.widget = WidgetSettings.ofRecord c.demo := by
  obtain ⟨preset, hpreset, hfind⟩ := h.exists_need "preset" (by decide)
  obtain ⟨options, hoptions, -⟩ := h.exists_need "options" (by decide)
  obtain ⟨dialect, hdialect⟩ := Option.isSome_iff_exists.1 (h.preset preset hfind)
  obtain ⟨least, hleast, -⟩ := h.exists_need "anchor_level" (by decide)
  obtain ⟨shown, hshown, -⟩ := h.exists_need "permalink" (by decide)
  obtain ⟨symbol, hsymbol, -⟩ := h.exists_need "permalink_symbol" (by decide)
  obtain ⟨before, hbefore, -⟩ := h.exists_need "permalink_before" (by decide)
  obtain ⟨demo, hdemo, hentries⟩ := h.exists_need "demo" (by decide)
  obtain ⟨notices, hnotices, -⟩ := h.exists_need "notice_containers" (by decide)
  obtain ⟨tableClass, htable, -⟩ := h.exists_need "table_class" (by decide)
  obtain ⟨domain, hdomain, -⟩ := h.exists_need "site_domain" (by decide)
  -- the settings of demos are looked up twice: as a setting, and as the record in it
  have hrecord : c.demo = demo.entries := by
    have hfind : Record.find? c demoKey = some demo := hentries
    rw [Config.demo, hfind]
    rfl
  rw [hrecord]
  simp only [Engine.ofConfig, hpreset, hoptions, hdialect, hleast, hshown, hsymbol, hbefore, hdemo,
    hnotices, htable, hdomain, bind, Except.bind, pure, Except.pure]
  exact ⟨_, rfl, rfl⟩

/-- **Every page is made** with a complete configuration. -/
theorem exists_page (spelling : Slug.Transliteration) (asComponent : Bool) (source : Text) :
    ∃ page, Session.page spelling c asComponent source = .ok page := by
  obtain ⟨engine, hengine, hsettings⟩ := h.exists_engine spelling
  obtain ⟨widget, hwidget⟩ := h.exists_widget
  obtain ⟨sectionClass, hclass, -⟩ := h.exists_need "component_class" (by decide)
  obtain ⟨made, hmade, -⟩ := Engine.exists_render (hsettings ▸ hwidget) [] (Source.clean source)
  rw [Session.page]
  simp only [hengine, hmade, hclass, bind, Except.bind]
  exact ⟨_, rfl⟩

end IsComplete

end Config

end Showcase

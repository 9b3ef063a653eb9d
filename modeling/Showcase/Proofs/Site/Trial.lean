import Showcase.Proofs.Site.Failing
import Showcase.Site.Console

/-!
# Trial runs

A trial run makes everything that a run in earnest would make, and keeps it to itself. It tells what
a build comes to as long as nothing goes wrong while it writes: what is found out before that, it
finds out too, in the same words (`Job.build_asTrial`).

The command makes a trial run whenever its switch is among the arguments, whatever else is. With the
switch for the queue a run in earnest hands its pages to tasks, which know nothing of trials; a
trial run does not use the queue.

Main statement: `Console.trial_runs`.
-/

namespace Showcase

namespace Job

variable {w : Workshop} {t : FileTree} {j : Job}

/-- The job as a trial. -/
def asTrial (j : Job) : Job := { j with dryRun := true }

/-- The job in earnest. -/
def inEarnest (j : Job) : Job := { j with dryRun := false }

/-- **A trial** comes to what is made before anything is written. -/
theorem build_asTrial (w : Workshop) (t : FileTree) (j : Job) :
    j.asTrial.build w t = (t, (j.compile w t).map j.report) := by
  have hcompile : j.asTrial.compile w t = j.compile w t := rfl
  rw [build, hcompile]
  cases j.compile w t with
  | error e => rfl
  | ok p => rfl

/-- A build in earnest that ends well has the same report as its trial. -/
theorem build_asTrial_of_report {r : Report} (h : (j.inEarnest.build w t).2 = .ok r) :
    (j.asTrial.build w t).2 = .ok r := by
  have hcompile : j.inEarnest.compile w t = j.compile w t := rfl
  rw [build_asTrial]
  cases hmade : j.compile w t with
  | error e =>
    rw [build_of_compile_error (hcompile.trans hmade)] at h
    cases h
  | ok p =>
    rw [build, hcompile, hmade] at h
    dsimp only at h
    rw [if_neg (Bool.not_eq_true _ ▸ rfl)] at h
    split at h
    · cases h
    · exact h

/-- What stops a trial stops the build in earnest, before it writes. -/
theorem build_inEarnest_of_trial_error {e : BuildError} (h : (j.asTrial.build w t).2 = .error e) :
    j.inEarnest.build w t = (t, .error e) := by
  rw [build_asTrial] at h
  cases hmade : j.compile w t with
  | error e' =>
    rw [hmade] at h
    obtain rfl := Except.error.inj h
    exact build_of_compile_error hmade
  | ok p =>
    rw [hmade] at h
    cases h

end Job

/-! ## Switches on the command line -/

namespace Argument

/-- The switch that an argument is. -/
def switch? : Argument → Option OptionKind
  | .option o none => if o.kind.takesValue then none else some o.kind
  | _ => none

/-- Before the options end, each text is an argument for itself. -/
theorem mem_of_ofTexts {ts : List Text} {args : List Argument} (h : ofTexts ts = .ok args)
    {t : Text} (ht : t ∈ ts.takeWhile (· ≠ ['-', '-'])) {a : Argument} (ha : ofText t = .ok a) :
    a ∈ args := by
  induction ts generalizing args with
  | nil => cases ht
  | cons s ts ih =>
    rw [ofTexts] at h
    -- behind the two hyphens, nothing counts as an option
    by_cases hs : s = ['-', '-']
    · rw [List.takeWhile_cons_of_neg (by simpa using hs)] at ht
      cases ht
    · rw [if_neg hs] at h
      rw [List.takeWhile_cons_of_pos (by simpa using hs)] at ht
      obtain ⟨first, hfirst, h⟩ := exists_of_bind_eq_ok h
      obtain ⟨more, hmore, h⟩ := exists_of_bind_eq_ok h
      obtain rfl := Except.ok.inj h
      rcases List.mem_cons.1 ht with rfl | ht
      · rw [ha] at hfirst
        exact Except.ok.inj hfirst ▸ List.mem_cons_self
      · exact List.mem_cons_of_mem _ (ih hmore ht)

end Argument

namespace Arguments

variable {a b : Arguments} {wanted : Bool} {extra : List Text} {args : List Argument}

theorem on_withValue {o : CommandOption} {value : Text} (h : a.withValue o value = .ok b) :
    b.on = a.on := by
  rw [withValue] at h
  split at h
  · cases h
    rfl
  · split at h
    · cases h
    · split at h
      · cases h
        rfl
      · cases h
  · cases h
    rfl

/-- A value for an option turns no switch. -/
theorem exists_of_withValue_bind {o : CommandOption} {value : Text}
    {f : Arguments → Except UsageError Asked} {asked : Asked}
    (h : (a.withValue o value >>= f) = .ok asked) : ∃ c, f c = .ok asked ∧ c.on = a.on := by
  obtain ⟨c, hc, hasked⟩ := exists_of_bind_eq_ok h
  exact ⟨c, hasked, on_withValue hc⟩

/-- **The switches that are on** are those among the arguments. -/
theorem on_readFrom (h : readFrom a wanted extra args = .ok (.run b)) :
    b.on = (args.filterMap Argument.switch?).reverse ++ a.on := by
  fun_induction readFrom a wanted extra args
  case case1 =>
    cases h
    rfl
  case case2 | case12 | case14 | case15 | case16 => cases h
  case case3 ih | case4 ih | case5 ih | case6 ih | case7 ih | case8 ih | case9 ih | case10 ih =>
    -- no option
    exact ih h
  case case11 ih =>
    obtain ⟨c, hc, hon⟩ := exists_of_withValue_bind h
    rw [ih c hc, hon]
    rfl
  case case13 htakes value rest ih =>
    -- the option takes the next argument, which is no switch either
    obtain ⟨c, hc, hon⟩ := exists_of_withValue_bind h
    rw [ih c hc, hon]
    simp only [List.filterMap_cons, Argument.switch?, htakes, if_true]
  case case17 htakes _ _ ih =>
    rw [ih h, withSwitch]
    simp [Argument.switch?, htakes]

/-- A switch that is written out before the options end is on. -/
theorem isOn_of_read {ts : List Text} (h : read ts = .ok (.run a)) {t : Text}
    (ht : t ∈ ts.takeWhile (· ≠ ['-', '-'])) {k : OptionKind} {switch : Argument}
    (hswitch : Argument.ofText t = .ok switch) (hk : switch.switch? = some k) :
    a.isOn k = true := by
  rw [read] at h
  cases hargs : Argument.ofTexts ts with
  | error e =>
    rw [hargs] at h
    cases h
  | ok args =>
    rw [hargs] at h
    have hmem := Argument.mem_of_ofTexts hargs ht hswitch
    rw [isOn, on_readFrom h]
    simpa using ⟨switch, hmem, hk⟩

end Arguments

namespace Command

/-- A plan is for a trial if the switch is on. -/
theorem dryRun_of_plan_eq_ok {settings : Setting.Record} {t : FileTree} {a : Arguments}
    {plan : Plan} (h : Command.plan settings t a = .ok plan) : plan.dryRun = a.isOn .dryRun := by
  rw [Command.plan] at h
  split at h
  · cases h
  · split at h
    · cases h
    · cases h
    · dsimp only at h
      split at h
      · exact Except.ok.inj h ▸ rfl
      · cases h

/-- **A trial run of the command** changes nothing, whatever the other switches. -/
theorem tree_run_trial {a : Arguments} (ha : a.isOn .dryRun = true) (w : Workshop)
    (settings : Setting.Record) (t : FileTree) : (Command.run w settings t a).tree = t := by
  rw [Command.run]
  cases hplan : Command.plan settings t a with
  | error e => rfl
  | ok plan => exact Plan.run_dryRun ((dryRun_of_plan_eq_ok hplan).trans ha)

end Command

namespace Console

theorem tree_ending (traced : Bool) (o : Outcome) : (ending traced o).tree = o.tree := by
  rw [ending]
  split <;> rfl

/-- The switch for trial runs. -/
def trialSwitch : Text := "--dry-run".toList

/-- **Trial runs** change nothing. The trial of a build has the report that the build in earnest has
when it ends well; and what stops it would stop the build in earnest too, before anything is
written. -/
theorem trial_runs (w : Workshop) (t : FileTree) :
    (∀ j : Job, (j.asTrial.build w t).1 = t ∧
      (∀ r, (j.inEarnest.build w t).2 = .ok r → (j.asTrial.build w t).2 = .ok r) ∧
      ∀ e, (j.asTrial.build w t).2 = .error e → j.inEarnest.build w t = (t, .error e)) ∧
    (∀ settings a, a.isOn .dryRun = true → (Command.run w settings t a).tree = t) ∧
    ∀ settings ts, trialSwitch ∈ ts.takeWhile (· ≠ ['-', '-']) →
      (run w settings t (commandName :: ts)).tree = t := by
  refine ⟨fun j => ⟨by rw [Job.build_asTrial], fun r => Job.build_asTrial_of_report,
    fun e => Job.build_inEarnest_of_trial_error⟩, fun settings a ha =>
    Command.tree_run_trial ha w settings t, fun settings ts hts => ?_⟩
  rw [run, if_pos rfl, runCommand]
  split
  · rfl
  · rfl
  · rfl
  · next a hread =>
    rw [tree_ending]
    exact Command.tree_run_trial (Arguments.isOn_of_read hread hts rfl rfl) w settings t

end Console

namespace Detour

/-- The empty page is built. -/
theorem exists_build_blank :
    ∃ r, (((plan "out".toList).job blank).build workshop tree).2 = .ok r := by
  obtain ⟨demos, hp⟩ := compile_blank "out".toList
  have hfree : ∀ q ∈ ((plan "out".toList).job blank).output.parent.way, tree.isFile q = false := by
    decide
  have hopen : tree.afterMaking ((plan "out".toList).job blank).output.parent.way
      ((plan "out".toList).job blank).output.destination ≠ some .directory := by
    decide
  have hstore :=
    Job.store_of_open (p := ⟨HexReference.points blankComponent, demos, none⟩) hfree hopen
  rw [Job.unencodable?_points] at hstore
  have hearnest : ((plan "out".toList).job blank).dryRun = false := rfl
  rw [Job.build, hp]
  simp only [hearnest, Bool.false_eq_true, if_false, hstore]
  exact ⟨_, rfl⟩

/-- The empty page is built and the broken one is not, in a trial as in earnest. All switches may be
on at once. -/
theorem trial_runs_tree :
    (∃ r, (((plan "out".toList).job blank).inEarnest.build workshop tree).2 = .ok r ∧
      (((plan "out".toList).job blank).asTrial.build workshop tree).2 = .ok r) ∧
    (∃ e, (((plan "out".toList).job broken).asTrial.build workshop tree).2 = .error e ∧
      ((plan "out".toList).job broken).inEarnest.build workshop tree = (tree, .error e)) ∧
    (Command.run workshop [] tree
      { arguments "out".toList with on := [.outline, .queued, .dryRun, .verbose] }).tree = tree ∧
    (Console.run workshop [] tree (Console.commandName ::
      ["src".toList, "--async".toList, "--dry-run".toList, "--toc".toList])).tree = tree := by
  obtain ⟨hjob, hcommand, hconsole⟩ := Console.trial_runs workshop tree
  obtain ⟨r, hr⟩ := exists_build_blank
  obtain ⟨e, he⟩ : ∃ e, ((plan "out".toList).job broken).page tree = .error e := ⟨_, rfl⟩
  have hstop : (((plan "out".toList).job broken).asTrial.build workshop tree).2 =
      .error (.document e) := by
    rw [Job.build_asTrial, Job.compile, he]
    rfl
  exact ⟨⟨r, hr, (hjob _).2.1 r hr⟩, ⟨_, hstop, (hjob _).2.2 _ hstop⟩, hcommand _ _ (by decide),
    hconsole _ _ (by decide)⟩

end Detour

end Showcase

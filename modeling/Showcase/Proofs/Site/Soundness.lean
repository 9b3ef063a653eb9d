import Mathlib.Data.List.Induction
import Mathlib.Data.List.Nodup
import Showcase.Site.Command
import Showcase.Proofs.Site.Building

/-!
# Sound trees

A file tree is *sound* if each place is there once, and in a directory, as a file system has it.
What is at a place then has directories all the way down to it (`IsSound.directory_of_prefix`).

Trees stay sound: a file or a directory is put at a place only if a path leads there, and the last
step of a path starts in a directory. A step back is the one case in which the place does not lie in
the directory that the step starts from, but then it is a directory already and nothing is put there
(`IsSound.parent_of_place`). So a build leaves a sound tree sound, and so does the command
(`Command.isSound_run`).
-/

namespace Showcase

namespace FileTree

/-- Each place is there once, and in a directory. -/
structure IsSound (t : FileTree) : Prop where
  nodup : (t.entries.map Prod.fst).Nodup
  parent : ∀ e ∈ t.entries, t.find? e.1.dropLast = some .directory

variable {t u : FileTree} {d page : Path}

/-- What is found in a list of entries is one of them. -/
theorem exists_of_lookup {q : Place} {entry : Entry} {es : List (Place × Entry)}
    (h : lookup q es = some entry) : ∃ e ∈ es, e.1 = q := by
  induction es with
  | nil => cases h
  | cons e es ih =>
    rw [lookup] at h
    split at h
    · next he => exact ⟨e, List.mem_cons_self, he⟩
    · obtain ⟨e', he', hq⟩ := ih h
      exact ⟨e', List.mem_cons_of_mem e he', hq⟩

theorem isSome_lookup {q : Place} {es : List (Place × Entry)} (h : ∃ e ∈ es, e.1 = q) :
    (lookup q es).isSome = true := by
  induction es with
  | nil => simp at h
  | cons e es ih =>
    obtain ⟨e', he', hq⟩ := h
    rw [lookup]
    split
    · rfl
    · next hne =>
      obtain rfl | he' := List.mem_cons.1 he'
      · exact absurd hq hne
      · exact ih ⟨e', he', hq⟩

theorem isAbove_append_of_isDown (q : Place) {name : Text} (h : Place.isDown name = true) :
    Place.isAbove (q ++ [name]) = false := by
  simp only [Place.isDown, Bool.and_eq_true, decide_eq_true_eq] at h
  obtain ⟨hback, htop⟩ := h
  have hne : q ++ [name] ≠ [Place.top] := by
    intro heq
    have := congrArg List.getLast? heq
    simp [htop] at this
  simp [Place.isAbove, hback, hne]

/-- What is at a place down from another one is in a directory. -/
theorem IsSound.directory_of_concat (ht : t.IsSound) {q : Place} {name : Text}
    (hname : Place.isDown name = true) (h : (t.find? (q ++ [name])).isSome = true) :
    t.find? q = some .directory := by
  obtain ⟨entry, hentry⟩ := Option.isSome_iff_exists.1 h
  rw [find?, isAbove_append_of_isDown q hname, if_neg Bool.false_ne_true] at hentry
  obtain ⟨e, he, heq⟩ := exists_of_lookup hentry
  have := ht.parent e he
  rwa [heq, List.dropLast_concat] at this

/-- On the way down to something there are directories. -/
theorem IsSound.directory_of_prefix (ht : t.IsSound) {q : Place} {dirs : List Text} {name : Text}
    (hdirs : dirs.all Place.isDown = true) (hname : Place.isDown name = true)
    (h : (t.find? (q ++ (dirs ++ [name]))).isSome = true) {first : List Text}
    (hfirst : first <+: dirs) : t.find? (q ++ first) = some .directory := by
  obtain ⟨rest, rfl⟩ := hfirst
  -- one directory less at a time, from the last one on
  induction rest using List.reverseRecOn generalizing name with
  | nil =>
    rw [List.append_nil, ← List.append_assoc] at h
    exact ht.directory_of_concat hname h
  | append_singleton rest last ih =>
    rw [← List.append_assoc, List.all_append, Bool.and_eq_true] at hdirs
    have hlast : Place.isDown last = true := by simpa using hdirs.2
    have hdir := ht.directory_of_concat (q := q ++ (first ++ (rest ++ [last]))) hname
      (by rwa [← List.append_assoc] at h)
    refine ih hlast hdirs.1 ?_
    rw [List.append_assoc, hdir]
    rfl

/-! ## Trees stay sound -/

/-- Inserting brings in one entry. -/
theorem mem_insert {q : Place} {entry : Entry} {es : List (Place × Entry)} {e : Place × Entry}
    (h : e ∈ insert q entry es) : e = (q, entry) ∨ e ∈ es := by
  induction es with
  | nil => exact .inl (List.mem_singleton.1 h)
  | cons e' es ih =>
    rw [insert] at h
    split at h
    · exact (List.mem_cons.1 h).imp_right (List.mem_cons_of_mem e')
    · obtain rfl | h := List.mem_cons.1 h
      · exact .inr List.mem_cons_self
      · exact (ih h).imp_right (List.mem_cons_of_mem e')

/-- Inserting replaces what was there, so no place is there twice. -/
theorem nodup_insert {q : Place} {entry : Entry} {es : List (Place × Entry)}
    (h : (es.map Prod.fst).Nodup) : ((insert q entry es).map Prod.fst).Nodup := by
  induction es with
  | nil => simp [insert]
  | cons e es ih =>
    obtain ⟨hnotin, hes⟩ := List.nodup_cons.1 h
    rw [insert]
    split
    · next he =>
      rw [he] at hnotin
      exact List.nodup_cons.2 ⟨hnotin, hes⟩
    · next hne =>
      refine List.nodup_cons.2 ⟨fun hmem => ?_, ih hes⟩
      obtain ⟨e', he', heq⟩ := List.mem_map.1 hmem
      obtain rfl | he' := mem_insert he'
      · exact hne heq.symm
      · exact hnotin (heq ▸ List.mem_map_of_mem he')

/-- Something may be put at a place in a directory, but no file in the place of a directory. -/
theorem IsSound.put (ht : t.IsSound) {q : Place} {entry : Entry}
    (hq : t.find? q ≠ some .directory) (hparent : t.find? q.dropLast = some .directory) :
    (t.put q entry).IsSound where
  nodup := nodup_insert ht.nodup
  parent e he := by
    have hdirectory : t.find? e.1.dropLast = some .directory := by
      obtain rfl | he := mem_insert he
      · exact hparent
      · exact ht.parent e he
    have hne : e.1.dropLast ≠ q := by
      intro heq
      exact hq (heq ▸ hdirectory)
    rw [find?_put_of_ne hne, hdirectory]

/-- A step back from a directory leads to a directory. -/
theorem IsSound.directory_dropLast (ht : t.IsSound) {q : Place}
    (hq : t.find? q = some .directory) (habove : q.isAbove = false) :
    t.find? q.dropLast = some .directory := by
  rw [find?, habove, if_neg Bool.false_ne_true] at hq
  obtain ⟨e, he, rfl⟩ := exists_of_lookup hq
  exact ht.parent e he

/-- A step from a directory that leads to no directory leads into one. -/
theorem IsSound.directory_of_step (ht : t.IsSound) {q : Place} {name : Text}
    (hq : t.find? q = some .directory) (hstep : t.find? (q.step name) ≠ some .directory) :
    t.find? (q.step name).dropLast = some .directory := by
  rw [Place.step] at hstep ⊢
  split at hstep
  · -- steps back lead to directories
    split at hstep
    · exact absurd hq hstep
    · next htop =>
      split at hstep
      · next habove =>
        have hall : q.all (· == Place.back) = true := by
          simpa [Place.isAbove, htop] using habove
        have hback : Place.isAbove (q ++ [Place.back]) = true := by
          rw [Place.isAbove, List.all_append, hall]
          rfl
        exact absurd (by rw [find?, if_pos hback]) hstep
      · next habove =>
        exact absurd (ht.directory_dropLast hq (by simpa using habove)) hstep
  · next hdown =>
    rw [if_neg hdown, List.dropLast_concat]
    exact hq

/-- The way to a path ends at the directory that holds it. -/
theorem directory_parent {p : Path} (hway : ∀ q ∈ p.parent.way, t.find? q = some .directory) :
    t.find? p.parent.destination = some .directory := by
  by_cases hnone : p.parent.parts = []
  · rw [Path.destination, hnone]
    exact find?_start t p.parent
  · rw [Path.way_eq_concat hnone] at hway
    exact hway _ (List.mem_append_right _ (List.mem_singleton_self _))

/-- Where a path leads to no directory, it leads into one. -/
theorem IsSound.parent_of_place (ht : t.IsSound) {p : Path} {q : Place} (hplace : t.place p = .ok q)
    (hq : t.find? q ≠ some .directory) : t.find? q.dropLast = some .directory := by
  obtain ⟨rfl, hway⟩ := passable_of_place hplace
  by_cases hparts : p.parts = []
  · have hstart : p.destination = start p := by
      rw [Path.destination, hparts]
      rfl
    rw [hstart, find?_start] at hq
    exact absurd rfl hq
  · have hstep : p.destination = p.parent.destination.step (p.parts.getLast hparts) := by
      conv => lhs; rw [← Path.parent_append_last p hparts, Path.destination_append]
      rfl
    rw [hstep] at hq ⊢
    exact ht.directory_of_step (directory_parent hway) hq

/-- Writing a file keeps a tree sound: its directory has to be there. -/
theorem IsSound.write (ht : t.IsSound) {p : Path} {bytes : List Nat}
    (h : t.write p bytes = .ok u) : u.IsSound := by
  unfold FileTree.write at h
  split at h
  · cases h
  · next q hplace =>
    split at h
    · cases h
    · next hq =>
      cases h
      exact ht.put (fun hdirectory => hq hdirectory) (ht.parent_of_place hplace
        fun hdirectory => hq hdirectory)

/-- Making a directory keeps a tree sound, for the same reason. -/
theorem IsSound.makeDirectory (ht : t.IsSound) {p : Path} (h : t.makeDirectory p = .ok u) :
    u.IsSound := by
  unfold FileTree.makeDirectory at h
  split at h
  · cases h
  · next q hplace =>
    split at h
    · cases h
    · next hq =>
      cases h
      exact ht.put (by simp [hq]) (ht.parent_of_place hplace (by simp [hq]))

/-- So does making the directories on a way, also when it fails on the way. -/
theorem IsSound.makeDirectories (ht : t.IsSound) (p : Path) : (t.makeDirectories p).1.IsSound := by
  -- the induction is on the length of the path: when its parent is missing, that is made first
  induction hn : p.parts.length generalizing p with
  | zero =>
    rw [FileTree.makeDirectories]
    split
    · next hmake => exact ht.makeDirectory hmake
    · rw [dif_pos (List.length_eq_zero_iff.1 hn)]
      exact ht
    · exact ht
  | succ n ih =>
    have hp : p.parts ≠ [] := by
      intro h
      simp [h] at hn
    have hparent := ih p.parent (by simp [Path.parent, hn])
    rw [FileTree.makeDirectories]
    split
    · next hmake => exact ht.makeDirectory hmake
    · rw [dif_neg hp]
      split
      · next heq =>
        rw [heq] at hparent
        exact hparent
      · next heq =>
        rw [heq] at hparent
        split
        · next hmake => exact hparent.makeDirectory hmake
        · exact hparent
    · exact ht

end FileTree

namespace Job

variable {w : Workshop} {t : FileTree}

/-- A file that could not be encoded is an empty file, and does no harm. -/
theorem isSound_writeFile (ht : t.IsSound) (p : Path) (text : HexReference.Points) :
    (writeFile t p text).1.IsSound := by
  unfold writeFile
  split
  · next hwrite => exact ht.write hwrite
  · exact ht

theorem isSound_writeAll (ht : t.IsSound) (files : List (Path × HexReference.Points)) :
    (writeAll t files).1.IsSound := by
  induction files generalizing t with
  | nil => exact ht
  | cons f files ih =>
    have hfile := isSound_writeFile ht f.1 f.2
    rw [writeAll]
    split
    · next heq =>
      rw [heq] at hfile
      exact hfile
    · next heq =>
      rw [heq] at hfile
      exact ih hfile

/-- **A build leaves a sound tree sound.** -/
theorem isSound_build (ht : t.IsSound) (j : Job) : (j.build w t).1.IsSound := by
  obtain heq | ⟨p, -, heq⟩ := tree_build w t j
  · rw [heq]
    exact ht
  · have hmade := ht.makeDirectories j.output.parent
    rw [heq, store_eq]
    split
    · next hmake =>
      rw [hmake] at hmade
      exact hmade
    · next hmake =>
      rw [hmake] at hmade
      exact isSound_writeAll hmade _

end Job

/-! ## Runs -/

section Runs

variable {w : Workshop} {t : FileTree}

/-- A task keeps a tree sound, be it built, given up or to be tried again. -/
theorem Task.isSound_run (ht : t.IsSound) (k : Task) : (k.run w t).tree.IsSound := by
  have hbuild := Job.isSound_build (w := w) ht k.job
  unfold Task.run
  split
  · next heq => rw [heq] at hbuild; exact hbuild
  · next heq => rw [heq] at hbuild; split <;> exact hbuild
  · next heq => rw [heq] at hbuild; exact hbuild

/-- So do all of its attempts, by induction on how many are left. -/
theorem Task.isSound_runQueued (ht : t.IsSound) (k : Task) (retries : Nat) :
    (k.runQueued w t retries).tree.IsSound := by
  induction retries generalizing t with
  | zero => exact k.isSound_run ht
  | succ n ih =>
    rw [Task.runQueued]
    split
    · exact ih (k.isSound_run ht)
    · exact k.isSound_run ht

/-- A page keeps a tree sound, be it built at once or queued. -/
theorem Plan.isSound_runPage (ht : t.IsSound) (plan : Plan) (page : Path) :
    (plan.runPage w t page).1.IsSound := by
  unfold Plan.runPage
  split
  · exact ht
  · next target _ =>
    split
    · exact Task.isSound_runQueued ht _ _
    · have hbuild := Job.isSound_build (w := w) ht ⟨page, target, plan.outline, plan.dryRun⟩
      unfold Plan.buildPage
      split <;> next heq => rw [heq] at hbuild; exact hbuild

/-- **A run over pages keeps a tree sound**, also one that ends early. -/
theorem Plan.isSound_runPages (ht : t.IsSound) (plan : Plan) (pages : List Path) :
    (plan.runPages w t pages).tree.IsSound := by
  induction pages generalizing t with
  | nil => exact ht
  | cons page pages ih =>
    have hpage := plan.isSound_runPage (w := w) ht page
    rw [Plan.runPages]
    split
    · next heq => rw [heq] at hpage; exact hpage
    · next heq => rw [heq] at hpage; exact ih hpage

/-- **Whatever it is asked for, the command leaves a sound tree sound.** -/
theorem Command.isSound_run (ht : t.IsSound) (settings : Setting.Record) (a : Arguments) :
    (Command.run w settings t a).tree.IsSound := by
  unfold Command.run
  split
  · exact ht
  · next plan _ =>
    have hpages := plan.isSound_runPages (w := w) ht (t.pages plan.source)
    rw [Plan.run.eq_def]
    simp only
    split
    · exact hpages
    · split <;> exact hpages

end Runs

end Showcase

import Mathlib.Data.List.Nodup
import Showcase.Proofs.Site.Names

/-!
# Building again

A build that is tried again in the tree that the first try has left changes nothing, whether or not
it fails (`Job.build_again`): the directories on its way are there up to the first file
(`FileTree.makeDirectories_again`), and what was written is written again, up to the first path
where a directory is (`Job.writeAll_again`). The tree stays the same entry by entry, and not just in
what is found in it.

The job must find its page as it was, so it may not write to it. Its own two paths never lead to the
same place (`Job.nodup_destinations`), for no name is a shorter name with two points in its suffix.
-/

namespace Showcase

namespace FileTree

variable {t : FileTree} {p : Path}

/-! ## The same entry -/

theorem insert_eq_self {place : Place} {entry : Entry} {es : List (Place × Entry)}
    (h : lookup place es = some entry) : insert place entry es = es := by
  induction es with
  | nil => cases h
  | cons e es ih =>
    rw [lookup] at h
    rw [insert]
    split
    · next he =>
      rw [if_pos he] at h
      rw [← he, ← Option.some.inj h]
    · next he =>
      rw [if_neg he] at h
      rw [ih h]

/-- What is at a place already may be put there. -/
theorem put_eq_self {place : Place} {entry : Entry} (habove : place.isAbove = false)
    (h : t.find? place = some entry) : t.put place entry = t := by
  rw [find?, habove, if_neg Bool.false_ne_true] at h
  rw [put, insert_eq_self h]

/-! ## The same directories -/

/-- Nothing is missing before the first file. -/
theorem obstacle?_ne_missing {qs more : List Place}
    (h : ∀ q ∈ (qs ++ more).takeWhile (!t.isFile ·), t.find? q = some .directory) :
    t.obstacle? qs ≠ some .missing := by
  induction qs with
  | nil => simp [obstacle?]
  | cons q qs ih =>
    rw [List.cons_append] at h
    rw [obstacle?]
    split
    -- what comes first and is no file is among the directories
    · next hq =>
      refine ih fun r hr => h r ?_
      rw [List.takeWhile_cons_of_pos (by simp [isFile_of_directory hq])]
      exact List.mem_cons_of_mem q hr
    · simp
    · next hq =>
      have hmem : q ∈ (q :: (qs ++ more)).takeWhile (!t.isFile ·) := by
        rw [List.takeWhile_cons_of_pos (by simp [isFile_of_none hq])]
        exact List.mem_cons_self
      rw [h q hmem] at hq
      cases hq

/-- Where there are directories up to the first file, the last one cannot be made: it is there, or
the way to it is barred by a file. -/
theorem makeDirectory_of_directories
    (h : ∀ q ∈ p.way.takeWhile (!t.isFile ·), t.find? q = some .directory) :
    ∃ e, t.makeDirectory p = .error e ∧ e ≠ .missing := by
  rw [makeDirectory]
  by_cases hp : p.parts = []
  · simp only [place_of_no_parts hp, find?_start]
    exact ⟨_, rfl, by decide⟩
  rw [Path.way_eq_concat hp] at h
  -- what is in the way is a file, for the directories before it are there
  have hparent := obstacle?_ne_missing h
  rw [place_eq t hp]
  cases hobstacle : t.obstacle? p.parent.way with
  | some e =>
    refine ⟨e, rfl, fun he => hparent ?_⟩
    rw [hobstacle, he]
  | none =>
    simp only
    cases hd : t.find? p.destination with
    | some entry => exact ⟨_, rfl, by decide⟩
    | none =>
      -- no file is on the way, so the directory itself should be there, which it is not
      have hfree : ∀ q ∈ p.parent.way ++ [p.destination], t.isFile q = false :=
        List.forall_mem_append.2 ⟨fun q hq =>
          isFile_of_directory (obstacle?_eq_none.1 hobstacle q hq),
          List.forall_mem_singleton.2 (isFile_of_none hd)⟩
      rw [takeWhile_of_no_file hfree] at h
      rw [h _ (List.mem_append_right _ (List.mem_singleton_self _))] at hd
      cases hd

/-- So nothing is made. -/
theorem makeDirectories_of_directories
    (h : ∀ q ∈ p.way.takeWhile (!t.isFile ·), t.find? q = some .directory) :
    (t.makeDirectories p).1 = t := by
  obtain ⟨e, he, hne⟩ := makeDirectory_of_directories h
  rw [makeDirectories, he]
  split
  · next heq => cases heq
  · next heq => exact absurd (Except.error.inj heq) hne
  · rfl

/-- **Directories that were made are not made again.** -/
theorem makeDirectories_again (t : FileTree) (p : Path) :
    ((t.makeDirectories p).1.makeDirectories p).1 = (t.makeDirectories p).1 := by
  have hmakes := t.makes_makeDirectories p
  refine makeDirectories_of_directories fun q hq => ?_
  rw [takeWhile_of_same_files fun r _ => (hmakes.agreesAt r).isFile] at hq
  rw [hmakes.find?, if_pos hq]

end FileTree

namespace Job

open HexReference (Points)

/-! ## The same files -/

section Files

variable {t : FileTree} {way : List Place} {fs : List (Path × Points)}

/-- **Files that were written are written again.** -/
theorem writeAll_again (hfiles : Neighbours way fs)
    (hway : ∀ q ∈ way, t.find? q = some .directory)
    (hnodup : (fs.map fun f => f.1.destination).Nodup) :
    (writeAll (writeAll t fs).1 fs).1 = (writeAll t fs).1 := by
  induction fs generalizing t with
  | nil => rfl
  | cons f fs ih =>
    obtain ⟨hf, hrest⟩ := List.forall_mem_cons.1 hfiles
    obtain ⟨hnotin, hnodup⟩ := List.nodup_cons.1 hnodup
    have hlater : ∀ q ∈ way, (writeAll t (f :: fs)).1.find? q = some .directory :=
      fun q hq => directory_writeAll hfiles hway (hway q hq)
    have hagain := @writeAll_cons _ f fs (hf ▸ hlater)
    have hfirst := @writeAll_cons _ f fs (hf ▸ hway)
    by_cases hd : t.find? f.1.destination = some .directory
    · -- a directory was in the way, and still is
      rw [if_pos hd] at hfirst
      rw [hfirst] at hagain ⊢
      rw [hagain, if_pos hd]
    · -- the file was written, and the others did not change it
      rw [if_neg hd] at hfirst
      have habove := isAbove_of_find?_ne hd
      have hway' : ∀ q ∈ way, (written t f).find? q = some .directory :=
        fun q hq => directory_put hd (hway q hq)
      have hrewritten {u : FileTree}
          (hfile : u.find? f.1.destination = some (.file (content f.2))) : written u f = u :=
        FileTree.put_eq_self habove hfile
      have hnew : (written t f).find? f.1.destination = some (.file (content f.2)) :=
        FileTree.find?_put_self habove _
      cases hcause : unencodable? f.2 with
      | some cause =>
        -- the text has no encoding, so the file is empty, and it is emptied again
        rw [hcause] at hfirst hagain
        simp only at hfirst hagain
        rw [hfirst, hnew, if_neg (by simp), hrewritten hnew] at hagain
        rw [hfirst, hagain]
      | none =>
        rw [hcause] at hfirst hagain
        simp only at hfirst hagain
        have hfile : (writeAll t (f :: fs)).1.find? f.1.destination =
            some (.file (content f.2)) := by
          rw [hfirst, find?_writeAll_of_ne hrest hway' fun g hg heq =>
            hnotin (List.mem_map.2 ⟨g, hg, heq.symm⟩), hnew]
        rw [hfile, if_neg (by simp), hrewritten hfile] at hagain
        rw [hagain, hfirst]
        exact ih hrest hway' hnodup

/-- **A product that was stored is stored again.** -/
theorem store_again {output : Path} {p : Product}
    (hfiles : Neighbours output.parent.way (files output p))
    (hnodup : ((files output p).map fun f => f.1.destination).Nodup) :
    (store (store t output p).1 output p).1 = (store t output p).1 := by
  have hmakes := t.makes_makeDirectories output.parent
  -- storing changes no files on the way, so the directories can be made again or not as before
  have hfault : ((store t output p).1.makeDirectories output.parent).2 = none ↔
      (t.makeDirectories output.parent).2 = none := by
    rw [((store t output p).1.makes_makeDirectories output.parent).fault, hmakes.fault]
    exact forall₂_congr fun q hq => by rw [isFile_store hfiles hq]
  by_cases h : (t.makeDirectories output.parent).2 = none
  -- in the second attempt there is nothing to make, and the files are written over
  · have hway : ∀ q ∈ output.parent.way,
        (t.makeDirectories output.parent).1.find? q = some .directory :=
      fun q hq => hmakes.directory_of_mem h hq
    have hmade : ((store t output p).1.makeDirectories output.parent).1 = (store t output p).1 := by
      refine FileTree.makeDirectories_of_directories fun q hq => ?_
      rw [store_of_made h]
      exact directory_writeAll hfiles hway (hway q (List.takeWhile_subset _ hq))
    rw [store_of_made (hfault.2 h), hmade, store_of_made h]
    exact writeAll_again hfiles hway hnodup
  · have hagain := store_of_fault (p := p) (mt hfault.1 h)
    have hfirst := store_of_fault (p := p) h
    rw [hagain, hfirst]
    exact FileTree.makeDirectories_again t output.parent

end Files

/-! ## The same document -/

variable {w : Workshop} {t : FileTree} {j : Job}

theorem step_ne_concat {q : Place} {name other : Text} (hne : name ≠ other)
    (hother : Place.isDown other = true) : q.step name ≠ q ++ [other] := by
  intro heq
  have hlength := congrArg List.length heq
  have hback : other ≠ Place.back := by
    rintro rfl
    exact absurd hother (by decide)
  rw [Place.step] at heq hlength
  -- a step back leads to a shorter place, or nowhere
  split at heq
  · split at heq
    · simp at heq
    · split at heq
      · exact hback (List.cons.inj (List.append_cancel_left heq)).1.symm
      · next habove htop =>
        rw [heq] at hlength
        have := congrArg List.length heq
        rw [List.length_dropLast, List.length_append, List.length_singleton] at this
        omega
  · exact hne (List.cons.inj (List.append_cancel_left heq)).1

/-- The paths of a job lead to different places. -/
theorem nodup_destinations (j : Job) : (j.writePaths.map Path.destination).Nodup := by
  rw [writePaths, outlinePath?]
  split
  · cases hsuffix : j.output.withSuffix? ".toc.json".toList with
    | none => exact List.nodup_singleton _
    | some path =>
      obtain ⟨name, hname, rfl⟩ := Option.map_eq_some_iff.1 hsuffix
      have houtput : j.output.parent.append [name] = j.output := by
        rw [Path.append, Path.parent, List.dropLast_append_getLast? name hname]
      have hpoint : '.' ∈ "toc.json".toList := by decide
      -- the component would have to be named like an outline; but a stem has lost its last suffix
      have hne : name ≠ Path.stem name ++ ".toc.json".toList := (Path.stem_append_ne hpoint).symm
      have hdown := (Plan.isWritten_outline (Path.stem name)).1
      have hdestination : j.output.destination = j.output.parent.destination.step name := by
        conv => lhs; rw [← houtput, Path.destination_append]
        rfl
      refine List.nodup_cons.2 ⟨fun hmem => ?_, List.nodup_singleton _⟩
      rw [Option.toList_some, List.map_singleton, List.mem_singleton, hdestination,
        Path.destination_append, Place.after_cons, Place.after_nil, Place.step_of_isDown hdown]
        at hmem
      exact step_ne_concat hne hdown hmem
  · exact List.nodup_singleton _

/-- **A build that is tried again changes nothing**, if it does not change its own page. -/
theorem build_again (hread : (j.build w t).1.read j.source = t.read j.source) :
    (j.build w (j.build w t).1).1 = (j.build w t).1 := by
  have hcompile := compile_eq_of_read_eq (w := w) hread
  obtain heq | ⟨p, hp, heq⟩ := tree_build w t j
  · rw [heq, heq]
  · obtain heq' | ⟨p', hp', heq'⟩ := tree_build w (j.build w t).1 j
    · exact heq'
    · rw [hcompile, hp] at hp'
      obtain rfl := Except.ok.inj hp'
      have hnodup : ((files j.output p).map fun f => f.1.destination).Nodup := by
        have := j.nodup_destinations
        rwa [← map_fst_files hp, List.map_map] at this
      rw [heq', heq]
      exact store_again (neighbours_files hp) hnodup

end Job

end Showcase

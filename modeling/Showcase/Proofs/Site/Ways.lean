import Mathlib.Data.List.TakeWhile
import Showcase.Site.FileTree

/-!
# Ways

The *way* of a path is the list of the places that its steps lead to, one after the other; the last
of them is its *destination*. Both are read off the path alone. What is at the places only decides
how far an operation comes:

* a path has a place exactly if there are directories all along the way to its last step
  (`place_of_passable`, `passable_of_place`);
* `makeDirectories` goes along the way and makes every directory that is missing, up to the first
  file, and it succeeds exactly if there is no file on the way (`makes_makeDirectories`).

The second is not how the directories are made: they are tried from the last one backwards, and a
way with steps back may lead to the same place several times. It makes no difference.
-/

namespace Showcase

namespace Place

/-- The places that steps lead to, one after the other. -/
def way : Place → List Text → List Place
  | _, [] => []
  | p, name :: names => p.step name :: way (p.step name) names

/-- The place that steps lead to, whatever is on the way. -/
def after (p : Place) (names : List Text) : Place := names.foldl step p

@[simp]
theorem after_nil (p : Place) : p.after [] = p := rfl

@[simp]
theorem after_cons (p : Place) (name : Text) (names : List Text) :
    p.after (name :: names) = (p.step name).after names := rfl

/-- Steps are taken one after the other. -/
theorem after_append (p : Place) (names more : List Text) :
    p.after (names ++ more) = (p.after names).after more := by
  simp [after]

/-- The way of more steps goes on where the first ones end. -/
theorem way_append (p : Place) (names more : List Text) :
    p.way (names ++ more) = p.way names ++ (p.after names).way more := by
  induction names generalizing p with
  | nil => rfl
  | cons name names ih => simp [way, ih]

/-- A step down adds a name. -/
theorem step_of_isDown {name : Text} (h : isDown name = true) (p : Place) :
    p.step name = p ++ [name] := by
  have hback : name ≠ back := by
    intro hb
    simp [isDown, hb] at h
  rw [step, if_neg hback]

/-- Steps down add their names. -/
theorem after_of_isDown (p : Place) {names : List Text} (h : names.all isDown = true) :
    p.after names = p ++ names := by
  induction names generalizing p with
  | nil => simp
  | cons name names ih =>
    rw [List.all_cons, Bool.and_eq_true] at h
    rw [after_cons, step_of_isDown h.1, ih _ h.2, List.append_assoc, List.singleton_append]

/-- On a way that leads down there are the places that begin with the first one. -/
theorem prefix_of_mem_way {p q : Place} {names : List Text} (h : names.all isDown = true)
    (hq : q ∈ p.way names) : ∃ first, first ≠ [] ∧ first <+: names ∧ q = p ++ first := by
  induction names generalizing p with
  | nil => cases hq
  | cons name names ih =>
    rw [List.all_cons, Bool.and_eq_true] at h
    rw [way, step_of_isDown h.1, List.mem_cons] at hq
    obtain rfl | hq := hq
    · exact ⟨[name], by simp, ⟨names, rfl⟩, rfl⟩
    · obtain ⟨first, -, hfirst, rfl⟩ := ih h.2 hq
      exact ⟨name :: first, by simp, (List.prefix_cons_inj name).2 hfirst, by simp⟩

end Place

namespace Path

/-- The places that the steps of a path lead to, one after the other. -/
def way (p : Path) : List Place := (FileTree.start p).way p.parts

/-- The place that a path leads to, whatever is on the way. -/
def destination (p : Path) : Place := (FileTree.start p).after p.parts

/-- The way of a path with more names goes on from where it leads. -/
theorem way_append (p : Path) (names : List Text) :
    (p.append names).way = p.way ++ p.destination.way names :=
  Place.way_append _ _ _

/-- And so does its destination. -/
theorem destination_append (p : Path) (names : List Text) :
    (p.append names).destination = p.destination.after names :=
  Place.after_append _ _ _

/-- A path is its parent and its last name. -/
theorem parent_append_last (p : Path) (h : p.parts ≠ []) :
    p.parent.append [p.parts.getLast h] = p := by
  cases p
  simp [parent, append, List.dropLast_concat_getLast]

/-- The way of a path is that of its parent and one place more. -/
theorem way_eq_concat {p : Path} (h : p.parts ≠ []) : p.way = p.parent.way ++ [p.destination] := by
  conv => lhs; rw [← parent_append_last p h, way_append]
  conv => rhs; rw [← parent_append_last p h, destination_append]
  simp [Place.way, parent, append]

/-- Where a path begins, nothing can be put. -/
theorem isAbove_start (p : Path) : (FileTree.start p).isAbove = true := by
  unfold FileTree.start
  split <;> decide

end Path

namespace FileTree

variable {t : FileTree} {p : Path}

/-- A file is at a place. -/
def isFile (t : FileTree) (q : Place) : Bool :=
  match t.find? q with
  | some (.file _) => true
  | _ => false

theorem isFile_of_directory {q : Place} (h : t.find? q = some .directory) : t.isFile q = false := by
  rw [isFile, h]

theorem isFile_of_none {q : Place} (h : t.find? q = none) : t.isFile q = false := by
  rw [isFile, h]

/-- A path begins at a directory. -/
theorem find?_start (t : FileTree) (p : Path) : t.find? (start p) = some .directory := by
  rw [find?, if_pos (Path.isAbove_start p)]

/-- What is met first, other than a directory, when places are passed in turn. -/
def obstacle? (t : FileTree) : List Place → Option FileError
  | [] => none
  | q :: qs =>
    match t.find? q with
    | some .directory => t.obstacle? qs
    | some (.file _) => some .notDirectory
    | none => some .missing

/-- Nothing is in the way if all of it is directories. -/
theorem obstacle?_eq_none {qs : List Place} :
    t.obstacle? qs = none ↔ ∀ q ∈ qs, t.find? q = some .directory := by
  induction qs with
  | nil => simp [obstacle?]
  | cons q qs ih =>
    rw [obstacle?, List.forall_mem_cons]
    split
    · next h => rw [ih, and_iff_right h]
    · next h => simp [h]
    · next h => simp [h]

/-- What is in the way is missing or a file. -/
theorem obstacle?_cases {qs : List Place} {e : FileError} (h : t.obstacle? qs = some e) :
    e = .missing ∨ e = .notDirectory := by
  induction qs with
  | nil => cases h
  | cons q qs ih =>
    rw [obstacle?] at h
    split at h
    · exact ih h
    · exact .inr (Option.some.inj h).symm
    · exact .inl (Option.some.inj h).symm

/-- A file that is met first has only directories before it. -/
theorem exists_file_of_obstacle? {qs : List Place} (h : t.obstacle? qs = some .notDirectory) :
    (∃ q ∈ qs, t.isFile q = true) ∧
      ∀ q ∈ qs.takeWhile (!t.isFile ·), t.find? q = some .directory := by
  induction qs with
  | nil => cases h
  | cons q qs ih =>
    rw [obstacle?] at h
    split at h
    · next hq =>
      obtain ⟨⟨r, hr, hfile⟩, hbefore⟩ := ih h
      refine ⟨⟨r, List.mem_cons_of_mem q hr, hfile⟩, ?_⟩
      rw [List.takeWhile_cons_of_pos (by simp [isFile_of_directory hq]), List.forall_mem_cons]
      exact ⟨hq, hbefore⟩
    -- the first thing that is no directory is the file
    · next bytes hq =>
      have hfile : t.isFile q = true := by rw [isFile, hq]
      refine ⟨⟨q, List.mem_cons_self, hfile⟩, ?_⟩
      rw [List.takeWhile_cons_of_neg (by simp [hfile])]
      simp
    · cases h

/-- Steps are followed through directories, and no farther than to the first obstacle. -/
theorem follow_concat (t : FileTree) (q : Place) (names : List Text) (name : Text) :
    t.follow q (names ++ [name]) =
      match t.obstacle? (q :: q.way names) with
      | none => .ok (q.after (names ++ [name]))
      | some e => .error e := by
  induction names generalizing q with
  | nil =>
    simp only [List.nil_append, follow, Place.way, obstacle?]
    cases hq : t.find? q with
    | none => rfl
    | some entry => cases entry <;> rfl
  | cons n names ih =>
    rw [List.cons_append, follow, Place.way, obstacle?]
    cases hq : t.find? q with
    | none => rfl
    | some entry =>
      cases entry with
      | file bytes => rfl
      | directory => rw [ih, Place.after_cons]

/-- The place of a path, by what is on the way to its last step. -/
theorem place_eq (t : FileTree) (h : p.parts ≠ []) :
    t.place p =
      match t.obstacle? p.parent.way with
      | none => .ok p.destination
      | some e => .error e := by
  have hparts : p.parts = p.parent.parts ++ [p.parts.getLast h] :=
    (List.dropLast_concat_getLast h).symm
  rw [place, hparts, follow_concat, obstacle?, find?_start, ← hparts]
  rfl

/-- A path without names leads to where it begins. -/
theorem place_of_no_parts (h : p.parts = []) : t.place p = .ok (start p) := by
  rw [place, h]
  rfl

/-- A path leads to its destination where its way is made of directories. -/
theorem place_of_passable (h : ∀ q ∈ p.parent.way, t.find? q = some .directory) :
    t.place p = .ok p.destination := by
  by_cases hp : p.parts = []
  · rw [place, Path.destination, hp]
    rfl
  · rw [place_eq t hp, obstacle?_eq_none.2 h]

/-- And only there. -/
theorem passable_of_place {q : Place} (h : t.place p = .ok q) :
    q = p.destination ∧ ∀ r ∈ p.parent.way, t.find? r = some .directory := by
  by_cases hp : p.parts = []
  · simp only [place, hp, follow, Except.ok.injEq] at h
    refine ⟨by rw [← h, Path.destination, hp]; rfl, fun r hr => ?_⟩
    simp [Path.way, Path.parent, hp, Place.way] at hr
  · rw [place_eq t hp] at h
    split at h
    · next hnone => exact ⟨(Except.ok.inj h).symm, obstacle?_eq_none.1 hnone⟩
    · cases h

/-! ## Making directories -/

/-- A tree and a fault are what becomes of a tree when the directories of a way are made. -/
structure Makes (t : FileTree) (way : List Place) (made : FileTree × Option Fault) : Prop where
  /-- There are directories up to the first file, and all else is as it was. -/
  find? : ∀ q, made.1.find? q =
    if q ∈ way.takeWhile (!t.isFile ·) then some .directory else t.find? q
  /-- It succeeds exactly if there is no file. -/
  fault : made.2 = none ↔ ∀ q ∈ way, t.isFile q = false

/-- A way without files is passed to its end. -/
theorem takeWhile_of_no_file {qs : List Place} (h : ∀ q ∈ qs, t.isFile q = false) :
    qs.takeWhile (!t.isFile ·) = qs :=
  List.takeWhile_eq_self_iff.2 fun q hq => by simp [h q hq]

/-- How far a way is passed depends on the files on it. -/
theorem takeWhile_of_same_files {u : FileTree} {qs : List Place}
    (h : ∀ q ∈ qs, u.isFile q = t.isFile q) :
    qs.takeWhile (!u.isFile ·) = qs.takeWhile (!t.isFile ·) := by
  induction qs with
  | nil => rfl
  | cons q qs ih =>
    obtain ⟨hq, hqs⟩ := List.forall_mem_cons.1 h
    rw [List.takeWhile_cons, List.takeWhile_cons, hq, ih hqs]

/-- A way with a file on it is not passed further if it is longer. -/
theorem takeWhile_concat_of_file {qs : List Place} (h : ∃ q ∈ qs, t.isFile q = true) (r : Place) :
    (qs ++ [r]).takeWhile (!t.isFile ·) = qs.takeWhile (!t.isFile ·) := by
  induction qs with
  | nil => simp at h
  | cons q qs ih =>
    by_cases hq : t.isFile q = true
    · simp [hq]
    · obtain ⟨r, hr, hfile⟩ := h
      have hne : r ≠ q := by
        rintro rfl
        exact hq hfile
      have hrs : r ∈ qs := (List.mem_cons.1 hr).resolve_left hne
      simp [hq, ih ⟨r, hrs, hfile⟩]

/-- Nothing needs to be done where there are directories up to the first file. -/
theorem Makes.of_directories {way : List Place} {fault : Option Fault}
    (h : ∀ q ∈ way.takeWhile (!t.isFile ·), t.find? q = some .directory)
    (hfault : fault = none ↔ ∀ q ∈ way, t.isFile q = false) : Makes t way (t, fault) := by
  refine ⟨fun q => ?_, hfault⟩
  split
  · next hq => exact h q hq
  · rfl

/-- Whether a path is one of a directory is told at the place that it leads to. -/
theorem isDirectory_of_place {q : Place} (h : t.place p = .ok q) :
    t.isDirectory p = (t.find? q = some .directory) := by
  simp [isDirectory, h]

/-- A way whose other places are directories, or have just been made directories, ends with a
directory if there is no file. -/
theorem Makes.of_last {u : FileTree} {way : List Place} {d : Place}
    {made : FileTree × Option Fault}
    (hu : ∀ q, u.find? q = if q ∈ way then some .directory else t.find? q)
    (hway : ∀ q ∈ way, t.isFile q = false) (hother : ∀ q, q ≠ d → made.1.find? q = u.find? q)
    (hlast : made.1.find? d = if t.isFile d then u.find? d else some .directory)
    (hfault : made.2 = none ↔ t.isFile d = false) : Makes t (way ++ [d]) made := by
  -- all that precedes the last directory is made already
  have hall : (way ++ [d]).takeWhile (!t.isFile ·) =
      if t.isFile d then way else way ++ [d] := by
    rw [List.takeWhile_append_of_pos (fun q hq => by simp [hway q hq])]
    cases hd : t.isFile d <;> simp [hd]
  refine ⟨fun q => ?_, ?_⟩
  · rw [hall]
    by_cases hq : q = d
    · subst hq
      rw [hlast]
      cases t.isFile q with
      | true => exact hu q
      | false => simp
    · rw [hother q hq, hu q]
      cases t.isFile d <;> simp [hq]
  · rw [hfault]
    simp only [List.mem_append, List.mem_singleton, or_imp, forall_and, forall_eq]
    exact (and_iff_right hway).symm

/-- What `makeDirectory` finds at the end of such a way ends it. -/
theorem makes_last {u : FileTree} {way : List Place} {d : Place}
    (hu : ∀ q, u.find? q = if q ∈ way then some .directory else t.find? q)
    (hway : ∀ q ∈ way, t.isFile q = false) (hplace : u.place p = .ok d) :
    Makes t (way ++ [d])
      (match u.makeDirectory p with
        | .ok v => (v, none)
        | .error e => u.settle p e) := by
  -- whether the last place is a file is not changed by what was made before it
  have hfile : t.isFile d = u.isFile d := by
    by_cases hd : d ∈ way
    · rw [hway d hd, isFile_of_directory (by rw [hu, if_pos hd])]
    · rw [isFile, isFile, hu, if_neg hd]
  simp only [makeDirectory, hplace]
  cases hd : u.find? d with
  | none =>
    have hnone : t.isFile d = false := by rw [hfile, isFile_of_none hd]
    -- nothing can be made above the start, where there is always a directory
    have habove : d.isAbove = false := by
      by_contra h
      rw [find?, if_pos (by simpa using h)] at hd
      cases hd
    refine Makes.of_last hu hway (fun q hq => find?_put_of_ne hq .directory) ?_ (by simp [hnone])
    rw [hnone]
    exact find?_put_self habove .directory
  | some entry =>
    cases entry with
    | directory =>
      have hnone : t.isFile d = false := by rw [hfile, isFile_of_directory hd]
      refine Makes.of_last hu hway (fun q _ => rfl) ?_ ?_
      · rw [hnone]
        exact hd
      · simp [settle, isDirectory_of_place hplace, hd, hnone]
    | file bytes =>
      have hsome : t.isFile d = true := by rw [hfile, isFile, hd]
      refine Makes.of_last hu hway (fun q _ => rfl) ?_ ?_
      · rw [hsome]
        rfl
      · simp [settle, isDirectory_of_place hplace, hd, hsome]

/-- Where a file is met, nothing is made. -/
theorem makes_of_file (h : t.obstacle? p.parent.way = some .notDirectory) (d : Place) :
    Makes t (p.parent.way ++ [d]) (t, some ⟨.notDirectory, p⟩) := by
  obtain ⟨⟨q, hq, hfile⟩, hbefore⟩ := exists_file_of_obstacle? h
  refine Makes.of_directories ?_ ?_
  · rw [takeWhile_concat_of_file ⟨q, hq, hfile⟩]
    exact hbefore
  · simp only [reduceCtorEq, false_iff, not_forall]
    exact ⟨q, List.mem_append_left _ hq, by simp [hfile]⟩

/-- Where making the parent failed, nothing more is made. -/
theorem Makes.concat_of_fault {way : List Place} {u : FileTree} {fault : Fault}
    (h : Makes t way (u, some fault)) (d : Place) : Makes t (way ++ [d]) (u, some fault) := by
  have hfile : ∃ q ∈ way, t.isFile q = true := by
    by_contra hnone
    have hall : ∀ q ∈ way, t.isFile q = false := fun q hq => by
      by_contra hq'
      exact hnone ⟨q, hq, by simpa using hq'⟩
    cases h.fault.2 hall
  refine ⟨fun q => ?_, ?_⟩
  · rw [takeWhile_concat_of_file hfile]
    exact h.find? q
  · obtain ⟨q, hq, hfile⟩ := hfile
    simp only [reduceCtorEq, false_iff, not_forall]
    exact ⟨q, List.mem_append_left _ hq, by simp [hfile]⟩

/-- There is no directory to make where the path begins. -/
theorem makes_of_start (hp : p.parts = []) : Makes t p.way (t.makeDirectories p) := by
  have hplace : t.place p = .ok (start p) := place_of_no_parts hp
  have hway : p.way = [] := by
    rw [Path.way, hp]
    rfl
  rw [makeDirectories, makeDirectory, hplace, hway]
  simp only [find?_start]
  exact Makes.of_directories (by simp) (by simp [isDirectory_of_place hplace, find?_start])

/-- Where nothing is in the way, only the last directory is made. -/
theorem makes_of_passable (h : ∀ q ∈ p.parent.way, t.find? q = some .directory) :
    Makes t (p.parent.way ++ [p.destination]) (t.makeDirectories p) := by
  have hplace : t.place p = .ok p.destination := place_of_passable h
  have hsame : ∀ q, t.find? q = if q ∈ p.parent.way then some .directory else t.find? q := by
    intro q
    split
    · next hq => exact h q hq
    · rfl
  have hlast := makes_last hsame (fun q hq => isFile_of_directory (h q hq)) hplace
  -- the parent is there, so one attempt tells how it ends
  have hmake : t.makeDirectory p ≠ .error .missing := by
    simp only [makeDirectory, hplace]
    cases t.find? p.destination <;> simp
  rw [makeDirectories.eq_def]
  split
  · next h => rw [h] at hlast; exact hlast
  · next h => exact absurd h hmake
  · next h => rw [h] at hlast; exact hlast

/-- Where the parent is missing, it is made first. -/
theorem makes_of_parent (hp : p.parts ≠ []) (h : t.makeDirectory p = .error .missing)
    (hparent : Makes t p.parent.way (t.makeDirectories p.parent)) :
    Makes t (p.parent.way ++ [p.destination]) (t.makeDirectories p) := by
  rw [makeDirectories.eq_def, h]
  simp only
  rw [dif_neg hp]
  -- the second attempt has the directories that the parent needed
  cases hmade : t.makeDirectories p.parent with
  | mk u fault =>
    rw [hmade] at hparent
    cases fault with
    | some fault => exact hparent.concat_of_fault _
    | none =>
      have hway := hparent.fault.1 rfl
      have hu : ∀ q, u.find? q = if q ∈ p.parent.way then some .directory else t.find? q := by
        intro q
        rw [hparent.find? q, takeWhile_of_no_file hway]
      exact makes_last hu hway (place_of_passable fun q hq => by rw [hu, if_pos hq])

/-- **Making directories makes those that are missing on the way, up to the first file.** -/
theorem makes_makeDirectories (t : FileTree) (p : Path) : Makes t p.way (t.makeDirectories p) := by
  -- The recursion goes from a path to its parent.
  induction hn : p.parts.length generalizing p with
  | zero => exact makes_of_start (List.length_eq_zero_iff.1 hn)
  | succ n ih =>
    have hp : p.parts ≠ [] := by
      intro h
      simp [h] at hn
    rw [Path.way_eq_concat hp]
    cases hobstacle : t.obstacle? p.parent.way with
    | none => exact makes_of_passable (obstacle?_eq_none.1 hobstacle)
    | some e =>
      have hplace : t.place p = .error e := by rw [place_eq t hp, hobstacle]
      have hmake : t.makeDirectory p = .error e := by rw [makeDirectory, hplace]
      obtain rfl | rfl := obstacle?_cases hobstacle
      · exact makes_of_parent hp hmake (ih p.parent (by simp [Path.parent, hn]))
      · have hsettle : t.settle p .notDirectory = (t, some ⟨.notDirectory, p⟩) := by
          simp [settle, isDirectory, hplace]
        rw [makeDirectories.eq_def, hmake]
        simp only [hsettle]
        exact makes_of_file hobstacle _

end FileTree

end Showcase

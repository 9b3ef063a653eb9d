import Showcase.Site.Build
import Showcase.Proofs.Page.Complete
import Showcase.Proofs.Site.Ways

/-!
# What a build changes

Building a document makes directories on the way to the component and then writes files next to each
other. Whatever goes wrong, the changes are these: where nothing was on the way there may be a
directory (`agreesAt_build`), and at the paths that the job writes there may be a file. A directory
stays a directory (`directory_build`), and on the way files stay files and nothing becomes one
(`isFile_build`).

What matters for a build is little: its page, the files on its way, and what is at the paths that it
writes. In a tree that agrees with another one on these, the build ends in the same way and leaves
the same at the paths that it writes (`build_like`). The tree may have more directories, and there
is one place where that shows: a path of the job may itself be on the way, as `a.vue/../a.vue` is.
If the job fails before it makes directories, nothing is at this path, unless the directory was made
for another job.
-/

namespace Showcase

namespace FileTree

variable {way : List Place} {base t u : FileTree} {q : Place}

/-- A tree has at a place what another one has, up to a directory on a way where the other one has
nothing. -/
def AgreesAt (way : List Place) (base t : FileTree) (q : Place) : Prop :=
  t.find? q = base.find? q ∨ base.find? q = none ∧ t.find? q = some .directory ∧ q ∈ way

namespace AgreesAt

/-- Nothing has changed at the place. -/
theorem refl (way : List Place) (t : FileTree) (q : Place) : AgreesAt way t t q := .inl rfl

/-- Changes one after the other amount to one change of the same kind. -/
theorem trans (h : AgreesAt way base t q) (h' : AgreesAt way t u q) : AgreesAt way base u q := by
  obtain h | ⟨hbase, ht, hq⟩ := h
  · obtain h' | ⟨ht, hu, hq⟩ := h'
    · exact .inl (h'.trans h)
    · exact .inr ⟨h ▸ ht, hu, hq⟩
  · obtain h' | ⟨ht', -⟩ := h'
    · exact .inr ⟨hbase, h'.trans ht, hq⟩
    · rw [ht] at ht'
      cases ht'

/-- A longer way allows for more directories. -/
theorem mono {more : List Place} (h : AgreesAt way base t q) (hmore : q ∈ way → q ∈ more) :
    AgreesAt more base t q :=
  h.imp_right fun ⟨hbase, ht, hq⟩ => ⟨hbase, ht, hmore hq⟩

/-- Off the way nothing has changed. -/
theorem eq_of_not_mem (h : AgreesAt way base t q) (hq : q ∉ way) : t.find? q = base.find? q :=
  h.resolve_right fun ⟨_, _, hmem⟩ => hq hmem

/-- What was there before is still there. -/
theorem eq_of_some {entry : Entry} (h : AgreesAt way base t q)
    (hbase : base.find? q = some entry) : t.find? q = some entry := by
  obtain h | ⟨hnone, -⟩ := h
  · rw [h, hbase]
  · rw [hbase] at hnone
    cases hnone

/-- New directories are no files, so the same places are files. -/
theorem isFile (h : AgreesAt way base t q) : t.isFile q = base.isFile q := by
  obtain h | ⟨hbase, ht, -⟩ := h
  · rw [FileTree.isFile, FileTree.isFile, h]
  · rw [isFile_of_none hbase, isFile_of_directory ht]

end AgreesAt

namespace Makes

variable {made : FileTree × Option Fault}

/-- Making the directories of a way changes nothing but what is missing on it. -/
theorem agreesAt (h : Makes t way made) (q : Place) : AgreesAt way t made.1 q := by
  by_cases hq : q ∈ way.takeWhile (!t.isFile ·)
  · have hmade : made.1.find? q = some .directory := by rw [h.find?, if_pos hq]
    have hfile : t.isFile q = false := by simpa using List.mem_takeWhile_imp hq
    cases hbase : t.find? q with
    | none => exact .inr ⟨hbase, hmade, (List.takeWhile_subset _) hq⟩
    | some entry =>
      cases entry with
      | directory => exact .inl (by rw [hmade, hbase])
      | file bytes => simp [FileTree.isFile, hbase] at hfile
  · exact .inl (by rw [h.find?, if_neg hq])

/-- Making directories leaves directories alone. -/
theorem directory (h : Makes t way made) (hq : t.find? q = some .directory) :
    made.1.find? q = some .directory :=
  (h.agreesAt q).eq_of_some hq

/-- Where nothing was in the way, all of the way is directories. -/
theorem directory_of_mem (h : Makes t way made) (hfault : made.2 = none) (hq : q ∈ way) :
    made.1.find? q = some .directory := by
  rw [h.find?, takeWhile_of_no_file (h.fault.1 hfault), if_pos hq]

end Makes

end FileTree

namespace Job

open FileTree (AgreesAt)
open HexReference (Points)

section Files

variable {t u : FileTree} {way : List Place}

/-! ## Files next to each other -/

/-- The tree after files are written one after the other, and what went wrong. -/
def writeAll (t : FileTree) : List (Path × Points) → FileTree × Option Cause
  | [] => (t, none)
  | (p, text) :: files =>
    match writeFile t p text with
    | (t, some cause) => (t, some cause)
    | (t, none) => writeAll t files

/-- The file of a text that can be encoded holds its bytes, and nothing is reported. -/
theorem content_of_encode {text : Points} {bytes : List Nat} (h : Text.encode text = .ok bytes) :
    content text = bytes ∧ unencodable? text = none := by
  rw [content, unencodable?, h]
  exact ⟨rfl, rfl⟩

/-- The file of a text that cannot be encoded is empty, and the error of encoding is reported. -/
theorem content_of_encode_error {text : Points} {e : Text.EncodingError}
    (h : Text.encode text = .error e) :
    content text = [] ∧ unencodable? text = some (.encoding (.encoding e)) := by
  rw [content, unencodable?, h]
  exact ⟨rfl, rfl⟩

/-- A text is held in full. -/
theorem content_points (text : Text) : content (HexReference.points text) = Text.utf8 text := by
  rw [content, HexReference.points, Text.encode_points]
  rfl

/-- A text can always be written. -/
theorem unencodable?_points (text : Text) : unencodable? (HexReference.points text) = none := by
  rw [unencodable?, HexReference.points, Text.encode_points]

/-- The tree once a file holds what was written to it. -/
def written (t : FileTree) (f : Path × Points) : FileTree :=
  t.put f.1.destination (.file (content f.2))

/-- Where the way to a file is made, only a directory in its place keeps it from being opened. -/
theorem writeFile_of_passable {p : Path} (text : Points)
    (h : ∀ q ∈ p.parent.way, t.find? q = some .directory) :
    writeFile t p text =
      if t.find? p.destination = some .directory then (t, some (.file ⟨.isDirectory, p⟩))
      else (written t (p, text), unencodable? text) := by
  simp only [writeFile, FileTree.write, FileTree.place_of_passable h]
  cases hfind : t.find? p.destination with
  | none => simp [written]
  | some entry => cases entry <;> simp [written]

/-- Writing stops at the first directory in the place of a file, which stays as it is, and at the
first text that cannot be encoded, whose file is empty by then. -/
theorem writeAll_cons {f : Path × Points} {files : List (Path × Points)}
    (h : ∀ q ∈ f.1.parent.way, t.find? q = some .directory) :
    writeAll t (f :: files) =
      if t.find? f.1.destination = some .directory then (t, some (.file ⟨.isDirectory, f.1⟩))
      else
        match unencodable? f.2 with
        | some cause => (written t f, some cause)
        | none => writeAll (written t f) files := by
  rw [writeAll, writeFile_of_passable f.2 h]
  by_cases hd : t.find? f.1.destination = some .directory
  · simp only [if_pos hd]
  · simp only [if_neg hd]
    cases unencodable? f.2 <;> rfl

/-- Above the working directory there are only directories. -/
theorem isAbove_of_find?_ne {q : Place} (h : t.find? q ≠ some .directory) : q.isAbove = false := by
  by_contra habove
  exact h (by rw [FileTree.find?, if_pos (by simpa using habove)])

/-- The files stand next to each other: the way to each of them is the same. -/
def Neighbours (way : List Place) (files : List (Path × Points)) : Prop :=
  ∀ f ∈ files, f.1.parent.way = way

/-- A file put in the place of something else leaves directories alone. -/
theorem directory_put {q d : Place} {entry : Entry} (hd : t.find? d ≠ some .directory)
    (hq : t.find? q = some .directory) : (t.put d entry).find? q = some .directory := by
  have hne : q ≠ d := by
    rintro rfl
    exact hd hq
  rw [FileTree.find?_put_of_ne hne, hq]

section Neighbours

variable {files : List (Path × Points)}

/-- Directories stay, however many files are written. -/
theorem directory_writeAll (hfiles : Neighbours way files)
    (hway : ∀ q ∈ way, t.find? q = some .directory) {q : Place}
    (hq : t.find? q = some .directory) : (writeAll t files).1.find? q = some .directory := by
  induction files generalizing t with
  | nil => exact hq
  | cons f files ih =>
    obtain ⟨hf, hfiles⟩ := List.forall_mem_cons.1 hfiles
    rw [writeAll_cons (hf ▸ hway)]
    by_cases hd : t.find? f.1.destination = some .directory
    · rw [if_pos hd]
      exact hq
    · rw [if_neg hd]
      have hwritten : (written t f).find? q = some .directory := directory_put hd hq
      cases unencodable? f.2 with
      | some cause => exact hwritten
      | none => exact ih hfiles (fun r hr => directory_put hd (hway r hr)) hwritten

/-- Files change nothing but their own places. -/
theorem find?_writeAll_of_ne (hfiles : Neighbours way files)
    (hway : ∀ q ∈ way, t.find? q = some .directory) {q : Place}
    (hq : ∀ f ∈ files, q ≠ f.1.destination) : (writeAll t files).1.find? q = t.find? q := by
  induction files generalizing t with
  | nil => rfl
  | cons f files ih =>
    obtain ⟨hf, hfiles⟩ := List.forall_mem_cons.1 hfiles
    obtain ⟨hne, hq⟩ := List.forall_mem_cons.1 hq
    rw [writeAll_cons (hf ▸ hway)]
    by_cases hd : t.find? f.1.destination = some .directory
    · rw [if_pos hd]
    · rw [if_neg hd]
      have hwritten : (written t f).find? q = t.find? q := FileTree.find?_put_of_ne hne _
      cases unencodable? f.2 with
      | some cause => exact hwritten
      | none => exact (ih hfiles (fun r hr => directory_put hd (hway r hr)) hq).trans hwritten

/-- Files are written alike in two trees that have the same at their paths. -/
theorem writeAll_like (hfiles : Neighbours way files)
    (ht : ∀ q ∈ way, t.find? q = some .directory) (hu : ∀ q ∈ way, u.find? q = some .directory)
    {places : List Place} (hplaces : ∀ f ∈ files, f.1.destination ∈ places)
    (hsame : ∀ d ∈ places, u.find? d = t.find? d) :
    (writeAll u files).2 = (writeAll t files).2 ∧
      ∀ d ∈ places, (writeAll u files).1.find? d = (writeAll t files).1.find? d := by
  -- the induction is on the files: both trees agree at all places that are still to be written
  induction files generalizing t u with
  | nil => exact ⟨rfl, hsame⟩
  | cons f files ih =>
    obtain ⟨hf, hfiles⟩ := List.forall_mem_cons.1 hfiles
    obtain ⟨hplace, hplaces⟩ := List.forall_mem_cons.1 hplaces
    rw [writeAll_cons (hf ▸ hu), writeAll_cons (hf ▸ ht), hsame _ hplace]
    by_cases hd : t.find? f.1.destination = some .directory
    · rw [if_pos hd, if_pos hd]
      exact ⟨rfl, hsame⟩
    · have hd' : u.find? f.1.destination ≠ some .directory := by rwa [hsame _ hplace]
      rw [if_neg hd, if_neg hd]
      have habove := isAbove_of_find?_ne hd
      -- they still agree after one more file
      have hwritten : ∀ d ∈ places, (written u f).find? d = (written t f).find? d := by
        intro d hmem
        by_cases hne : d = f.1.destination
        · rw [hne, written, written, FileTree.find?_put_self habove,
            FileTree.find?_put_self habove]
        · rw [written, written, FileTree.find?_put_of_ne hne, FileTree.find?_put_of_ne hne,
            hsame d hmem]
      cases unencodable? f.2 with
      | some cause => exact ⟨rfl, hwritten⟩
      | none =>
        exact ih hfiles (fun q hq => directory_put hd (ht q hq))
          (fun q hq => directory_put hd' (hu q hq)) hplaces hwritten

end Neighbours

/-! ## Storing a product -/

/-- The files of a product. -/
def files (output : Path) (p : Product) : List (Path × Points) :=
  (output, p.component) :: p.outline.toList

/-- A product is stored by making the way and writing its files one after the other. -/
theorem store_eq (t : FileTree) (output : Path) (p : Product) :
    store t output p =
      match t.makeDirectories output.parent with
      | (t, some fault) => (t, some (.file fault))
      | (t, none) => writeAll t (files output p) := by
  rw [store, files]
  obtain ⟨t, _ | fault⟩ := t.makeDirectories output.parent
  · simp only [writeAll]
    obtain ⟨t, _ | cause⟩ := writeFile t output p.component
    · obtain _ | ⟨path, json⟩ := p.outline
      · rfl
      · simp only [Option.toList_some, writeAll]
        obtain ⟨t, _ | cause⟩ := writeFile t path json <;> rfl
    · rfl
  · rfl

section Store

variable {output : Path} {p : Product}

/-- Where the way cannot be made, no file is written. -/
theorem store_of_fault (h : (t.makeDirectories output.parent).2 ≠ none) :
    store t output p =
      ((t.makeDirectories output.parent).1, (t.makeDirectories output.parent).2.map .file) := by
  rw [store_eq]
  split
  · next heq => rw [heq]; rfl
  · next heq => exact absurd (by rw [heq]) h

/-- Where it can, all that is left is to write the files. -/
theorem store_of_made (h : (t.makeDirectories output.parent).2 = none) :
    store t output p = writeAll (t.makeDirectories output.parent).1 (files output p) := by
  rw [store_eq]
  split
  · next heq => rw [heq] at h; cases h
  · next heq => rw [heq]

variable (hfiles : Neighbours output.parent.way (files output p))

include hfiles

/-- Storing a product leaves directories alone. -/
theorem directory_store {q : Place} (hq : t.find? q = some .directory) :
    (store t output p).1.find? q = some .directory := by
  have hmakes := t.makes_makeDirectories output.parent
  by_cases h : (t.makeDirectories output.parent).2 = none
  · rw [store_of_made h]
    exact directory_writeAll hfiles (fun r hr => hmakes.directory_of_mem h hr) (hmakes.directory hq)
  · rw [store_of_fault h]
    exact hmakes.directory hq

/-- Apart from its files, storing a product makes directories on its way. -/
theorem agreesAt_store {q : Place} (hq : ∀ f ∈ files output p, q ≠ f.1.destination) :
    AgreesAt output.parent.way t (store t output p).1 q := by
  have hmakes := t.makes_makeDirectories output.parent
  by_cases h : (t.makeDirectories output.parent).2 = none
  · have hsame := find?_writeAll_of_ne hfiles (fun r hr => hmakes.directory_of_mem h hr) hq
    rw [store_of_made h]
    exact (hmakes.agreesAt q).trans (.inl hsame)
  · rw [store_of_fault h]
    exact hmakes.agreesAt q

/-- On the way to a product no file comes or goes. -/
theorem isFile_store {q : Place} (hq : q ∈ output.parent.way) :
    (store t output p).1.isFile q = t.isFile q := by
  have hmakes := t.makes_makeDirectories output.parent
  by_cases h : (t.makeDirectories output.parent).2 = none
  · have hdir : (store t output p).1.find? q = some .directory := by
      rw [store_of_made h]
      exact directory_writeAll hfiles (fun r hr => hmakes.directory_of_mem h hr)
        (hmakes.directory_of_mem h hq)
    rw [FileTree.isFile_of_directory hdir, hmakes.fault.1 h q hq]
  · rw [store_of_fault h]
    exact (hmakes.agreesAt q).isFile

/-- A product is stored alike in two trees with the same files on the way and the same at the paths
of its files, up to directories. -/
theorem store_like (hfile : ∀ q ∈ output.parent.way, u.isFile q = t.isFile q)
    (hway : way ⊆ output.parent.way)
    (hplaces : ∀ f ∈ files output p, AgreesAt way t u f.1.destination) :
    ((store u output p).2 = none ↔ (store t output p).2 = none) ∧
      ∀ f ∈ files output p,
        AgreesAt way (store t output p).1 (store u output p).1 f.1.destination := by
  have ht := t.makes_makeDirectories output.parent
  have hu := u.makes_makeDirectories output.parent
  -- files on the way are the same in both trees, so both ways are made or neither is
  have hfault : (u.makeDirectories output.parent).2 = none ↔
      (t.makeDirectories output.parent).2 = none := by
    rw [hu.fault, ht.fault]
    exact forall₂_congr fun q hq => by rw [hfile q hq]
  by_cases h : (t.makeDirectories output.parent).2 = none
  · have h' := hfault.2 h
    rw [store_of_made h, store_of_made h']
    -- a place that is written may be on the way itself, where both trees have a directory now
    have hsame : ∀ d ∈ (files output p).map fun f => f.1.destination,
        (u.makeDirectories output.parent).1.find? d =
          (t.makeDirectories output.parent).1.find? d := by
      intro d hd
      obtain ⟨f, hf, rfl⟩ := List.mem_map.1 hd
      by_cases hmem : f.1.destination ∈ output.parent.way
      · rw [hu.directory_of_mem h' hmem, ht.directory_of_mem h hmem]
      · rw [(hu.agreesAt _).eq_of_not_mem hmem, (ht.agreesAt _).eq_of_not_mem hmem]
        exact (hplaces f hf).eq_of_not_mem fun hin => hmem (hway hin)
    have hmem : ∀ f ∈ files output p,
        f.1.destination ∈ (files output p).map fun f => f.1.destination :=
      fun f hf => List.mem_map.2 ⟨f, hf, rfl⟩
    obtain ⟨hend, hfind⟩ := writeAll_like hfiles (fun r hr => ht.directory_of_mem h hr)
      (fun r hr => hu.directory_of_mem h' hr) hmem hsame
    rw [hend]
    exact ⟨Iff.rfl, fun f hf => .inl (hfind _ (hmem f hf))⟩
  · have h' := mt hfault.1 h
    rw [store_of_fault h, store_of_fault h']
    refine ⟨by simpa using hfault, fun f hf => ?_⟩
    -- both ways are made up to the same file
    have htake := FileTree.takeWhile_of_same_files hfile
    by_cases hmade : f.1.destination ∈ output.parent.way.takeWhile (!t.isFile ·)
    · exact .inl (by rw [hu.find?, ht.find?, htake, if_pos hmade, if_pos hmade])
    · rw [AgreesAt, hu.find?, ht.find?, htake, if_neg hmade, if_neg hmade]
      exact hplaces f hf

end Store

end Files

/-! ## Building a document -/

/-- The path of the outline, if one is wanted. -/
def outlinePath? (j : Job) : Option Path :=
  if j.outline then j.output.withSuffix? ".toc.json".toList else none

/-- The paths that a job writes. -/
def writePaths (j : Job) : List Path := j.output :: j.outlinePath?.toList

/-- The places on the way to the component. -/
def way (j : Job) : List Place := j.output.parent.way

variable {w : Workshop} {t u : FileTree} {j : Job}

/-- A path with another suffix has the same neighbours. -/
theorem parent_of_withSuffix? {p q : Path} {suffix : Text} (h : p.withSuffix? suffix = some q) :
    q.parent = p.parent := by
  obtain ⟨name, -, rfl⟩ := Option.map_eq_some_iff.1 h
  simp [Path.parent, Path.append]

/-- All that a job writes stands next to its component. -/
theorem parent_of_mem_writePaths {p : Path} (h : p ∈ j.writePaths) :
    p.parent = j.output.parent := by
  obtain rfl | h := List.mem_cons.1 h
  · rfl
  · rw [Option.mem_toList, outlinePath?] at h
    split at h
    · exact parent_of_withSuffix? h
    · cases h

/-- The path of an outline that is made is the one that was foreseen. -/
theorem map_fst_outlinePart {component : Torn} {outline : Option (Path × Points)}
    (h : j.outlinePart w component = .ok outline) : outline.map Prod.fst = j.outlinePath? := by
  -- the path does not depend on the outline, only on whether one is wanted
  unfold outlinePart at h
  unfold outlinePath?
  split at h
  · next hwanted =>
    rw [if_pos hwanted]
    obtain ⟨json, -, h⟩ := exists_of_bind_eq_ok h
    rw [Path.withSuffix] at h
    cases hsuffix : j.output.withSuffix? ".toc.json".toList with
    | none =>
      rw [hsuffix] at h
      cases h
    | some path =>
      rw [hsuffix] at h
      cases h
      rfl
  · next hwanted =>
    cases h
    rw [if_neg hwanted]
    rfl

/-- What is written for a job is written to its paths. -/
theorem map_fst_files {p : Product} (h : j.compile w t = .ok p) :
    (files j.output p).map Prod.fst = j.writePaths := by
  have houtline : p.outline.map Prod.fst = j.outlinePath? := by
    unfold compile at h
    split at h
    · cases h
    · obtain ⟨page, -, h⟩ := exists_of_bind_eq_ok h
      obtain ⟨outline, hpart, h⟩ := exists_of_bind_eq_ok h
      cases h
      exact map_fst_outlinePart hpart
  rw [files, writePaths, List.map_cons, ← houtline]
  cases p.outline <;> rfl

/-- The files of a product stand next to each other. -/
theorem neighbours_files {p : Product} (h : j.compile w t = .ok p) :
    Neighbours j.output.parent.way (files j.output p) := by
  intro f hf
  have hpath : f.1 ∈ j.writePaths := by
    rw [← map_fst_files h]
    exact List.mem_map_of_mem hf
  rw [parent_of_mem_writePaths hpath]

/-- A build leaves the tree as it is or stores a product. -/
theorem tree_build (w : Workshop) (t : FileTree) (j : Job) :
    (j.build w t).1 = t ∨
      ∃ p, j.compile w t = .ok p ∧ (j.build w t).1 = (store t j.output p).1 := by
  unfold build
  split
  · exact .inl rfl
  · next p hp =>
    split
    · exact .inl rfl
    · refine .inr ⟨p, hp, ?_⟩
      obtain ⟨v, _ | cause⟩ := store t j.output p <;> rfl

/-- A directory stays a directory. -/
theorem directory_build {q : Place} (h : t.find? q = some .directory) :
    (j.build w t).1.find? q = some .directory := by
  obtain heq | ⟨p, hp, heq⟩ := tree_build w t j
  · rw [heq, h]
  · rw [heq]
    exact directory_store (neighbours_files hp) h

/-- **Apart from the paths it writes, a build makes directories on its way, and no more.** -/
theorem agreesAt_build {q : Place} (h : ∀ p ∈ j.writePaths, q ≠ p.destination) :
    AgreesAt j.way t (j.build w t).1 q := by
  obtain heq | ⟨p, hp, heq⟩ := tree_build w t j
  · rw [heq]
    exact AgreesAt.refl ..
  · rw [heq]
    refine agreesAt_store (neighbours_files hp) fun f hf => h f.1 ?_
    rw [← map_fst_files hp]
    exact List.mem_map_of_mem hf

/-- On the way files stay files, and nothing becomes one. -/
theorem isFile_build {q : Place} (h : q ∈ j.way) : (j.build w t).1.isFile q = t.isFile q := by
  obtain heq | ⟨p, hp, heq⟩ := tree_build w t j
  · rw [heq]
  · rw [heq]
    exact isFile_store (neighbours_files hp) h

/-- Once a component is stored, there are directories all along the way. -/
theorem directory_way_build {p : Product} (hcompile : j.compile w t = .ok p)
    (hdry : j.dryRun = false) (hfile : ∀ q ∈ j.way, t.isFile q = false) {q : Place}
    (hq : q ∈ j.way) : (j.build w t).1.find? q = some .directory := by
  have hmakes := t.makes_makeDirectories j.output.parent
  have hmade := hmakes.fault.2 hfile
  have hstore := directory_writeAll (neighbours_files hcompile)
    (fun r hr => hmakes.directory_of_mem hmade hr) (hmakes.directory_of_mem hmade hq)
  rw [← store_of_made hmade] at hstore
  simp only [build, hcompile, hdry, Bool.false_eq_true, if_false]
  generalize store t j.output p = stored at hstore ⊢
  obtain ⟨v, _ | cause⟩ := stored <;> exact hstore

/-- A build fails because of its document, if its component can be made. -/
theorem exists_document_of_build_error {p : Product} (hcompile : j.compile w t = .ok p)
    {e : BuildError} (h : (j.build w t).2 = .error e) : ∃ d, e = .document d := by
  simp only [build, hcompile] at h
  split at h
  · cases h
  · generalize store t j.output p = stored at h
    obtain ⟨v, _ | cause⟩ := stored
    · cases h
    · cases h
      exact ⟨_, rfl⟩

/-- Every page is made into a component with a complete configuration. -/
theorem exists_component (hc : w.config.IsComplete) (source : Text) :
    ∃ made, w.component source = .ok made := by
  obtain ⟨made, hmade⟩ := hc.exists_page w.spelling true source
  exact ⟨made, by rw [Workshop.component, hmade]⟩

/-- So a page that can be read has a product, if its outline is not wanted. -/
theorem exists_compile (hc : w.config.IsComplete) (hnone : j.outline = false) {source : Text}
    (hpage : j.page t = .ok source) :
    ∃ demos, j.compile w t = .ok ⟨(w.torn source).points, demos, none⟩ := by
  obtain ⟨made, hmade⟩ := exists_component hc source
  have houtline : j.outlinePart w (w.torn source) = .ok none := by simp [outlinePart, hnone]
  refine ⟨made.payloads.length, ?_⟩
  rw [compile, hpage]
  simp only [bind, Except.bind, hmade, houtline]
  rfl

/-- And a build without an outline fails because of its document. -/
theorem exists_document_of_isComplete (hc : w.config.IsComplete) (hnone : j.outline = false)
    {e : BuildError} (h : (j.build w t).2 = .error e) : ∃ d, e = .document d := by
  cases hpage : j.page t with
  | error d =>
    rw [build_of_compile_error (e := .document d) (by rw [compile, hpage])] at h
    exact ⟨d, (Except.error.inj h).symm⟩
  | ok source =>
    obtain ⟨_, hp⟩ := exists_compile hc hnone hpage
    exact exists_document_of_build_error hp h

/-- Two builds end alike: with the same report, or with the same failure, or both fail to read or
write their document. -/
inductive EndAlike : Except BuildError Report → Except BuildError Report → Prop
  | same (r : Except BuildError Report) : EndAlike r r
  | failed (e e' : DocumentError) : EndAlike (.error (.document e)) (.error (.document e'))

/-- What is made depends on the page only. -/
theorem compile_eq_of_read_eq (h : u.read j.source = t.read j.source) :
    j.compile w u = j.compile w t := by
  simp only [compile, page, h]

/-- **A build depends on its page, on the files on its way and on what is at the paths that it
writes.** -/
theorem build_like {way : List Place} (hread : u.read j.source = t.read j.source)
    (hfile : ∀ q ∈ j.way, u.isFile q = t.isFile q) (hway : way ⊆ j.way)
    (hplaces : ∀ p ∈ j.writePaths, AgreesAt way t u p.destination) :
    EndAlike (j.build w t).2 (j.build w u).2 ∧
      ∀ p ∈ j.writePaths, AgreesAt way (j.build w t).1 (j.build w u).1 p.destination := by
  unfold build
  -- the same page is read, so the same product is to be stored
  rw [compile_eq_of_read_eq hread]
  cases hcompile : j.compile w t with
  | error e => exact ⟨.same _, hplaces⟩
  | ok product =>
    simp only
    by_cases hdry : j.dryRun = true
    · rw [if_pos hdry, if_pos hdry]
      exact ⟨.same _, hplaces⟩
    · rw [if_neg hdry, if_neg hdry]
      have hmem : ∀ p, p ∈ j.writePaths ↔ ∃ f ∈ files j.output product, f.1 = p := by
        intro p
        rw [← map_fst_files hcompile, List.mem_map]
      obtain ⟨hend, htree⟩ := store_like (u := u) (neighbours_files hcompile) hfile hway
        fun f hf => hplaces f.1 ((hmem f.1).2 ⟨f, hf, rfl⟩)
      have htree' : ∀ p ∈ j.writePaths, AgreesAt way (store t j.output product).1
          (store u j.output product).1 p.destination := by
        intro p hp
        obtain ⟨f, hf, rfl⟩ := (hmem p).1 hp
        exact htree f hf
      -- how the builds end is told by how storing ends
      generalize store t j.output product = stored at hend htree' ⊢
      generalize store u j.output product = stored' at hend htree' ⊢
      obtain ⟨t', _ | cause⟩ := stored
      · obtain ⟨u', _ | cause'⟩ := stored'
        · exact ⟨.same _, htree'⟩
        · simp at hend
      · obtain ⟨u', _ | cause'⟩ := stored'
        · simp at hend
        · exact ⟨.failed _ _, htree'⟩

end Job

end Showcase

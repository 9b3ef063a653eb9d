import Showcase.Page.Spelling
import Showcase.Site.Console

/-!
# The program

The thin layer between the console and the file system. The files below the working directory are
read into a tree, the program is run on the tree, and what it changed is written back.
-/

namespace Showcase.Program

open Showcase

/-- Where the pages are and where components go when the arguments do not tell. -/
def settings : Setting.Record :=
  [("SOURCE_DIR".toList, .text "examples/docs".toList),
   ("OUTPUT_DIR".toList, .text "examples/dist/docs".toList)]

/-- What pages are made with. -/
def workshop : Workshop := ⟨Slug.spelling, Config.ofProject settings⟩

/-- Reads a directory entry and all below it. -/
partial def load (above : Place) (entry : IO.FS.DirEntry) : IO (List (Place × Entry)) := do
  let place := above ++ [entry.fileName.toList]
  if ← entry.path.isDir then
    let below ← (← entry.path.readDir).toList.mapM (load place)
    return (place, .directory) :: below.flatten
  else
    let bytes ← IO.FS.readBinFile entry.path
    return [(place, .file (bytes.toList.map UInt8.toNat))]

/-- Reads all files below the working directory. -/
def loadAll : IO FileTree := do
  let entries ← (← (← IO.currentDir).readDir).toList.mapM (load [])
  return ⟨entries.flatten⟩

/-- Writes what is new in a tree. Directories come before what is in them. -/
def save (before after : FileTree) : IO Unit := do
  let here ← IO.currentDir
  for (place, entry) in after.entries do
    if before.find? place ≠ some entry then
      let path := place.foldl (fun path name => path / String.ofList name) here
      match entry with
      | .directory => IO.FS.createDirAll path
      | .file bytes => IO.FS.writeBinFile path ⟨(bytes.map UInt8.ofNat).toArray⟩

end Showcase.Program

open Showcase in
/-- Runs the program. -/
def main (arguments : List String) : IO UInt32 := do
  let tree ← Program.loadAll
  let ending := Console.run Program.workshop Program.settings tree (arguments.map String.toList)
  IO.print (String.ofList ending.output)
  for line in ending.log do IO.eprintln (String.ofList line)
  if ending.complaint ≠ [] then IO.eprintln (String.ofList ending.complaint)
  Program.save tree ending.tree
  return ending.code.toUInt32

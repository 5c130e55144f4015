import Heartbeat.Files.Path
import Heartbeat.Text.Quoted

/-!
# File trees

A file tree holds the texts of files and the folders that exist. Adding a file makes the folders
above it; they stay when the file is removed.

* `FileTree.add`, `remove`: changes.
* `FileTree.isFile`, `isFolder`, `read`: what is there.
-/

namespace Heartbeat

open Heartbeat.Text

/-- Files with their texts, and folders, both by the components of their paths (`MockFileSystem`).
-/
structure FileTree where
  files : List (List String × String)
  folders : List (List String)
deriving Repr, DecidableEq

/-- Why a file cannot be read. -/
inductive FileError where
  | isFolder (path : ScriptPath)
  | notFound (path : ScriptPath)
deriving Repr, DecidableEq

/-- The wording of the reason. -/
def FileError.message : FileError → String
  | .isFolder path => s!"Is a directory: {quote path.text}"
  | .notFound path => s!"File not found: {quote path.text}"

namespace FileTree

/-- The tree without files and folders. -/
def empty : FileTree := ⟨[], []⟩

/-- The nonempty beginnings of a list that leave something out, the shortest first. -/
def properPrefixes (components : List String) : List (List String) :=
  (List.range (components.length - 1)).map fun n => components.take (n + 1)

/-- Adds folders by their components. -/
def addFolders (t : FileTree) (folders : List (List String)) : FileTree :=
  { t with folders := t.folders ++ folders.filter fun folder => !t.folders.contains folder }

/-- Adds a folder and the folders above it. -/
def addFolder (t : FileTree) (path : ScriptPath) : FileTree :=
  t.addFolders (properPrefixes path.components ++ [path.components])

/-- Adds a file and the folders above it; a file of this path is overwritten
(`MockFileSystem.add_file`). -/
def add (t : FileTree) (path : ScriptPath) (text : String) : FileTree :=
  let here := path.components
  { t.addFolders (properPrefixes here) with
    files := (here, text) :: t.files.filter (·.1 != here) }

/-- The tree of some files, added in order. -/
def ofList (files : List (ScriptPath × String)) : FileTree :=
  files.foldl (fun t (path, text) => t.add path text) empty

/-- The text of a file. -/
def text? (t : FileTree) (path : ScriptPath) : Option String :=
  (t.files.find? (·.1 == path.components)).map Prod.snd

/-- Whether there is a file of this path (`MockFileSystem.is_file`). -/
def isFile (t : FileTree) (path : ScriptPath) : Bool := (t.text? path).isSome

/-- Whether there is a folder of this path (`MockFileSystem.is_dir`). -/
def isFolder (t : FileTree) (path : ScriptPath) : Bool := t.folders.contains path.components

/-- Whether there is a file or a folder of this path (`MockFileSystem.exists`). -/
def contains (t : FileTree) (path : ScriptPath) : Bool := t.isFile path || t.isFolder path

/-- Removes a file; says whether there was one (`MockFileSystem.remove_file`). -/
def remove (t : FileTree) (path : ScriptPath) : Bool × FileTree :=
  (t.isFile path, { t with files := t.files.filter (·.1 != path.components) })

/-- Reads a file (`MockFileSystem.read_to_string`). -/
def read (t : FileTree) (path : ScriptPath) : Except FileError String :=
  match t.text? path with
  | some text => .ok text
  | none => .error (if t.isFolder path then .isFolder path else .notFound path)

end FileTree

end Heartbeat

import Heartbeat.Files.Tree
import Heartbeat.StepScript.Program
import Heartbeat.Target

/-!
# Finding and loading scripts

A library finds the file that a script identity names and reads the program in it. In each folder
of a search path the identity `foo` names `foo.ext` and then `foo/init.ext`, where `ext` is the
extension of the library; an identity with an extension of its own names that file alone. An
identity from the root does not look at the search path.

* `ScriptLibrary.allCandidates`: the files that an identity may name, in order.
* `ScriptLibrary.resolve`: the first of them that exists.
* `ScriptLibrary.load`, `loadSource`: reading a program.
* `StartError.message`: the wording of what can go wrong when a script is started.

A library may have a base folder. Then paths are made canonical against it before they are looked
up: they start at the root, and `.` and `..` are worked out. Without one, paths are taken as they
are.
-/

namespace Heartbeat

open Heartbeat.Text StepScript

/-- Why a program cannot be loaded. -/
inductive LoadError where
  | file (error : FileError)
  | program (error : ParseError)
deriving Repr, DecidableEq

/-- The wording of the reason. -/
def LoadError.message : LoadError → String
  | .file error => error.message
  | .program error => error.message

/-- Why a script is not started. -/
inductive StartError where
  /-- A script of this path is running already. -/
  | alreadyRunning (name : String) (pid : Pid)
  | notFound (script : String) (searched : List ScriptPath)
  | load (path : ScriptPath) (error : LoadError)
  | pidsExhausted
deriving Repr, DecidableEq

/-- The wording of the reason. -/
def StartError.message : StartError → String
  | .alreadyRunning name pid => s!"script '{name}' is already running (pid {pid})"
  | .notFound script searched =>
    s!"could not find script '{script}' (searched " ++ quoteList (searched.map (·.text)) ++ ")"
  | .load path error => s!"failed to load {quote path.text}: {error.message}"
  | .pidsExhausted => "process identifiers exhausted"

/-- The files of scripts, the extension of their names, and the base folder if there is one
(`FileScriptLoader`). -/
structure ScriptLibrary where
  files : FileTree
  extension : String
  base? : Option ScriptPath := none
deriving Repr, DecidableEq

namespace ScriptLibrary

/-- A library; dots at the start of the extension do not count (`FileScriptLoader.new`). A base
folder is there, whatever the files are. -/
def ofFiles (files : FileTree) (extension : String) (base? : Option ScriptPath := none) :
    ScriptLibrary where
  files := match base? with
    | some base => files.addFolder base
    | none => files
  extension := String.ofList (extension.toList.dropWhile (· == '.'))
  base? := base?

/-- What a component of a path leads to from a folder. -/
def descend (here : List String) (name : String) : List String :=
  if name = "/" then ["/"]
  else if name = "." then here
  else if name = ".." then (if here = ["/"] then here else here.dropLast)
  else here ++ [name]

/-- The folders that components pass through from a folder on, and the place that they lead to. -/
def trail (here : List String) : List String → List (List String) × List String
  | [] => ([], here)
  | name :: rest =>
    let (passed, place) := trail (descend here name) rest
    (here :: passed, place)

/-- The text of a path from the root. -/
def absoluteText : List String → String
  | "/" :: names => "/" ++ "/".intercalate names
  | names => "/".intercalate names

/-- The path under which a file is looked up, as long as only folders are passed through. -/
def locate? (l : ScriptLibrary) (path : ScriptPath) : Option ScriptPath :=
  match l.base? with
  | none => some path
  | some base =>
    let (passed, place) := trail base.components path.components
    if passed.all fun folder => folder == ["/"] || l.files.folders.contains folder then
      some ⟨absoluteText place⟩
    else none

/-- Whether a path written with a slash or a dot at its end can only name a folder. -/
def namesFolder (path : ScriptPath) : Bool :=
  match (ScriptPath.pieces path.text.toList).getLast? with
  | some piece => !ScriptPath.isComponent piece
  | none => false

/-- The file that a path names, by the path under which it is looked up (`FileSystem.is_file`,
`FileSystem.canonicalize`). -/
def find? (l : ScriptLibrary) (path : ScriptPath) : Option ScriptPath :=
  if l.base?.isSome && namesFolder path then none
  else (l.locate? path).filter l.files.isFile

/-- The files that an identity may name in a folder, in order (`FileScriptLoader.candidates`). -/
def candidates (l : ScriptLibrary) (identity : String) (folder : ScriptPath) : List ScriptPath :=
  if (ScriptPath.extension? ⟨identity⟩).isSome then [folder.join identity]
  else [folder.join (identity ++ "." ++ l.extension),
    (folder.join identity).join ("init." ++ l.extension)]

/-- The folders in which an identity is looked for. -/
def foldersFor (identity : String) (searchPath : List ScriptPath) : List ScriptPath :=
  if (ScriptPath.mk identity).isAbsolute then [⟨""⟩] else searchPath

/-- The files that an identity may name in the folders of a search path, in order. -/
def allCandidates (l : ScriptLibrary) (identity : String) (searchPath : List ScriptPath) :
    List ScriptPath :=
  let name := trimmed identity
  if name = "" then [] else (foldersFor name searchPath).flatMap (l.candidates name)

/-- The first file that an identity names in the folders of a search path
(`FileScriptLoader.resolve`). -/
def resolve (l : ScriptLibrary) (identity : String) (searchPath : List ScriptPath) :
    Except StartError ScriptPath :=
  match (l.allCandidates identity searchPath).findSome? l.find? with
  | some path => .ok path
  | none => .error (.notFound identity searchPath)

/-- Adds a file, and the folders that its path passes through. -/
def addFile (l : ScriptLibrary) (path : ScriptPath) (text : String) : ScriptLibrary :=
  match l.base? with
  | none => { l with files := l.files.add path text }
  | some base =>
    let (passed, place) := trail base.components path.components
    { l with files := (l.files.addFolders passed).add ⟨absoluteText place⟩ text }

/-- Reads the program in a source text; errors name the label (`FileScriptLoader.load_source`). -/
def loadSource (label source : String) : Except StartError Program :=
  match Program.parse source with
  | .ok program => .ok program
  | .error e => .error (.load ⟨label⟩ (.program e))

/-- Reads the program in a file (`FileScriptLoader.load`). -/
def load (l : ScriptLibrary) (path : ScriptPath) : Except StartError Program :=
  match l.files.read path with
  | .ok source => loadSource path.text source
  | .error e => .error (.load path (.file e))

end ScriptLibrary

end Heartbeat

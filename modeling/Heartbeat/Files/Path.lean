/-!
# Paths

A path is a text; its components are what the file tree goes by. Slashes separate components, the
component `/` stands for the root, and `.` counts only as the first component of a path that does
not start at the root. `..` is a component like any other.

* `ScriptPath.components`: two paths name the same place when these agree.
* `ScriptPath.join`: a path below another one; a path from the root replaces it.
* `ScriptPath.extension?`: what stands behind the last dot of the last component.
-/

namespace Heartbeat

/-- A path as it was written. -/
structure ScriptPath where
  text : String
deriving Repr, DecidableEq

namespace ScriptPath

/-- The pieces of a text between slashes. -/
def pieces : List Char → List (List Char)
  | [] => [[]]
  | c :: s =>
    if c = '/' then [] :: pieces s
    else match pieces s with
      | [] => [[c]]
      | piece :: rest => (c :: piece) :: rest

/-- Whether a path starts at the root (`Path.is_absolute`). -/
def isAbsolute (p : ScriptPath) : Bool := p.text.toList.head? == some '/'

/-- Whether a piece between slashes is a component: it is neither empty nor a dot. -/
def isComponent (piece : List Char) : Bool := piece != [] && piece != ['.']

/-- The components of a path, from the first to the last (`Path.components`). -/
def components (p : ScriptPath) : List String :=
  let all := pieces p.text.toList
  let kept := (all.filter isComponent).map String.ofList
  if p.isAbsolute then "/" :: kept
  else if all.head? = some ['.'] then "." :: kept
  else kept

/-- The path of a name below a path (`Path.join`). -/
def join (p : ScriptPath) (name : String) : ScriptPath :=
  if name.toList.head? = some '/' ∨ p.text = "" then ⟨name⟩
  else if p.text.toList.getLast? = some '/' then ⟨p.text ++ name⟩
  else ⟨p.text ++ "/" ++ name⟩

/-- What stands behind the last dot of a text, with the part before the dot. -/
def splitAtLastDot? (s : List Char) : Option (List Char × List Char) :=
  let after := s.reverse.takeWhile (· != '.')
  if after.length < s.length then
    some (s.take (s.length - after.length - 1), after.reverse)
  else none

/-- The last component, if it is a name (`Path.file_name`). -/
def fileName? (p : ScriptPath) : Option String :=
  match p.components.getLast? with
  | some name => if name = "/" ∨ name = "." ∨ name = ".." then none else some name
  | none => none

/-- What stands behind the last dot of the last component; a dot at its start does not count
(`Path.extension`). -/
def extension? (p : ScriptPath) : Option String :=
  match p.fileName? >>= fun name => splitAtLastDot? name.toList with
  | some (_ :: _, after) => some (String.ofList after)
  | _ => none

end ScriptPath

end Heartbeat

import Heartbeat.Files.Library
import Heartbeat.Proofs.Files.Path
import Heartbeat.Proofs.Text.Lines
import Mathlib.Data.List.Enum

/-!
# Which script is found

A script is looked for in the folders of the search path one after the other, and in each of them
under its own name before the file that opens the folder of this name. Each look is told by its
number in the search path, its folder and its form; looks are ordered by folder and form, and the
search finds the file of the first look that has one. Files are compared by where their paths lead,
not by their texts, and a file that is looked at only behind the one that is found may come and go.

* `FileTree.Change`, `FileTree.text?_after`: files after changes.
* `Look.Made`, `Look.Before`: the looks for a name, and their order.
* `Look.components_path`: where a look leads, by the text that is written for it.
* `IsFirst`, `resolve_eq_ok_iff`, `resolve_eq_error_iff`: what is found, and when nothing is.
* `resolve_after`: changes behind the first look.
* `search_law`: the law of the search, for files without a base folder.
-/

namespace Heartbeat

open Heartbeat.Text StepScript

/-! ## Files that come and go -/

namespace FileTree

/-- A change of the files. -/
inductive Change where
  | add (path : ScriptPath) (text : String)
  | remove (path : ScriptPath)
deriving Repr, DecidableEq

namespace Change

/-- The path of the file that comes or goes. -/
def path : Change → ScriptPath
  | .add path _ => path
  | .remove path => path

/-- The text of the file behind the change. -/
def text? : Change → Option String
  | .add _ text => some text
  | .remove _ => none

/-- The files behind the change. -/
def apply (t : FileTree) : Change → FileTree
  | .add path text => t.add path text
  | .remove path => (t.remove path).2

end Change

/-- The files behind some changes, made in order. -/
def after (t : FileTree) (changes : List Change) : FileTree := changes.foldl Change.apply t

variable {t : FileTree} {path : ScriptPath} {changes : List Change}

/-- Files are told apart by where their paths lead. -/
theorem text?_congr {other : ScriptPath} (h : path.components = other.components) :
    t.text? path = t.text? other := by
  unfold FileTree.text?
  rw [h]

theorem text?_remove (t : FileTree) (there path : ScriptPath) :
    (t.remove there).2.text? path =
      if path.components = there.components then none else t.text? path := by
  simp only [remove, FileTree.text?, List.find?_filter]
  by_cases h : path.components = there.components
  · simp [h]
  · rw [if_neg h]
    congr 2
    funext file
    by_cases hfile : file.1 = path.components <;> simp [hfile, h]

theorem text?_add (t : FileTree) (there : ScriptPath) (text : String) (path : ScriptPath) :
    (t.add there text).text? path =
      if path.components = there.components then some text else t.text? path := by
  by_cases h : path.components = there.components
  · simp [add, FileTree.text?, h]
  · have hne : (there.components == path.components) = false := by simpa using Ne.symm h
    calc (t.add there text).text? path
        = (t.remove there).2.text? path := by
          simp only [add, remove, FileTree.text?, List.find?_cons, hne]
      _ = if path.components = there.components then some text else t.text? path := by
          rw [text?_remove, if_neg h, if_neg h]

/-- A change is about the file of one place, and leaves all others alone. -/
theorem text?_apply (t : FileTree) (change : Change) (path : ScriptPath) :
    (change.apply t).text? path =
      if path.components = change.path.components then change.text? else t.text? path := by
  cases change with
  | add there text => exact text?_add t there text path
  | remove there => exact text?_remove t there path

/-- A file stays as it is if none of the changes is about it. -/
theorem text?_after (h : ∀ change ∈ changes, path.components ≠ change.path.components) :
    (t.after changes).text? path = t.text? path := by
  induction changes generalizing t with
  | nil => rfl
  | cons change changes ih =>
    rw [List.forall_mem_cons] at h
    have hrest : ((change.apply t).after changes).text? path = (change.apply t).text? path :=
      ih h.2
    rw [text?_apply, if_neg h.1] at hrest
    exact hrest

end FileTree

namespace ScriptLibrary

open ScriptPath

variable {l : ScriptLibrary} {files : FileTree} {extension name identity : String}
  {searchPath : List ScriptPath} {folder : ScriptPath}

/-! ## Forms of a name -/

/-- The forms that a name takes in a folder: the name itself, the name with the extension of the
library, and the file that opens the folder of the name. -/
inductive Form where
  | plain
  | extended
  | opening
deriving Repr, DecidableEq

namespace Form

/-- A name with an extension stands for itself; any other name has the other two forms. -/
def Fits (name : String) : Form → Prop
  | .plain => HasExtension ⟨name⟩
  | .extended => ¬ HasExtension ⟨name⟩
  | .opening => ¬ HasExtension ⟨name⟩

/-- The path of a form of a name below a folder. -/
def path (extension name : String) (folder : ScriptPath) : Form → ScriptPath
  | .plain => folder.join name
  | .extended => folder.join (name ++ "." ++ extension)
  | .opening => (folder.join name).join ("init." ++ extension)

/-- How a form of a name is written. -/
def written (extension name : String) : Form → String
  | .plain => name
  | .extended => name ++ "." ++ extension
  | .opening => name ++ "/" ++ ("init." ++ extension)

end Form

/-- The forms of a name, in order. -/
def forms (name : String) : List Form :=
  if (ScriptPath.extension? ⟨name⟩).isSome then [.plain] else [.extended, .opening]

theorem mem_forms_iff {form : Form} : form ∈ forms name ↔ form.Fits name := by
  unfold forms
  by_cases h : HasExtension ⟨name⟩
  · rw [if_pos (extension?_isSome_iff.mpr h)]
    cases form <;> simp [Form.Fits, h]
  · rw [if_neg (mt extension?_isSome_iff.mp h)]
    cases form <;> simp [Form.Fits, h]

theorem candidates_eq (l : ScriptLibrary) (name : String) (folder : ScriptPath) :
    l.candidates name folder = (forms name).map (Form.path l.extension name folder) := by
  unfold candidates forms
  split <;> rfl

/-! ## Looks -/

/-- A look at a file: the folder with its number in the search path, and the form of the name. -/
structure Look where
  number : Nat
  folder : ScriptPath
  form : Form
deriving Repr, DecidableEq

namespace Look

/-- The path that is looked at. -/
def path (extension name : String) (look : Look) : ScriptPath :=
  look.form.path extension name look.folder

/-- The looks that are made for a name. A name from the root is looked at by itself, whatever the
search path; no look is made without a name. -/
structure Made (name : String) (searchPath : List ScriptPath) (look : Look) : Prop where
  named : name ≠ ""
  folder : if (ScriptPath.mk name).isAbsolute then look.number = 0 ∧ look.folder = ⟨""⟩
    else searchPath[look.number]? = some look.folder
  form : look.form.Fits name

/-- A look comes before another one in an earlier folder, and in the same folder if the other one is
for the file that opens the folder of the name. -/
def Before (look other : Look) : Prop :=
  look.number < other.number ∨
    look.number = other.number ∧ look.form = .extended ∧ other.form = .opening

theorem Before.trans {a b c : Look} (hab : a.Before b) (hbc : b.Before c) : a.Before c := by
  unfold Before at *
  grind

theorem Before.asymm {a b : Look} (h : a.Before b) : ¬ b.Before a := by
  unfold Before at *
  grind

end Look

/-- All looks for a name, in order. -/
def looks (name : String) (searchPath : List ScriptPath) : List Look :=
  if name = "" then []
  else (foldersFor name searchPath).zipIdx.flatMap fun (folder, number) =>
    (forms name).map fun form => ⟨number, folder, form⟩

theorem getElem?_foldersFor {number : Nat} :
    (foldersFor name searchPath)[number]? = some folder ↔
      if (ScriptPath.mk name).isAbsolute then number = 0 ∧ folder = ⟨""⟩
      else searchPath[number]? = some folder := by
  unfold foldersFor
  split
  · cases number <;> simp [eq_comm]
  · rfl

theorem mem_looks_iff {look : Look} : look ∈ looks name searchPath ↔ look.Made name searchPath := by
  unfold looks
  by_cases hname : name = ""
  · rw [if_pos hname]
    simp only [List.not_mem_nil, false_iff]
    exact fun h => h.named hname
  · rw [if_neg hname, List.mem_flatMap]
    constructor
    · rintro ⟨⟨folder, number⟩, hfolder, hlook⟩
      obtain ⟨form, hform, rfl⟩ := List.mem_map.mp hlook
      exact ⟨hname, getElem?_foldersFor.mp (List.mem_zipIdx_iff_getElem?.mp hfolder),
        mem_forms_iff.mp hform⟩
    · rintro ⟨-, hfolder, hform⟩
      exact ⟨(look.folder, look.number),
        List.mem_zipIdx_iff_getElem?.mpr (getElem?_foldersFor.mpr hfolder),
        List.mem_map.mpr ⟨look.form, mem_forms_iff.mpr hform, rfl⟩⟩

/-- The looks are in order. -/
theorem looks_pairwise (name : String) (searchPath : List ScriptPath) :
    (looks name searchPath).Pairwise Look.Before := by
  unfold looks
  split
  · exact List.Pairwise.nil
  · rw [List.pairwise_flatMap]
    constructor
    · rintro ⟨folder, number⟩ -
      show ((forms name).map fun form => Look.mk number folder form).Pairwise Look.Before
      unfold forms
      split_ifs <;> simp [Look.Before]
    · have hnumbers : (foldersFor name searchPath).zipIdx.Pairwise (·.2 < ·.2) := by
        rw [← List.pairwise_map (f := Prod.snd), List.zipIdx_map_snd]
        exact List.pairwise_lt_range'
      refine hnumbers.imp fun hless look hlook other hother => ?_
      obtain ⟨form, -, rfl⟩ := List.mem_map.mp hlook
      obtain ⟨form', -, rfl⟩ := List.mem_map.mp hother
      exact .inl hless

/-- The candidates are what is looked at. -/
theorem allCandidates_eq (l : ScriptLibrary) (identity : String) (searchPath : List ScriptPath) :
    l.allCandidates identity searchPath =
      (looks (trimmed identity) searchPath).map (Look.path l.extension (trimmed identity)) := by
  unfold allCandidates looks
  by_cases hname : trimmed identity = ""
  · simp [hname]
  · have hfolders := List.zipIdx_map_fst 0 (foldersFor (trimmed identity) searchPath)
    simp only [if_neg hname, List.map_flatMap, List.map_map]
    conv_lhs => rw [← hfolders]
    rw [List.flatMap_map]
    refine List.flatMap_congr fun entry _ => ?_
    rw [candidates_eq]
    rfl

/-! ## What is found -/

/-- A look is the first one at a file. -/
structure IsFirst (files : FileTree) (extension name : String) (searchPath : List ScriptPath)
    (look : Look) : Prop where
  made : look.Made name searchPath
  file : files.isFile (look.path extension name) = true
  first : ∀ other : Look, other.Made name searchPath → other.Before look →
    files.isFile (other.path extension name) = false

/-- The first look at a file, if there is one. -/
def found? (files : FileTree) (extension name : String) (searchPath : List ScriptPath) :
    Option Look :=
  (looks name searchPath).find? (files.isFile ∘ Look.path extension name)

/-- **The first look in the list is the first look of all.** -/
theorem found?_eq_some_iff {look : Look} : found? files extension name searchPath = some look ↔
    IsFirst files extension name searchPath look := by
  have hordered := looks_pairwise name searchPath
  rw [found?, List.find?_eq_some_iff_append]
  constructor
  · rintro ⟨hfile, before, after, hlooks, hbefore⟩
    have hmade : look ∈ looks name searchPath := by simp [hlooks]
    refine ⟨mem_looks_iff.mp hmade, hfile, fun other hother hless => ?_⟩
    rw [← mem_looks_iff, hlooks, List.mem_append, List.mem_cons] at hother
    rw [hlooks] at hordered
    rcases hother with hother | rfl | hother
    · simpa using hbefore other hother
    · exact absurd hless hless.asymm
    · have hbehind := List.rel_of_pairwise_cons (List.pairwise_append.mp hordered).2.1 hother
      exact absurd hless hbehind.asymm
  · rintro ⟨hmade, hfile, hfirst⟩
    obtain ⟨before, after, hlooks⟩ := List.append_of_mem (mem_looks_iff.mpr hmade)
    rw [hlooks] at hordered
    refine ⟨hfile, before, after, hlooks, fun other hother => ?_⟩
    have hless := (List.pairwise_append.mp hordered).2.2 other hother look List.mem_cons_self
    have hmem : other ∈ looks name searchPath := by simp [hlooks, hother]
    simpa using hfirst other (mem_looks_iff.mp hmem) hless

theorem found?_eq_none_iff : found? files extension name searchPath = none ↔
    ∀ look : Look, look.Made name searchPath →
      files.isFile (look.path extension name) = false := by
  unfold found?
  simp [List.find?_eq_none, mem_looks_iff]

/-- An extension without the dots at its start. -/
def bare (extension : String) : String :=
  String.ofList (extension.toList.dropWhile (· == '.'))

theorem bare_spec (extension : String) : ∃ dots, (∀ c ∈ dots, c = '.') ∧
    extension.toList = dots ++ (bare extension).toList ∧
    (bare extension).toList.head? ≠ some '.' := by
  refine ⟨extension.toList.takeWhile (· == '.'), fun c hc => ?_, ?_, ?_⟩
  · simpa using List.mem_takeWhile_imp hc
  · simp [bare]
  · intro hdot
    have hhead := List.head?_dropWhile_not (· == '.') extension.toList
    rw [bare, String.toList_ofList] at hdot
    simp [hdot] at hhead

/-- The search gives the path of the first look at a file. -/
theorem resolve_eq (files : FileTree) (extension identity : String)
    (searchPath : List ScriptPath) :
    (ofFiles files extension).resolve identity searchPath =
      match found? files (bare extension) (trimmed identity) searchPath with
      | some look => .ok (look.path (bare extension) (trimmed identity))
      | none => .error (.notFound identity searchPath) := by
  have hguard : (ofFiles files extension).find? = Option.guard files.isFile := by
    funext path
    cases hfile : files.isFile path <;>
      simp [ScriptLibrary.find?, locate?, ofFiles, Option.guard, Option.filter, hfile]
  have hlooks : (ofFiles files extension).allCandidates identity searchPath =
      (looks (trimmed identity) searchPath).map (Look.path (bare extension) (trimmed identity)) :=
    allCandidates_eq _ _ _
  unfold resolve found?
  rw [hguard, List.findSome?_guard, hlooks, List.find?_map]
  cases (looks (trimmed identity) searchPath).find? _ <;> rfl

theorem resolve_eq_ok_iff {path : ScriptPath} :
    (ofFiles files extension).resolve identity searchPath = .ok path ↔
      ∃ look, IsFirst files (bare extension) (trimmed identity) searchPath look ∧
        look.path (bare extension) (trimmed identity) = path := by
  rw [resolve_eq]
  simp only [← found?_eq_some_iff]
  cases found? files (bare extension) (trimmed identity) searchPath <;> simp

theorem resolve_eq_error_iff {error : StartError} :
    (ofFiles files extension).resolve identity searchPath = .error error ↔
      error = .notFound identity searchPath ∧
        (AllBlank identity.toList ∨ ∀ look : Look, look.Made (trimmed identity) searchPath →
          files.isFile (look.path (bare extension) (trimmed identity)) = false) := by
  have hblank : AllBlank identity.toList →
      found? files (bare extension) (trimmed identity) searchPath = none := fun hblank =>
    found?_eq_none_iff.mpr fun _ hmade => absurd (trimmed_eq_empty_iff.mpr hblank) hmade.named
  rw [resolve_eq, ← found?_eq_none_iff, or_iff_right_of_imp hblank]
  cases found? files (bare extension) (trimmed identity) searchPath <;> simp [eq_comm]

/-! ## Where looks lead -/

/-- **Where a look leads**: to the form of the name as it is written behind a slash. -/
theorem Look.Made.components_path {look : Look} (h : look.Made name searchPath)
    (extension : String) : (look.path extension name).components =
      (look.folder.slash (look.form.written extension name)).components := by
  have hrelative : look.folder.text ≠ "" → (ScriptPath.mk name).isAbsolute = false := by
    intro hsome
    have hfolder := h.folder
    split_ifs at hfolder with habsolute
    · exact absurd (congrArg ScriptPath.text hfolder.2) hsome
    · simpa using habsolute
  obtain ⟨number, folder, form⟩ := look
  cases form with
  | plain => exact components_join hrelative
  | extended =>
    refine components_join fun hsome => ?_
    rw [String.append_assoc, isAbsolute_append h.named, hrelative hsome]
  | opening =>
    refine components_join_join h.named hrelative ?_
    rw [isAbsolute_append (by decide)]
    decide

/-! ## Changes behind the first look -/

/-- Changes are made behind what is found: where one of their files is looked at, there is a first
look, and it comes before. -/
def Behind (files : FileTree) (extension name : String) (searchPath : List ScriptPath)
    (changes : List FileTree.Change) : Prop :=
  ∀ change ∈ changes, ∀ look : Look, look.Made name searchPath →
    (look.path extension name).components = change.path.components →
      ∃ first : Look, IsFirst files extension name searchPath first ∧ first.Before look

section Changes

variable {changes : List FileTree.Change} {look : Look}

theorem IsFirst.not_before {first : Look} (h : IsFirst files extension name searchPath look)
    (hfirst : IsFirst files extension name searchPath first) : ¬ first.Before look := by
  intro hless
  have hfile := h.first first hfirst.made hless
  rw [hfirst.file] at hfile
  cases hfile

theorem Behind.isFile_after (h : Behind files extension name searchPath changes)
    (hmade : look.Made name searchPath)
    (hlook : ∀ first, IsFirst files extension name searchPath first → ¬ first.Before look) :
    (files.after changes).isFile (look.path extension name) =
      files.isFile (look.path extension name) := by
  unfold FileTree.isFile
  rw [FileTree.text?_after]
  intro change hchange heq
  obtain ⟨first, hfirst, hless⟩ := h change hchange look hmade heq
  exact hlook first hfirst hless

theorem Behind.found?_after (h : Behind files extension name searchPath changes) :
    found? (files.after changes) extension name searchPath =
      found? files extension name searchPath := by
  cases hfound : found? files extension name searchPath with
  | none =>
    have hnone := found?_eq_none_iff.mp hfound
    refine found?_eq_none_iff.mpr fun look hmade => ?_
    rw [h.isFile_after hmade fun first hfirst => ?_, hnone look hmade]
    rw [found?_eq_some_iff.mpr hfirst] at hfound
    cases hfound
  | some look =>
    have hlook := found?_eq_some_iff.mp hfound
    refine found?_eq_some_iff.mpr ⟨hlook.made, ?_, fun other hother hless => ?_⟩
    · rw [h.isFile_after hlook.made fun first => hlook.not_before, hlook.file]
    · rw [h.isFile_after hother fun first hfirst hbefore =>
        hlook.not_before hfirst (hbefore.trans hless), hlook.first other hother hless]

/-- **Changes behind the first look change nothing.** -/
theorem Behind.resolve_after
    (h : Behind files (bare extension) (trimmed identity) searchPath changes) :
    (ofFiles (files.after changes) extension).resolve identity searchPath =
      (ofFiles files extension).resolve identity searchPath := by
  rw [resolve_eq, resolve_eq, h.found?_after]

end Changes

/-! ## Loading what is found -/

theorem loadSource_eq_ok_iff {label source : String} {program : Program} :
    loadSource label source = .ok program ↔ Program.parse source = .ok program := by
  unfold loadSource
  cases Program.parse source <;> simp

theorem loadSource_eq_error_iff {label source : String} {error : StartError} :
    loadSource label source = .error error ↔
      ∃ fault, Program.parse source = .error fault ∧ error = .load ⟨label⟩ (.program fault) := by
  unfold loadSource
  cases Program.parse source <;> simp [eq_comm]

theorem load_of_isFile {path : ScriptPath} (h : l.files.isFile path = true) :
    ∃ source, l.files.text? path = some source ∧ l.load path = loadSource path.text source := by
  obtain ⟨source, hsource⟩ := Option.isSome_iff_exists.mp h
  exact ⟨source, hsource, by simp [load, FileTree.read, hsource]⟩

/-! ## The law -/

/-- **The law of the search** for an identity in the folders of a search path, among files without
a base folder. -/
structure SearchLaw (files : FileTree) (extension identity : String)
    (searchPath : List ScriptPath) : Prop where
  /-- Dots at the start of the extension do not count. -/
  dots : ∃ dots, (∀ c ∈ dots, c = '.') ∧ extension.toList = dots ++ (bare extension).toList ∧
    (bare extension).toList.head? ≠ some '.'
  /-- Looks lead to the forms of the name, as they are written behind the folder. -/
  leads : ∀ look : Look, look.Made (trimmed identity) searchPath →
    (look.path (bare extension) (trimmed identity)).components =
      (look.folder.slash (look.form.written (bare extension) (trimmed identity))).components
  /-- Paths that lead to the same place have the same file. -/
  places : ∀ path other : ScriptPath, path.components = other.components →
    files.text? path = files.text? other
  /-- What is found is the file of the first look that has one. -/
  found_iff : ∀ path, (ofFiles files extension).resolve identity searchPath = .ok path ↔
    ∃ look, IsFirst files (bare extension) (trimmed identity) searchPath look ∧
      look.path (bare extension) (trimmed identity) = path
  /-- Nothing is found if and only if the identity is blank or no look has a file. -/
  notFound_iff : ∀ error, (ofFiles files extension).resolve identity searchPath = .error error ↔
    error = .notFound identity searchPath ∧
      (AllBlank identity.toList ∨ ∀ look : Look, look.Made (trimmed identity) searchPath →
        files.isFile (look.path (bare extension) (trimmed identity)) = false)
  /-- Files that are looked at only behind what is found may come and go. -/
  steady : ∀ changes, Behind files (bare extension) (trimmed identity) searchPath changes →
    (ofFiles (files.after changes) extension).resolve identity searchPath =
      (ofFiles files extension).resolve identity searchPath
  /-- What is found has a source, and is loaded unless there is a fault in it. -/
  load : ∀ path, (ofFiles files extension).resolve identity searchPath = .ok path →
    ∃ source, files.text? path = some source ∧
      (∀ program, (ofFiles files extension).load path = .ok program ↔
        Program.parse source = .ok program) ∧
      ∀ error, (ofFiles files extension).load path = .error error ↔
        ∃ fault, Program.parse source = .error fault ∧ error = .load path (.program fault)

/-- **Scripts are found in order**, whatever the files, the extension, the search path and the
identity are. -/
theorem search_law (files : FileTree) (extension identity : String)
    (searchPath : List ScriptPath) : SearchLaw files extension identity searchPath where
  dots := bare_spec extension
  leads _ hmade := hmade.components_path (bare extension)
  places _ _ := FileTree.text?_congr
  found_iff _ := resolve_eq_ok_iff
  notFound_iff _ := resolve_eq_error_iff
  steady _ := Behind.resolve_after
  load path hfound := by
    obtain ⟨look, hfirst, rfl⟩ := resolve_eq_ok_iff.mp hfound
    obtain ⟨source, hsource, hload⟩ :=
      load_of_isFile (l := ofFiles files extension) hfirst.file
    refine ⟨source, hsource, fun program => ?_, fun error => ?_⟩
    · rw [hload, loadSource_eq_ok_iff]
    · rw [hload, loadSource_eq_error_iff]

example : (ofFiles (.ofList [(⟨"/b/foo/init.step"⟩, ""), (⟨"/b//foo.step"⟩, "")]) ".step").resolve
    " foo" [⟨"/a"⟩, ⟨"/b/."⟩] = .ok ⟨"/b/./foo.step"⟩ := by decide +kernel

end ScriptLibrary

end Heartbeat

import Heartbeat.StepScript.Template
import Mathlib.Data.List.Basic

/-!
# Templates piece by piece

A template is written piece by piece: a text with its dollar signs doubled, and a reference as its
name in braces. Pieces stand next to each other without a mark between them. A doubled sign is read
as a pair and a name up to its brace, so a piece is never taken together with what follows it, be it
the next piece or any other template; and a value goes into the result as it is.

* `Piece`: texts and references; `Piece.written`, `Piece.meaning`: how a piece is written, and what
  it stands for.
* `expand_double_append`, `expand_reference`: a piece in front of any template.
* `expand_written_append`: any pieces in front of any template.
* `template_law`: the law of templates, on strings.
-/

namespace Heartbeat.StepScript

open Heartbeat.Text

variable {vars : Variables} {name text rest : List Char} {c : Char}

/-! ## Texts and references -/

/-- A text with its dollar signs doubled. -/
def double (text : List Char) : List Char :=
  text.flatMap fun c => if c = '$' then ['$', '$'] else [c]

/-- A reference to a variable, with the name in braces. -/
def reference (name : List Char) : List Char := '$' :: '{' :: (name ++ ['}'])

theorem double_cons (c : Char) (text : List Char) :
    double (c :: text) = (if c = '$' then ['$', '$'] else [c]) ++ double text :=
  List.flatMap_cons

/-- Any other character than a dollar sign stands for itself. -/
theorem expand_of_ne (h : c ≠ '$') : expand vars (c :: rest) = c :: expand vars rest := by
  rw [expand] <;> simp_all

/-- **A text with its dollar signs doubled stands for itself**, whatever follows it. -/
theorem expand_double_append (text : List Char) :
    expand vars (double text ++ rest) = text ++ expand vars rest := by
  induction text with
  | nil => rfl
  | cons c text ih =>
    rw [double_cons]
    by_cases hc : c = '$'
    · -- the pair is read as one sign, so that the sign of what follows is not looked at
      simp [hc, expand, ih]
    · simp [hc, expand_of_ne, ih]

/-- **A reference stands for the value of its variable**, whatever follows it. -/
theorem expand_reference_append (h : '}' ∉ name) :
    expand vars (reference name ++ rest) = vars.value name ++ expand vars rest := by
  have hsplit : splitAt? '}' (name ++ '}' :: rest) = some (name, rest) := splitAt?_append h
  have hwhole : reference name ++ rest = '$' :: '{' :: (name ++ '}' :: rest) := by
    simp [reference]
  rw [hwhole, expand]
  split
  · simp_all
  · simp_all

/-! ## Pieces -/

/-- A piece of a template: a text, or a reference to a variable. A brace would end the name of a
variable, so there is none in it. -/
inductive Piece where
  | text (text : String)
  | reference (name : String) (h : '}' ∉ name.toList)

namespace Piece

/-- How a piece is written. -/
def written : Piece → List Char
  | .text text => double text.toList
  | .reference name _ => StepScript.reference name.toList

/-- What a piece stands for: a text for itself, and a reference for the value of the variable, or
for nothing if the variable is not set. -/
def meaning (vars : Variables) : Piece → List Char
  | .text text => text.toList
  | .reference name _ => ((vars.get? name).getD "").toList

end Piece

theorem Variables.value_toList (vars : Variables) (name : String) :
    vars.value name.toList = ((vars.get? name).getD "").toList := by
  unfold value
  rw [String.ofList_toList]
  cases vars.get? name <;> rfl

theorem expand_piece_append (piece : Piece) :
    expand vars (piece.written ++ rest) = piece.meaning vars ++ expand vars rest := by
  cases piece with
  | text text => exact expand_double_append text.toList
  | reference name h =>
    rw [Piece.meaning, ← Variables.value_toList]
    exact expand_reference_append h

/-- **Pieces stand for what each of them stands for**, in order, whatever follows them. -/
theorem expand_written_append (pieces : List Piece) (rest : List Char) :
    expand vars (pieces.flatMap Piece.written ++ rest) =
      pieces.flatMap (Piece.meaning vars) ++ expand vars rest := by
  induction pieces with
  | nil => rfl
  | cons piece pieces ih =>
    rw [List.flatMap_cons, List.flatMap_cons, List.append_assoc, expand_piece_append, ih,
      List.append_assoc]

/-! ## Strings -/

/-- The template that is written for pieces. -/
def template (pieces : List Piece) : String := String.ofList (pieces.flatMap Piece.written)

/-- What pieces stand for. -/
def meaning (vars : Variables) (pieces : List Piece) : String :=
  String.ofList (pieces.flatMap (Piece.meaning vars))

/-- **The law of templates** under some variables. -/
structure TemplateLaw (vars : Variables) : Prop where
  /-- Pieces in front of any other template stand for their texts and values. -/
  pieces : ∀ pieces rest, interpolate vars (template pieces ++ rest) =
    meaning vars pieces ++ interpolate vars rest
  /-- A text whose dollar signs are doubled stands for itself. -/
  doubled : ∀ text : String, interpolate vars (String.ofList (double text.toList)) = text
  /-- A value goes in as it is, whatever signs and braces it contains and whatever follows. -/
  verbatim : ∀ name value rest, '}' ∉ name.toList → vars.get? name = some value →
    interpolate vars (String.ofList (reference name.toList) ++ rest) =
      value ++ interpolate vars rest
  /-- Nothing goes in for a variable that is not set. -/
  unset : ∀ name rest, '}' ∉ name.toList → vars.get? name = none →
    interpolate vars (String.ofList (reference name.toList) ++ rest) = interpolate vars rest

theorem interpolate_template_append (vars : Variables) (pieces : List Piece) (rest : String) :
    interpolate vars (template pieces ++ rest) =
      meaning vars pieces ++ interpolate vars rest := by
  unfold interpolate template meaning
  rw [String.toList_append, String.toList_ofList, expand_written_append, String.ofList_append]

/-- **Templates mean what they are written for**, under all variables. -/
theorem template_law (vars : Variables) : TemplateLaw vars where
  pieces := interpolate_template_append vars
  doubled text := by
    have hlaw := interpolate_template_append vars [.text text] ""
    simpa [template, meaning, Piece.written, Piece.meaning, interpolate, expand] using hlaw
  verbatim name value rest h hvalue := by
    have hlaw := interpolate_template_append vars [.reference name h] rest
    simpa [template, meaning, Piece.written, Piece.meaning, hvalue] using hlaw
  unset name rest h hvalue := by
    have hlaw := interpolate_template_append vars [.reference name h] rest
    simpa [template, meaning, Piece.written, Piece.meaning, hvalue] using hlaw

example : interpolate [("a", "$b"), ("b", "c")] "$$a$\x7ba\x7d$b" = "$a$bc" := by decide +kernel

end Heartbeat.StepScript

import Heartbeat.StepScript.Variables
import Heartbeat.Text.Decimal
import Heartbeat.Text.Split

/-!
# Templates

A template is a text with references to variables: `$name`, with as many ASCII letters, digits and
underscores as follow, or `${name}` with any name that has no closing brace. Two dollar signs stand
for one. A dollar sign with nothing of this kind behind it stands for itself, and so does `${`
without a closing brace.

* `expand`: a template with the values of the variables in place of the references; a variable that
  is not set has the empty value, and values are not searched for references.
-/

namespace Heartbeat.StepScript

open Heartbeat.Text

/-- What a reference to a variable stands for. -/
def Variables.value (vars : Variables) (name : List Char) : List Char :=
  match vars.get? (String.ofList name) with
  | some value => value.toList
  | none => []

/-- A template with the values of the variables in place of the references. -/
def expand (vars : Variables) (template : List Char) : List Char :=
  match template with
  | [] => []
  | '$' :: '$' :: rest => '$' :: expand vars rest
  | '$' :: '{' :: rest =>
    match h : splitAt? '}' rest with
    | some (name, after) =>
      have : after.length < rest.length := length_lt_of_splitAt? h
      vars.value name ++ expand vars after
    | none => '$' :: '{' :: rest
  | '$' :: rest =>
    have : (rest.dropWhile isNameChar).length ≤ rest.length := length_dropWhile_le isNameChar rest
    if rest.takeWhile isNameChar = [] then '$' :: expand vars rest
    else vars.value (rest.takeWhile isNameChar) ++ expand vars (rest.dropWhile isNameChar)
  | c :: rest => c :: expand vars rest
termination_by template.length
decreasing_by all_goals (simp only [List.length_cons]; omega)

/-- A template string with the values of the variables in place of the references (`interpolate`).
-/
def interpolate (vars : Variables) (template : String) : String :=
  String.ofList (expand vars template.toList)

end Heartbeat.StepScript

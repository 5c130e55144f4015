/-!
# Variables

The variables of a step script are texts by name.

* `Variables.get?`, `set`, `unset`: look-up and changes.
* `get?_set`, `get?_unset`: what the changes do to look-up.
-/

namespace Heartbeat.StepScript

/-- Values by name; a name that was set again comes first with its new value. -/
abbrev Variables := List (String × String)

namespace Variables

/-- The value of a variable. -/
def get? (vars : Variables) (name : String) : Option String :=
  (vars.find? (·.1 == name)).map Prod.snd

/-- Whether a variable is set. -/
def isSet (vars : Variables) (name : String) : Bool := (vars.get? name).isSome

/-- Takes a variable away. -/
def unset (vars : Variables) (name : String) : Variables := vars.filter (·.1 != name)

/-- Gives a variable a value. -/
def set (vars : Variables) (name value : String) : Variables := (name, value) :: vars.unset name

/-- A variable that was taken away has no value, and the others keep theirs. -/
theorem get?_unset (vars : Variables) (name other : String) :
    (vars.unset name).get? other = if other = name then none else vars.get? other := by
  simp only [unset, get?, List.find?_filter]
  by_cases h : other = name
  · subst h
    simp
  · rw [if_neg h]
    congr 2
    funext entry
    by_cases he : entry.1 = other <;> simp [he, h]

/-- A variable that was set has its value, and the others keep theirs. -/
theorem get?_set (vars : Variables) (name value other : String) :
    (vars.set name value).get? other = if other = name then some value else vars.get? other := by
  by_cases h : other = name
  · simp [set, get?, h]
  · simpa [set, get?, h, Ne.symm h] using get?_unset vars name other

end Variables

end Heartbeat.StepScript

import Heartbeat.Proofs.Thread.Insular
import Heartbeat.Proofs.Thread.Steady
import Heartbeat.StepScript.Interpreter

/-!
# What the code of step scripts reaches

A step script never touches the world, and asks for nothing but what its instructions `run`, `stop`
and `pause` ask for; the answers of its events ask for nothing. It looks neither at its budget nor
at the time.

* `Program.Asks`: every instruction asks for nothing but what it may ask for.
* `Program.IsQuiet`, `Program.IsSingle`: programs without such instructions, and without `run`.
* `isInsular_language`: the code of such a program keeps to what its instructions may ask for.
* `isSteady_language`: the code of every program is steady.
-/

namespace Heartbeat.StepScript

/-- Whether an instruction asks something of the scheduler. -/
def Instruction.isRequest : Instruction → Bool
  | .run _ _ | .stop _ | .pause _ => true
  | _ => false

/-- Whether an instruction asks for the start of a script. -/
def Instruction.isRun : Instruction → Bool
  | .run _ _ => true
  | _ => false

/-- An instruction asks for nothing but what it may ask for, whatever its variables are. -/
def Instruction.Asks (may : Request → Prop) : Instruction → Prop
  | .run _ _ => ∀ script args, may (.run script args)
  | .stop _ => ∀ target, may (.stop target)
  | .pause _ => ∀ target, may (.pause target)
  | _ => True

namespace Program

/-- All instructions ask for nothing but what they may ask for. -/
def Asks (may : Request → Prop) (p : Program) : Prop := ∀ i ∈ p.code, i.instruction.Asks may

/-- A program without `run`, `stop` and `pause`. -/
def IsQuiet (p : Program) : Prop := ∀ i ∈ p.code, i.instruction.isRequest = false

instance (p : Program) : Decidable p.IsQuiet :=
  inferInstanceAs (Decidable (∀ i ∈ p.code, i.instruction.isRequest = false))

/-- A program without `run`. -/
def IsSingle (p : Program) : Prop := ∀ i ∈ p.code, i.instruction.isRun = false

instance (p : Program) : Decidable p.IsSingle :=
  inferInstanceAs (Decidable (∀ i ∈ p.code, i.instruction.isRun = false))

end Program

theorem Program.IsQuiet.asks {program : Program} (h : program.IsQuiet) :
    program.Asks fun _ => False := by
  intro i hi
  have hquiet := h i hi
  cases hkind : i.instruction with
  | run | stop | pause =>
    rw [hkind] at hquiet
    exact absurd hquiet nofun
  | _ => trivial

theorem Program.IsSingle.asks {program : Program} (h : program.IsSingle) :
    program.Asks Request.IsCalm := by
  intro i hi
  have hsingle := h i hi
  cases hkind : i.instruction with
  | run =>
    rw [hkind] at hsingle
    exact absurd hsingle nofun
  | stop | pause => exact fun _ => trivial
  | _ => trivial

/-- Any program asks for something. -/
theorem Program.asks_all (program : Program) : program.Asks fun _ => True := by
  intro i _
  cases i.instruction with
  | run => exact fun _ _ => trivial
  | stop | pause => exact fun _ => trivial
  | _ => trivial

variable {W : Type} {engine : PatternEngine} {may : Request → Prop} {program : Program}
  {caller : Caller}

/-- The code asks for nothing but what it may ask for, and does not notice heartbeats. -/
def Keeps {α : Type} (may : Request → Prop) (code : Code Memory W HitCounter α) : Prop :=
  code.Asks may ∧ code.IsSteady

theorem keeps_jump (m : Memory) (line : Nat) (label : String) :
    Keeps may (jump (W := W) program m line label) := by
  unfold jump
  split <;> exact ⟨trivial, trivial⟩

theorem keeps_increment (m : Memory) (line : Nat) (var : String) :
    Keeps may (increment (W := W) m line var) := by
  unfold increment
  split
  · exact ⟨trivial, trivial⟩
  · split
    · exact ⟨trivial, trivial⟩
    · split <;> exact ⟨trivial, trivial⟩

theorem keeps_execute (m : Memory) (line : Nat) {i : Instruction} (hi : i.Asks may) :
    Keeps may (execute (W := W) program caller m line i) := by
  cases i with
  | incr var => exact keeps_increment m line var
  | event name pattern =>
    refine ⟨fun answer => ?_, fun answer => ?_⟩
    · cases answer <;> trivial
    · cases answer <;> trivial
  | unevent name => exact ⟨fun _ => trivial, fun _ => trivial⟩
  | doEvents => exact ⟨fun _ => trivial, fun _ => trivial⟩
  | delay amount until? =>
    simp only [execute]
    split <;> exact ⟨trivial, trivial⟩
  | goto label => exact keeps_jump m line label
  | ifSet var label =>
    simp only [execute]
    split
    · exact keeps_jump m line label
    · exact ⟨trivial, trivial⟩
  | run script args => exact ⟨⟨hi _ _, trivial⟩, trivial⟩
  | stop target? => exact ⟨⟨hi _, trivial⟩, trivial⟩
  | pause target? => exact ⟨⟨hi _, trivial⟩, trivial⟩
  | _ => exact ⟨trivial, trivial⟩

theorem keeps_recall {α : Type} {next : Memory → Code Memory W HitCounter α}
    (h : ∀ m, Keeps may (next m)) : Keeps may (.recall next) :=
  ⟨fun m => (h m).1, fun m => (h m).2⟩

theorem keeps_step (h : program.Asks may) : Keeps may (step (W := W) program caller) := by
  refine keeps_recall fun m => ?_
  simp only
  split
  · exact ⟨trivial, trivial⟩
  · rename_i line instruction hi
    exact keeps_execute _ line (h _ (List.mem_of_getElem? hi))

theorem asks_respond (counter : HitCounter) (captures : Captures) :
    (respond (W := W) counter captures).Asks may := by
  intro m
  simp only
  split <;> trivial

/-- **Step scripts keep to what their instructions may ask for.** -/
theorem isInsular_language {tame : Program → Prop} (htame : ∀ p, tame p → p.Asks may) :
    (language W engine).IsInsular may tame where
  step p _ h := (keeps_step (htame p h)).1
  respond counter captures _ := asks_respond counter captures
  evaluate _ _ := rfl

/-- **Step scripts do not notice heartbeats.** -/
theorem isSteady_language : (language W engine).IsSteady where
  step p _ := (keeps_step p.asks_all).2
  timeless _ _ _ := rfl
  evaluate _ _ := ⟨_, rfl⟩

end Heartbeat.StepScript

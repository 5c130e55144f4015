import Heartbeat.Thread

/-!
# The life of a thread

What happens to one thread, told from outside: it is started, its code does things, lines are
matched against its events, it is paused, resumed, marked for stopping and removed. `Life.Step` says
which of this may happen when, and `Life.Run` which rows of it make a life.

* A paused thread does nothing and hears nothing; nor does one that was stopped or has ended.
* A step is made while the thread runs, never while it waits.
* A condition is looked at only behind the deadline of its wait. The look that finds it to hold ends
  the wait; one that breaks down ends the thread.
-/

namespace Heartbeat

namespace ExecutionState

variable {κ : Type} {state state' : ExecutionState κ}

theorem isPaused_pause (state : ExecutionState κ) : state.pause.isPaused = true := by
  cases state <;> rfl

theorem isPaused_resume (state : ExecutionState κ) : state.resume.isPaused = false := by
  cases state with
  | paused saved? => cases saved? <;> rfl
  | running => rfl
  | delayed wait => rfl

theorem status_eq_ite (state : ExecutionState κ) :
    state.status = if state.isPaused then .paused else .running := by
  cases state <;> rfl

theorem status_congr (h : state'.isPaused = state.isPaused) : state'.status = state.status := by
  rw [status_eq_ite, status_eq_ite, h]

end ExecutionState

/-- Something that the code of a thread does. -/
inductive Deed (L : Language) where
  /-- A waiting match is handed to its callback, before the thread is polled. -/
  | answered (entry : PendingEvent L.Callback)
  /-- The condition of the wait is looked at. -/
  | looked (condition : L.Condition) (verdict : Verdict)
  /-- A wait without a condition is over. -/
  | elapsed
  /-- The script makes a step; what the step does in its course belongs to it. -/
  | stepped (ending : StepEnd L.Condition)

/-- Something that happens to a thread. -/
inductive Act (L : Language) where
  | started
  /-- The code of the thread does something. -/
  | did (deed : Deed L)
  /-- A line is matched against the events of the thread, and so many matches are queued. -/
  | heard (line : String) (count : Nat)
  | paused
  | resumed
  /-- The thread is marked for stopping. -/
  | marked
  /-- The thread is removed from the live ones. -/
  | reaped

/-- Whether an act runs code of the thread, or matches a line for it. -/
def Act.isBusy {L : Language} : Act L → Bool
  | .did _ | .heard _ _ => true
  | _ => false

/-- Whether a step with this end is the last one of its script. -/
def StepEnd.isLast {C : Type} : StepEnd C → Bool
  | .proceed | .wait _ _ => false
  | .done _ | .fault _ | .panicked _ => true

/-- Where a thread is in its life. -/
inductive Life (κ : Type) where
  | unborn
  /-- It is active, in this state. -/
  | awake (state : ExecutionState κ)
  /-- It was stopped or has ended. -/
  | finished

/-- Where a thread is in its life. -/
def Thread.life {L : Language} (t : Thread L) : Life L.Condition :=
  if t.isActive then .awake t.state else .finished

namespace Life

variable {L : Language}

/-- What may happen to a thread at a time, and where it takes the thread. -/
inductive Step (now : Millis) : Life L.Condition → Act L → Life L.Condition → Prop
  | started : Step now .unborn .started (.awake .running)
  | answered {state : ExecutionState L.Condition} (entry : PendingEvent L.Callback)
      (hawake : state.isPaused = false) :
      Step now (.awake state) (.did (.answered entry)) (.awake state)
  | refused {wait : Wait L.Condition} {condition : L.Condition} (hdue : wait.deadline ≤ now)
      (hcond : wait.condition? = some condition) :
      Step now (.awake (.delayed wait)) (.did (.looked condition (.known false)))
        (.awake (.delayed wait))
  | held {wait : Wait L.Condition} {condition : L.Condition} (hdue : wait.deadline ≤ now)
      (hcond : wait.condition? = some condition) :
      Step now (.awake (.delayed wait)) (.did (.looked condition (.known true)))
        (.awake .running)
  | broke {wait : Wait L.Condition} {condition : L.Condition} (text? : Option String)
      (hdue : wait.deadline ≤ now) (hcond : wait.condition? = some condition) :
      Step now (.awake (.delayed wait)) (.did (.looked condition (.panicked text?))) .finished
  | elapsed {wait : Wait L.Condition} (hdue : wait.deadline ≤ now)
      (hcond : wait.condition? = none) :
      Step now (.awake (.delayed wait)) (.did .elapsed) (.awake .running)
  | proceeded : Step now (.awake .running) (.did (.stepped .proceed)) (.awake .running)
  | waited (millis : Millis) (condition? : Option L.Condition) :
      Step now (.awake .running) (.did (.stepped (.wait millis condition?)))
        (.awake (.delay now millis condition?))
  | ended {ending : StepEnd L.Condition} (hlast : ending.isLast = true) :
      Step now (.awake .running) (.did (.stepped ending)) .finished
  | heard {state : ExecutionState L.Condition} (line : String) (count : Nat)
      (hawake : state.isPaused = false) :
      Step now (.awake state) (.heard line count) (.awake state)
  | paused {state : ExecutionState L.Condition} (hawake : state.isPaused = false) :
      Step now (.awake state) .paused (.awake state.pause)
  | resumed {state : ExecutionState L.Condition} (hpaused : state.isPaused = true) :
      Step now (.awake state) .resumed (.awake state.resume)
  | marked {state : ExecutionState L.Condition} : Step now (.awake state) .marked .finished
  | reaped : Step now .finished .reaped .finished

/-- Acts with their times, one after another, from one point of a life to another. -/
inductive Run : Life L.Condition → List (Millis × Act L) → Life L.Condition → Prop
  | nil (life : Life L.Condition) : Run life [] life
  | cons {life life' life'' : Life L.Condition} {now : Millis} {act : Act L}
      {acts : List (Millis × Act L)} (h : Step now life act life') (hrest : Run life' acts life'') :
      Run life ((now, act) :: acts) life''

namespace Run

variable {life life' life'' : Life L.Condition} {acts acts' : List (Millis × Act L)}

theorem append (h : Run life acts life') (h' : Run life' acts' life'') :
    Run life (acts ++ acts') life'' := by
  induction h with
  | nil => exact h'
  | cons hstep _ ih => exact .cons hstep (ih h')

theorem single {now : Millis} {act : Act L} (h : Step now life act life') :
    Run life [(now, act)] life' :=
  .cons h (.nil life')

/-- A life can be cut anywhere. -/
theorem split (h : Run life (acts ++ acts') life'') :
    ∃ life', Run life acts life' ∧ Run life' acts' life'' := by
  induction acts generalizing life with
  | nil => exact ⟨life, .nil life, h⟩
  | cons act acts ih =>
    cases h with
    | cons hstep hrest =>
      obtain ⟨mid, hmid, hrest⟩ := ih hrest
      exact ⟨mid, .cons hstep hmid, hrest⟩

/-- When a life is over nothing is done any more. -/
theorem over_idle (h : Run .finished acts life) : ∀ x ∈ acts, x.2 = .reaped := by
  generalize hstart : (Life.finished : Life L.Condition) = start at h
  induction h with
  | nil => exact fun _ hx => absurd hx List.not_mem_nil
  | cons hstep _ ih =>
    subst hstart
    cases hstep with
    | reaped =>
      intro x hx
      rcases List.mem_cons.mp hx with rfl | hx
      · rfl
      · exact ih rfl x hx

theorem over_stays (h : Run .finished acts life) : life = .finished := by
  generalize hstart : (Life.finished : Life L.Condition) = start at h
  induction h with
  | nil => rfl
  | cons hstep _ ih =>
    subst hstart
    cases hstep with
    | reaped => exact ih rfl

theorem of_marked {now : Millis} (h : Run life [(now, .marked)] life') : life' = .finished := by
  cases h with
  | cons hstep hrest =>
    cases hrest
    cases hstep
    rfl

theorem of_paused {now : Millis} (h : Run life [(now, .paused)] life') :
    ∃ state : ExecutionState L.Condition, life' = .awake state.pause := by
  cases h with
  | cons hstep hrest =>
    cases hrest
    cases hstep
    exact ⟨_, rfl⟩

end Run

end Life

end Heartbeat

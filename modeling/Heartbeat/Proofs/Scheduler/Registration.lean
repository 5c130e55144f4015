import Heartbeat.Proofs.Event.Origin
import Heartbeat.Proofs.Scheduler.Delivery

/-!
# What is registered in a run

Events are registered by the steps of scripts and by callbacks. Where all of these register nothing
but what they may, nothing else is registered by a thread in any run, and the callbacks that get
matches are of the kind that may be registered.

* `Code.Registers`: code that registers nothing but what it may.
* `Language.Registers`: the scripts and callbacks of a language are of this kind.
* `EventDeed.Within`: a deed registers nothing but what may be registered.
* `Context.within_runEvents`, `within_drainEvents`, `within_rowEvents`: so it is with code.
* `Thread.within_serviceEvents`: so it is with a service.
* `within_eventLog`: so it is with a run.
* `exists_origin_of_create`: where the matches of a run come from.
-/

namespace Heartbeat

variable {L : Language}

section Code

variable {M W K α : Type}

/-- The code registers nothing but what it may. -/
def Code.Registers (may : String → String → K → Prop) : Code M W K α → Prop
  | .finish _ => True
  | .print _ next => next.Registers may
  | .register name pattern callback next =>
    may name pattern callback ∧ ∀ answer, (next answer).Registers may
  | .unregister _ next => ∀ answer, (next answer).Registers may
  | .pending next => ∀ answer, (next answer).Registers may
  | .dispatchEvents next => ∀ answer, (next answer).Registers may
  | .consume _ next => next.Registers may
  | .remaining next => ∀ answer, (next answer).Registers may
  | .request _ next => next.Registers may
  | .recall next => ∀ answer, (next answer).Registers may
  | .store _ next => next.Registers may
  | .observe next => ∀ answer, (next answer).Registers may
  | .affect _ next => next.Registers may

end Code

/-- The scripts and the callbacks of a language register nothing but what they may. -/
structure Language.Registers (L : Language) (may : String → String → L.Callback → Prop) :
    Prop where
  step : ∀ script caller, (L.step script caller).Registers may
  respond : ∀ callback captures caller, (L.respond callback captures caller).Registers may

namespace EventDeed

variable {κ : Type} {may : String → String → κ → Prop}

/-- The deed registers nothing but what may be registered. -/
def Within (may : String → String → κ → Prop) : EventDeed κ → Prop
  | .call (.register name pattern callback) => may name pattern callback
  | _ => True

/-- What is registered among deeds may be registered. -/
theorem may_of_mem_calls {deeds : List (EventDeed κ)} (h : ∀ deed ∈ deeds, deed.Within may)
    {name pattern : String} {callback : κ}
    (hmem : EventCall.register name pattern callback ∈ calls deeds) :
    may name pattern callback := by
  obtain ⟨deed, hdeed, hcall⟩ := List.mem_filterMap.mp hmem
  cases deed with
  | call made =>
    obtain rfl := Option.some.inj hcall
    exact h _ hdeed
  | invoke entry => cases hcall

end EventDeed

namespace Context

open EventDeed (Within)

variable {α : Type} {caller : Caller} {may : String → String → L.Callback → Prop}

/-- Code registers nothing but what it may, as long as handing out matches does so. -/
theorem within_runEvents {drain : Context L → Nat × Context L}
    {drained : Context L → List (EventDeed L.Callback)}
    (hdrained : ∀ c, ∀ deed ∈ drained c, deed.Within may)
    (code : Code L.Memory L.World L.Callback α) (hcode : code.Registers may) (c : Context L) :
    ∀ deed ∈ runEvents caller drain drained code c, deed.Within may := by
  induction code generalizing c with
  | finish a => exact List.forall_mem_nil _
  | print text next ih => exact ih hcode _
  | register name pattern callback next ih =>
    simp only [runEvents, List.forall_mem_cons]
    refine ⟨hcode.1, ?_⟩
    split
    · exact ih _ (hcode.2 _) _
    · exact ih _ (hcode.2 _) _
  | unregister name next ih => exact List.forall_mem_cons.mpr ⟨trivial, ih _ (hcode _) _⟩
  | pending next ih => exact ih _ (hcode _) _
  | dispatchEvents next ih =>
    exact List.forall_mem_append.mpr ⟨hdrained c, ih _ (hcode _) _⟩
  | consume steps next ih => exact ih hcode _
  | remaining next ih => exact ih _ (hcode _) _
  | request r next ih => exact ih hcode _
  | «recall» next ih => exact ih _ (hcode _) _
  | store memory next ih => exact ih hcode _
  | observe next ih => exact ih _ (hcode _) _
  | affect world next ih => exact ih hcode _

section Language

variable (h : L.Registers may)

include h

theorem within_drainEventsWithin (bound : Nat) (c : Context L) :
    ∀ deed ∈ drainEventsWithin caller bound c, deed.Within may := by
  induction bound generalizing c with
  | zero => exact List.forall_mem_nil _
  | succ bound ih =>
    unfold drainEventsWithin
    split
    · exact List.forall_mem_nil _
    · rename_i entry events _
      have hanswer : ∀ c : Context L, ∀ deed ∈ c.respondEvents caller entry, deed.Within may :=
        within_runEvents (fun _ => List.forall_mem_nil _) _ (h.respond _ _ caller)
      refine List.forall_mem_append.mpr ⟨?_, List.forall_mem_append.mpr ⟨hanswer _, ih _⟩⟩
      simp [Within]

theorem within_drainEvents (c : Context L) : ∀ deed ∈ c.drainEvents caller, deed.Within may :=
  within_drainEventsWithin h _ c

/-- A row of steps registers nothing but what it may. -/
theorem within_rowEvents (script : L.Script) (bound : Nat) (c : Context L) :
    ∀ deed ∈ c.rowEvents caller script bound, deed.Within may := by
  induction bound generalizing c with
  | zero => exact List.forall_mem_nil _
  | succ bound ih =>
    have hstep : ∀ deed ∈ c.stepEvents caller script, deed.Within may :=
      within_runEvents (within_drainEvents h) _ (h.step script caller) _
    unfold rowEvents
    split
    · exact List.forall_mem_nil _
    · refine List.forall_mem_append.mpr ⟨hstep, ?_⟩
      split
      · exact ih _
      · exact List.forall_mem_nil _

end Language

end Context

namespace Thread

open EventDeed (Within)

variable {may : String → String → L.Callback → Prop} (h : L.Registers may)

include h

theorem within_dispatchEvents (t : Thread L) (now : Millis) (world : L.World) :
    ∀ deed ∈ t.dispatchEvents now world, deed.Within may := by
  unfold dispatchEvents
  split
  · exact List.forall_mem_nil _
  · split
    · exact List.forall_mem_nil _
    · exact Context.within_drainEvents h _

theorem within_afterPollEvents (now : Millis) (answer : Except Fault Bool) (t : Thread L)
    (world : L.World) : ∀ deed ∈ afterPollEvents now answer t world, deed.Within may := by
  unfold afterPollEvents resumeEvents
  split
  · split
    · exact List.forall_mem_nil _
    · exact Context.within_rowEvents h _ _ _
  · exact List.forall_mem_nil _

/-- **A service registers nothing but what scripts and callbacks may.** -/
theorem within_serviceEvents (t : Thread L) (turbo : Nat) (dispatchFirst : Bool) (now : Millis)
    (world : L.World) :
    ∀ deed ∈ t.serviceEvents turbo dispatchFirst now world, deed.Within may := by
  refine List.forall_mem_append.mpr ⟨?_, within_afterPollEvents h now _ _ _⟩
  unfold openingEvents
  split
  · exact within_dispatchEvents h _ now world
  · exact List.forall_mem_nil _

end Thread

/-! ## Runs -/

section Runs

variable {may : String → String → L.Callback → Prop}

theorem within_eventDeeds (h : L.Registers may) (now : Millis) (world : L.World) (m : Move L)
    (v : View L) : ∀ deed ∈ v.eventDeeds now world m, deed.Within may := by
  cases m with
  | serve pid =>
    simp only [View.eventDeeds]
    split
    · split
      · exact List.forall_mem_nil _
      · exact Thread.within_serviceEvents h _ _ _ now world
    · exact List.forall_mem_nil _
  | feed line =>
    simp only [View.eventDeeds]
    split
    · exact List.forall_mem_nil _
    · split
      · exact List.forall_mem_nil _
      · exact List.forall_mem_singleton.mpr trivial
  | _ => exact List.forall_mem_nil _

/-- **A run registers nothing but what scripts and callbacks may.** -/
theorem within_eventLog (h : L.Registers may) (p : Pid) (moves : List (Millis × Move L))
    (s : Scheduler L) : ∀ deed ∈ eventLog p moves s, deed.Within may := by
  induction moves generalizing s with
  | nil => exact List.forall_mem_nil _
  | cons first moves ih =>
    exact List.forall_mem_append.mpr ⟨within_eventDeeds h _ _ _ _, ih _⟩

variable (options : SchedulerOptions) (library : ScriptLibrary) (searchPath : List ScriptPath)
  (world : L.World) (start : Millis) (clock : Clock) (ops : List (Millis × Operation L)) (p : Pid)

/-- The matches that are handed to their callbacks in a run are those that its calls take. -/
theorem taken_of_create :
    let s₀ := Scheduler.create (L := L) options library searchPath world start clock
    let log := eventLog p (history ops s₀) s₀
    (EventProcessor.empty options.queueLimit?).taken L.engine (EventDeed.calls log) =
      EventDeed.invoked log := by
  intro s₀ log
  have hacc := Scheduler.accord_create (L := L) options library searchPath world start clock
  have hstart : View.Attended options.queueLimit? s₀.nextPid [] (s₀.view p) :=
    ⟨rfl, rfl, nofun, fun _ => ⟨rfl, rfl⟩⟩
  exact ((path_history ops s₀).attended hacc hstart).taken

/-- **Every match that is handed to its callback in a run comes from a pattern and a line**, and the
callback may be registered with the pattern. -/
theorem exists_origin_of_create (h : L.Registers may) :
    let s₀ := Scheduler.create (L := L) options library searchPath world start clock
    let log := eventLog p (history ops s₀) s₀
    ∀ entry ∈ EventDeed.invoked log, ∃ pattern line,
      EventProcessor.Origin L.engine (EventDeed.calls log) entry pattern line ∧
        may entry.name pattern entry.definition.callback := by
  intro s₀ log entry hentry
  have hwithin : ∀ deed ∈ log, deed.Within may := within_eventLog h p _ s₀
  have htaken : (EventProcessor.empty options.queueLimit?).taken L.engine (EventDeed.calls log) =
      EventDeed.invoked log := taken_of_create options library searchPath world start clock ops p
  obtain ⟨pattern, line, horigin⟩ := EventProcessor.exists_origin_of_taken (htaken ▸ hentry)
  obtain ⟨before, after, hcalls, hregister⟩ := horigin.order
  refine ⟨pattern, line, horigin, EventDeed.may_of_mem_calls hwithin ?_⟩
  rw [hcalls]
  exact List.mem_append_left _ hregister

end Runs

end Heartbeat

import Heartbeat.Thread

/-!
# What a thread makes of its memory

Three things touch the memory of a thread: the steps of its script, the callbacks of its events, and
its wait conditions. What all of them keep true of the memory, every heartbeat keeps true.

* `Language.Preserves`: a property of memories that these three keep.
* `Thread.Bears`: the thread runs a given script, as long as it runs, and its memory has a property.
* `Thread.bears_service`: a heartbeat keeps this.
-/

namespace Heartbeat

variable {L : Language}

/-- The property of memories is kept by the steps of the script, by callbacks and by conditions. -/
structure Language.Preserves (L : Language) (script : L.Script) (P : L.Memory → Prop) : Prop where
  step : ∀ caller (c : Context L), P c.memory → P (c.step caller script).2.memory
  respond : ∀ caller entry (c : Context L), P c.memory → P (c.respond caller entry).memory
  evaluate : ∀ condition memory world, P memory → P (L.evaluate condition (memory, world)).2.1

variable {script : L.Script} {P : L.Memory → Prop}

namespace Language.Preserves

variable (h : L.Preserves script P) {caller : Caller} {c : Context L}

include h

theorem drainWithin (bound : Nat) (hc : P c.memory) :
    P (Context.drainWithin caller bound c).2.memory := by
  induction bound generalizing c with
  | zero => exact hc
  | succ bound ih =>
    unfold Context.drainWithin
    split
    · exact hc
    · exact ih (h.respond caller _ _ hc)

theorem runSteps (bound : Nat) (hc : P c.memory) :
    P (Thread.runSteps caller script bound c).2.memory := by
  induction bound generalizing c with
  | zero => exact hc
  | succ bound ih =>
    have hstep : P (c.step caller script).2.memory := h.step caller c hc
    unfold Thread.runSteps
    split
    · exact hc
    · rcases hs : c.step caller script with ⟨ending, c'⟩
      rw [hs] at hstep
      cases ending with
      | proceed => exact ih hstep
      | _ => exact hstep

theorem poll {s : ExecutionState L.Condition} {now : Millis} {memory : L.Memory} {world : L.World}
    (hmemory : P memory) : P (s.poll L.evaluate now (memory, world)).2.2.1 := by
  cases s with
  | running | paused => exact hmemory
  | delayed wait =>
    unfold ExecutionState.poll
    simp only
    split
    · exact hmemory
    · split
      · exact hmemory
      · rename_i condition _
        have hkept : P (L.evaluate condition (memory, world)).2.1 :=
          h.evaluate condition memory world hmemory
        split
        · rename_i heval
          rwa [heval] at hkept
        · rename_i heval
          rwa [heval] at hkept

end Language.Preserves

namespace Thread

/-- The thread runs the script, as long as it runs, and its memory has the property. -/
structure Bears (script : L.Script) (P : L.Memory → Prop) (t : Thread L) : Prop where
  script : ∀ other ∈ t.script?, other = script
  memory : P t.memory

theorem bears_start (pid : Pid) (name path : String) (args : List String)
    (queueLimit? : Option Nat) (hboot : P (L.boot script)) :
    (start pid name path args script queueLimit?).Bears script P :=
  ⟨fun _ hscript => (Option.some.inj hscript).symm, hboot⟩

section Service

variable (h : L.Preserves script P) {t : Thread L} (ht : t.Bears script P)

include h ht

theorem bears_dispatch (now : Millis) (world : L.World) :
    (t.dispatch now world).thread.Bears script P := by
  unfold dispatch
  split
  · exact ht
  · split
    · exact ht
    · exact ⟨ht.script, h.drainWithin _ ht.memory⟩

theorem bears_poll (now : Millis) (world : L.World) :
    (t.poll now world).thread.Bears script P := by
  have hpoll : P (t.state.poll L.evaluate now (t.memory, world)).2.2.1 := h.poll ht.memory
  unfold poll
  split
  · exact ht
  · split
    · rename_i heq
      rw [heq] at hpoll
      exact ⟨ht.script, hpoll⟩
    · rename_i heq
      rw [heq] at hpoll
      exact ⟨nofun, hpoll⟩

omit h in
theorem bears_settle (now : Millis) (last? : Option (StepEnd L.Condition)) :
    (t.settle now last?).2.Bears script P := by
  match last? with
  | none | some .proceed | some (.wait _ _) => exact ⟨ht.script, ht.memory⟩
  | some (.done _) | some (.fault _) | some (.panicked _) => exact ⟨nofun, ht.memory⟩

theorem bears_resume (now : Millis) (world : L.World) :
    (t.resume now world).thread.Bears script P := by
  unfold resume
  split
  · exact ht
  · rename_i other hother
    obtain rfl := ht.script other hother
    exact bears_settle (t := t.absorb _) ⟨ht.script, h.runSteps _ ht.memory⟩ now _

theorem bears_afterPoll (answer : Except Fault Bool) (now : Millis) (world : L.World) :
    (t.afterPoll now answer world).thread.Bears script P := by
  match answer with
  | .error _ | .ok false => exact ht
  | .ok true =>
    have hresume := bears_resume h ht now world
    unfold afterPoll
    simp only
    split <;> exact hresume

/-- **A heartbeat keeps what the script, the callbacks and the conditions keep.** -/
theorem bears_service (turbo : Nat) (dispatchFirst : Bool) (now : Millis) (world : L.World) :
    (t.service turbo dispatchFirst now world).thread.Bears script P := by
  have hbegin : (t.beginTick turbo).Bears script P := ⟨ht.script, ht.memory⟩
  refine bears_afterPoll h (bears_poll h ?_ now _) _ now _
  cases dispatchFirst with
  | false => exact hbegin
  | true => exact bears_dispatch h hbegin now world

end Service

end Thread

end Heartbeat

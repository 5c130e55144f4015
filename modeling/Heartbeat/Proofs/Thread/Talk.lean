import Heartbeat.Thread

/-!
# What code says

Code leaves news for the host behind. All of it is about the thread that the code runs in, and it
is of two sorts: output, and callbacks that went wrong. Everything else that is reported of a thread
comes from the scheduler.

* `Talks.run`, `drain`, `step`: whatever code does, it only talks.
* `Talks.runSteps`: so do the steps of a resume.
-/

namespace Heartbeat

/-- Whether a report comes from the code of the thread: output, or a callback that went wrong. -/
def ThreadReport.isTalk : ThreadReport → Bool
  | .output _ | .callbackFaulted _ _ => true
  | _ => false

namespace Context

variable {L : Language} {α : Type} {caller : Caller} {c c' c'' : Context L}

/-- Between two contexts of a caller the code only talked: what was said before is still there, and
what was added are reports of the caller's own talk. -/
def Talks (caller : Caller) (c c' : Context L) : Prop :=
  ∃ talk : List ThreadReport, (∀ r ∈ talk, r.isTalk = true) ∧
    c'.status = c.status ++ talk.map (StatusEvent.thread caller.pid caller.name)

namespace Talks

theorem of_status (h : c'.status = c.status) : Talks caller c c' :=
  ⟨[], fun _ hr => absurd hr List.not_mem_nil, by rw [h]; exact (List.append_nil _).symm⟩

theorem refl (c : Context L) : Talks caller c c := of_status rfl

theorem trans (h : Talks caller c c') (h' : Talks caller c' c'') : Talks caller c c'' := by
  obtain ⟨talk, htalk, hc⟩ := h
  obtain ⟨more, hmore, hc'⟩ := h'
  refine ⟨talk ++ more, fun r hr => ?_, ?_⟩
  · rcases List.mem_append.mp hr with hr | hr
    · exact htalk r hr
    · exact hmore r hr
  · rw [hc', hc, List.map_append, List.append_assoc]

theorem report (c : Context L) {news : ThreadReport} (h : news.isTalk = true) :
    Talks caller c (c.report caller news) :=
  ⟨[news], fun r hr => by rw [List.mem_singleton.mp hr]; exact h, rfl⟩

/-- Whatever code does, it only talks, as long as handing out matches does. -/
theorem run {drain : Context L → Nat × Context L} (hdrain : ∀ c, Talks caller c (drain c).2)
    (code : Code L.Memory L.World L.Callback α) (c : Context L) :
    Talks caller c (Context.run caller drain code c).2 := by
  induction code generalizing c with
  | finish a => exact refl c
  | print text next ih => exact (report c rfl).trans (ih _)
  | register name pattern callback next ih =>
    simp only [Context.run]
    split
    · exact (of_status rfl).trans (ih _ _)
    · exact ih _ c
  | unregister name next ih =>
    rcases h : c.events.unregister name with ⟨found, events⟩
    simp only [Context.run, h]
    exact (of_status rfl).trans (ih found _)
  | pending next ih => exact ih _ c
  | dispatchEvents next ih =>
    have hc := hdrain c
    rcases h : drain c with ⟨count, c'⟩
    rw [h] at hc
    simp only [Context.run, h]
    exact hc.trans (ih count c')
  | consume steps next ih => exact (of_status rfl).trans (ih (c.charge steps))
  | remaining next ih => exact ih _ c
  | request r next ih => exact (of_status rfl).trans (ih (c.leave caller r))
  | «recall» next ih => exact ih _ c
  | store memory next ih => exact (of_status rfl).trans (ih { c with memory := memory })
  | observe next ih => exact ih _ c
  | affect world next ih => exact (of_status rfl).trans (ih { c with world := world })

theorem respond (entry : PendingEvent L.Callback) (c : Context L) :
    Talks caller c (c.respond caller entry) := by
  have hdrain : ∀ c : Context L, Talks caller c (alreadyDraining c).2 := fun c => refl c
  have hc := run hdrain (L.respond entry.definition.callback entry.captures caller) c
  unfold Context.respond
  rcases hr : Context.run caller alreadyDraining
    (L.respond entry.definition.callback entry.captures caller) c with ⟨ending, c'⟩
  rw [hr] at hc
  simp only [hr]
  cases ending with
  | success => exact hc
  | fault fault => exact hc.trans (report c' rfl)

theorem drainWithin (bound : Nat) (c : Context L) :
    Talks caller c (Context.drainWithin caller bound c).2 := by
  induction bound generalizing c with
  | zero => exact refl c
  | succ bound ih =>
    unfold Context.drainWithin
    split
    · exact refl c
    · rename_i entry events _
      have h : Talks caller c
          ((({ c with events := events } : Context L).charge 1).respond caller entry) :=
        (of_status rfl).trans (respond entry _)
      exact h.trans (ih _)

theorem drain (c : Context L) : Talks caller c (c.drain caller).2 := drainWithin _ c

theorem step (script : L.Script) (c : Context L) : Talks caller c (c.step caller script).2 :=
  (of_status rfl).trans (run (fun c => drain c) (L.step script caller) (c.charge 1))

end Talks

end Context

/-- A row of steps only talks. -/
theorem Context.Talks.runSteps {L : Language} (caller : Caller) (script : L.Script) (bound : Nat)
    (c : Context L) : Talks caller c (Thread.runSteps caller script bound c).2 := by
  induction bound generalizing c with
  | zero => exact .refl c
  | succ bound ih =>
    have hstep : Talks caller c (c.step caller script).2 := Talks.step script c
    unfold Thread.runSteps
    split
    · exact .refl c
    · rcases hs : c.step caller script with ⟨ending, c'⟩
      rw [hs] at hstep
      cases ending with
      | proceed => exact hstep.trans (ih c')
      | wait millis condition? => exact hstep
      | done values => exact hstep
      | fault f => exact hstep
      | panicked text? => exact hstep

end Heartbeat

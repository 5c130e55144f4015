import Heartbeat.Proofs.Event.Ledger
import Heartbeat.Proofs.Thread.Service

/-!
# What a thread does to its events

Beside the code of a thread stands the list of what it does to the events of the thread: the calls
that it makes to their processor, and the matches that are handed to their callbacks. Callbacks are
code too, so their calls stand in the list, each behind the call that took the match.

* `EventDeed`: something that is done to the events of a thread.
* `EventDeed.Traced`: the processor behind deeds is the one behind their calls, and the matches that
  are handed out are those that the calls take.
* `Traced.run`, `drainWithin`, `step`, `row`: the code of a thread is traced, and so is a service
  (`Thread.traced_service`).
* `Context.answers_drainWithin`, `invoked_drainEventsWithin`: the matches that are handed out are
  those whose callbacks run.
* `EventProcessor.law_of_calls`: the law of a processor holds in the middle of a drain, too.
-/

namespace Heartbeat

variable {L : Language}

/-- Something that is done to the events of a thread. -/
inductive EventDeed (κ : Type) where
  /-- A call to the processor. -/
  | call (call : EventCall κ)
  /-- A match is handed to its callback. -/
  | invoke (entry : PendingEvent κ)
deriving Repr, DecidableEq

namespace EventDeed

variable {κ : Type}

/-- The calls among deeds. -/
def calls (deeds : List (EventDeed κ)) : List (EventCall κ) :=
  deeds.filterMap fun
    | .call made => some made
    | .invoke _ => none

/-- The matches among deeds that are handed to their callbacks. -/
def invoked (deeds : List (EventDeed κ)) : List (PendingEvent κ) :=
  deeds.filterMap fun
    | .call _ => none
    | .invoke entry => some entry

/-- **Deeds lead from one processor to another**: the calls among them do, and the matches that are
handed out are those that the calls take. -/
structure Traced (engine : PatternEngine) (p : EventProcessor κ) (deeds : List (EventDeed κ))
    (p' : EventProcessor κ) : Prop where
  after : p' = p.after engine (calls deeds)
  taken : p.taken engine (calls deeds) = invoked deeds

namespace Traced

variable {engine : PatternEngine} {p p' p'' : EventProcessor κ} {deeds deeds' : List (EventDeed κ)}

theorem nil (engine : PatternEngine) (p : EventProcessor κ) : Traced engine p [] p := ⟨rfl, rfl⟩

theorem append (h : Traced engine p deeds p') (h' : Traced engine p' deeds' p'') :
    Traced engine p (deeds ++ deeds') p'' where
  after := by
    unfold calls
    rw [List.filterMap_append, EventProcessor.after_append, h'.after, h.after]
    rfl
  taken := by
    have htaken := h'.taken
    rw [h.after] at htaken
    unfold calls invoked EventProcessor.taken
    rw [List.filterMap_append, List.filterMap_append, EventProcessor.along_append]
    exact congrArg₂ _ h.taken htaken

/-- A call that takes no match. -/
theorem single {call : EventCall κ} (h : p.takenBy call = []) :
    Traced engine p [.call call] (p.perform engine call) where
  after := rfl
  taken := by
    show p.takenBy call ++ [] = []
    rw [h]
    rfl

/-- A match is taken and handed to its callback. -/
theorem answer {entry : PendingEvent κ} (h : p.pop? = some (entry, p')) :
    Traced engine p [.call .pop, .invoke entry] p' where
  after := by
    show p' = p.perform engine .pop
    unfold EventProcessor.perform
    rw [h]
  taken := by
    show p.queue.entries.take 1 ++ [] = [entry]
    unfold EventProcessor.pop? EventQueue.pop? at h
    cases hentries : p.queue.entries with
    | nil =>
      rw [hentries] at h
      exact absurd h nofun
    | cons first rest =>
      rw [hentries] at h
      have hentry : first = entry := congrArg Prod.fst (Option.some.inj h)
      rw [hentry]
      rfl

end Traced

end EventDeed

/-! ## The deeds of code -/

namespace Context

variable {α : Type}

/-- What code does to the events; `drained` says what handing out the waiting matches does. -/
def runEvents (caller : Caller) (drain : Context L → Nat × Context L)
    (drained : Context L → List (EventDeed L.Callback)) :
    Code L.Memory L.World L.Callback α → Context L → List (EventDeed L.Callback)
  | .finish _, _ => []
  | .print text next, c => runEvents caller drain drained next (c.report caller (.output text))
  | .register name pattern callback next, c =>
    .call (.register name pattern callback) ::
      match c.events.register L.engine name pattern callback with
      | .ok events => runEvents caller drain drained (next none) { c with events := events }
      | .error e => runEvents caller drain drained (next (some e)) c
  | .unregister name next, c =>
    let (found, events) := c.events.unregister name
    .call (.unregister name) ::
      runEvents caller drain drained (next found) { c with events := events }
  | .pending next, c => runEvents caller drain drained (next c.events.pending) c
  | .dispatchEvents next, c =>
    let (count, c') := drain c
    drained c ++ runEvents caller drain drained (next count) c'
  | .consume steps next, c => runEvents caller drain drained next (c.charge steps)
  | .remaining next, c => runEvents caller drain drained (next c.budget.remaining) c
  | .request request next, c => runEvents caller drain drained next (c.leave caller request)
  | .recall next, c => runEvents caller drain drained (next c.memory) c
  | .store memory next, c => runEvents caller drain drained next { c with memory := memory }
  | .observe next, c => runEvents caller drain drained (next c.world) c
  | .affect world next, c => runEvents caller drain drained next { c with world := world }

/-- What the callback of a match does to the events. -/
def respondEvents (caller : Caller) (entry : PendingEvent L.Callback) (c : Context L) :
    List (EventDeed L.Callback) :=
  runEvents caller alreadyDraining (fun _ => [])
    (L.respond entry.definition.callback entry.captures caller) c

/-- What handing out at most `bound` matches does to the events. -/
def drainEventsWithin (caller : Caller) : Nat → Context L → List (EventDeed L.Callback)
  | 0, _ => []
  | bound + 1, c =>
    match c.events.pop? with
    | none => []
    | some (entry, events) =>
      let c := ({ c with events := events } : Context L).charge 1
      [.call .pop, .invoke entry] ++ (c.respondEvents caller entry ++
        drainEventsWithin caller bound (c.respond caller entry))

/-- What handing out the waiting matches does to the events. -/
def drainEvents (caller : Caller) (c : Context L) : List (EventDeed L.Callback) :=
  drainEventsWithin caller c.events.pending c

/-- What a step does to the events. -/
def stepEvents (caller : Caller) (script : L.Script) (c : Context L) :
    List (EventDeed L.Callback) :=
  runEvents caller (drain caller) (drainEvents caller) (L.step script caller) (c.charge 1)

/-- What the steps of a resume do to the events, at most `bound` of them. -/
def rowEvents (caller : Caller) (script : L.Script) :
    Nat → Context L → List (EventDeed L.Callback)
  | 0, _ => []
  | bound + 1, c =>
    if c.budget.isExhausted then []
    else
      c.stepEvents caller script ++
        match c.step caller script with
        | (.proceed, c) => rowEvents caller script bound c
        | _ => []

end Context

namespace EventDeed.Traced

open Context

variable {caller : Caller} {α : Type}

/-- **Code is traced**, as long as handing out matches is. -/
theorem run {drain : Context L → Nat × Context L}
    {drained : Context L → List (EventDeed L.Callback)}
    (hdrain : ∀ c, Traced L.engine c.events (drained c) (drain c).2.events)
    (code : Code L.Memory L.World L.Callback α) (c : Context L) :
    Traced L.engine c.events (runEvents caller drain drained code c)
      (Context.run caller drain code c).2.events := by
  induction code generalizing c with
  | finish a => exact .nil _ _
  | print text next ih => exact ih (c.report caller (.output text))
  | register name pattern callback next ih =>
    have hcall : Traced L.engine c.events [.call (.register name pattern callback)] _ := single rfl
    simp only [EventProcessor.perform] at hcall
    simp only [runEvents, Context.run]
    cases hregister : c.events.register L.engine name pattern callback with
    | ok events =>
      rw [hregister] at hcall
      exact hcall.append (ih _ { c with events := events })
    | error e =>
      rw [hregister] at hcall
      exact hcall.append (ih _ c)
  | unregister name next ih =>
    have hcall : Traced L.engine c.events [.call (.unregister name)] _ := single rfl
    exact hcall.append (ih _ { c with events := (c.events.unregister name).2 })
  | pending next ih => exact ih _ c
  | dispatchEvents next ih => exact (hdrain c).append (ih _ _)
  | consume steps next ih => exact ih (c.charge steps)
  | remaining next ih => exact ih _ c
  | request r next ih => exact ih (c.leave caller r)
  | «recall» next ih => exact ih _ c
  | store memory next ih => exact ih { c with memory := memory }
  | observe next ih => exact ih _ c
  | affect world next ih => exact ih { c with world := world }

theorem respond (entry : PendingEvent L.Callback) (c : Context L) :
    Traced L.engine c.events (c.respondEvents caller entry) (c.respond caller entry).events := by
  have hcode : Traced L.engine c.events (c.respondEvents caller entry)
      (Context.run caller alreadyDraining
        (L.respond entry.definition.callback entry.captures caller) c).2.events :=
    run (fun c => .nil _ c.events) _ c
  unfold Context.respond
  simp only
  split
  · rename_i hr
    rwa [hr] at hcode
  · rename_i hr
    rwa [hr] at hcode

theorem drainWithin (bound : Nat) (c : Context L) :
    Traced L.engine c.events (drainEventsWithin caller bound c)
      (Context.drainWithin caller bound c).2.events := by
  induction bound generalizing c with
  | zero => exact .nil _ _
  | succ bound ih =>
    unfold drainEventsWithin Context.drainWithin
    cases hpop : c.events.pop? with
    | none => exact .nil _ _
    | some popped =>
      obtain ⟨entry, events⟩ := popped
      let c' : Context L := ({ c with events := events } : Context L).charge 1
      exact (answer hpop).append ((respond entry c').append (ih (c'.respond caller entry)))

theorem drain (c : Context L) :
    Traced L.engine c.events (drainEvents caller c) (c.drain caller).2.events :=
  drainWithin _ c

theorem step (script : L.Script) (c : Context L) :
    Traced L.engine c.events (c.stepEvents caller script) (c.step caller script).2.events :=
  run drain (L.step script caller) (c.charge 1)

/-- A row of steps is traced. -/
theorem row (script : L.Script) (bound : Nat) (c : Context L) :
    Traced L.engine c.events (rowEvents caller script bound c)
      (Thread.runSteps caller script bound c).2.events := by
  induction bound generalizing c with
  | zero => exact .nil _ _
  | succ bound ih =>
    unfold rowEvents Thread.runSteps
    by_cases hspent : c.budget.isExhausted = true
    · simp only [if_pos hspent]
      exact .nil _ _
    · have hstep : Traced L.engine c.events (c.stepEvents caller script)
          (c.step caller script).2.events :=
        step script c
      simp only [if_neg hspent]
      rcases hs : c.step caller script with ⟨ending, c'⟩
      rw [hs] at hstep
      cases ending with
      | proceed => exact hstep.append (ih c')
      | _ => simpa using hstep

end EventDeed.Traced

/-! ## What is handed out -/

namespace Context

variable {caller : Caller} {α : Type}

/-- **Matches are answered one after another**: the oldest one is taken, and its callback runs at
once. -/
inductive Answers (caller : Caller) :
    List (PendingEvent L.Callback) → Context L → Context L → Prop
  | done (c : Context L) : Answers caller [] c c
  | next {entry : PendingEvent L.Callback} {entries : List (PendingEvent L.Callback)}
      {c c' : Context L} {events : EventProcessor L.Callback}
      (hpop : c.events.pop? = some (entry, events))
      (hrest : Answers caller entries
        ((({ c with events := events } : Context L).charge 1).respond caller entry) c') :
      Answers caller (entry :: entries) c c'

/-- Code that cannot hand out matches hands out none. -/
theorem invoked_runEvents {drain : Context L → Nat × Context L}
    (code : Code L.Memory L.World L.Callback α) (c : Context L) :
    EventDeed.invoked (runEvents caller drain (fun _ => []) code c) = [] := by
  induction code generalizing c with
  | finish a => rfl
  | print text next ih => exact ih (c.report caller (.output text))
  | register name pattern callback next ih =>
    simp only [runEvents]
    cases c.events.register L.engine name pattern callback with
    | ok events => exact ih _ { c with events := events }
    | error e => exact ih _ c
  | unregister name next ih => exact ih _ { c with events := (c.events.unregister name).2 }
  | pending next ih => exact ih _ c
  | dispatchEvents next ih => exact ih _ _
  | consume steps next ih => exact ih (c.charge steps)
  | remaining next ih => exact ih _ c
  | request r next ih => exact ih (c.leave caller r)
  | «recall» next ih => exact ih _ c
  | store memory next ih => exact ih { c with memory := memory }
  | observe next ih => exact ih _ c
  | affect world next ih => exact ih { c with world := world }

/-- **The matches whose callbacks run** are those that a drain answers, each once. -/
theorem answers_drainWithin (bound : Nat) (c : Context L) :
    Answers caller (Thread.answeredWithin caller bound c) c (drainWithin caller bound c).2 := by
  induction bound generalizing c with
  | zero => exact .done c
  | succ bound ih =>
    unfold Thread.answeredWithin drainWithin
    cases hpop : c.events.pop? with
    | none => exact .done c
    | some popped => exact .next hpop (ih _)

/-- They are those that stand in the list of deeds. -/
theorem invoked_drainEventsWithin (bound : Nat) (c : Context L) :
    EventDeed.invoked (drainEventsWithin caller bound c) =
      Thread.answeredWithin caller bound c := by
  induction bound generalizing c with
  | zero => rfl
  | succ bound ih =>
    unfold drainEventsWithin Thread.answeredWithin
    cases hpop : c.events.pop? with
    | none => rfl
    | some popped =>
      obtain ⟨entry, events⟩ := popped
      let c' : Context L := ({ c with events := events } : Context L).charge 1
      have hnone : EventDeed.invoked (c'.respondEvents caller entry) = [] :=
        invoked_runEvents _ c'
      have hrest := ih (c'.respond caller entry)
      unfold EventDeed.invoked at hnone hrest ⊢
      rw [List.filterMap_append, List.filterMap_append, hnone, hrest]
      rfl

end Context

/-! ## The deeds of a service -/

namespace Thread

variable {t : Thread L} {now : Millis} {world : L.World}

/-- What a dispatch does to the events. -/
def dispatchEvents (t : Thread L) (now : Millis) (world : L.World) :
    List (EventDeed L.Callback) :=
  if t.isTerminated then []
  else if t.abandoned || t.state.isPaused || t.events.pending = 0 then []
  else (t.context world).drainEvents (t.caller now)

/-- What a resume does to the events. -/
def resumeEvents (t : Thread L) (now : Millis) (world : L.World) : List (EventDeed L.Callback) :=
  match t.script? with
  | none => []
  | some script =>
    let c := t.context world
    c.rowEvents (t.caller now) script c.budget.remaining

/-- What is done to the events behind a poll with an answer. -/
def afterPollEvents (now : Millis) (answer : Except Fault Bool) (t : Thread L)
    (world : L.World) : List (EventDeed L.Callback) :=
  match answer with
  | .ok true => t.resumeEvents now world
  | _ => []

/-- What is done to the events up to the poll. -/
def openingEvents (t : Thread L) (turbo : Nat) (dispatchFirst : Bool) (now : Millis)
    (world : L.World) : List (EventDeed L.Callback) :=
  if dispatchFirst then (t.beginTick turbo).dispatchEvents now world else []

/-- What a service does to the events. -/
def serviceEvents (t : Thread L) (turbo : Nat) (dispatchFirst : Bool) (now : Millis)
    (world : L.World) : List (EventDeed L.Callback) :=
  let first := t.opening turbo dispatchFirst now world
  let polled := first.thread.poll now first.world
  t.openingEvents turbo dispatchFirst now world ++
    afterPollEvents now polled.value polled.thread polled.world

open EventDeed

theorem traced_opening (t : Thread L) (turbo : Nat) (dispatchFirst : Bool) (now : Millis)
    (world : L.World) :
    Traced L.engine t.events (t.openingEvents turbo dispatchFirst now world)
      (t.opening turbo dispatchFirst now world).thread.events := by
  cases dispatchFirst with
  | false => exact .nil _ _
  | true =>
    show Traced L.engine (t.beginTick turbo).events ((t.beginTick turbo).dispatchEvents now world)
      ((t.beginTick turbo).dispatch now world).thread.events
    unfold dispatchEvents dispatch
    split
    · exact .nil _ _
    · split
      · exact .nil _ _
      · exact EventDeed.Traced.drain ((t.beginTick turbo).context world)

/-- A poll does nothing to the events. -/
theorem events_poll (t : Thread L) (now : Millis) (world : L.World) :
    (t.poll now world).thread.events = t.events := by
  unfold poll
  split
  · rfl
  · split <;> rfl

theorem traced_resume (t : Thread L) (now : Millis) (world : L.World) :
    Traced L.engine t.events (t.resumeEvents now world) (t.resume now world).thread.events := by
  unfold resumeEvents resume
  cases t.script? with
  | none => exact .nil _ _
  | some script =>
    have hrow : EventDeed.Traced L.engine (t.context world).events
        ((t.context world).rowEvents (t.caller now) script (t.context world).budget.remaining) _ :=
      .row script (t.context world).budget.remaining (t.context world)
    have hsettle : ∀ (t : Thread L) (last? : Option (StepEnd L.Condition)),
        (t.settle now last?).2.events = t.events := by
      intro t last?
      cases last? with
      | none => rfl
      | some ending => cases ending <;> rfl
    simp only [hsettle]
    exact hrow

theorem traced_afterPoll (t : Thread L) (now : Millis) (answer : Except Fault Bool)
    (world : L.World) :
    Traced L.engine t.events (afterPollEvents now answer t world)
      (t.afterPoll now answer world).thread.events := by
  match answer with
  | .error fault => exact .nil _ _
  | .ok false => exact .nil _ _
  | .ok true =>
    rw [(afterPoll_steps t now world).1]
    exact traced_resume t now world

/-- **A service is traced.** -/
theorem traced_service (t : Thread L) (turbo : Nat) (dispatchFirst : Bool) (now : Millis)
    (world : L.World) :
    Traced L.engine t.events (t.serviceEvents turbo dispatchFirst now world)
      (t.service turbo dispatchFirst now world).thread.events := by
  let first := t.opening turbo dispatchFirst now world
  let polled := first.thread.poll now first.world
  have hrest := traced_afterPoll polled.thread now polled.value polled.world
  rw [events_poll first.thread now first.world] at hrest
  exact (traced_opening t turbo dispatchFirst now world).append hrest

end Thread

/-! ## The law in the middle of a drain -/

/-- A context with a processor to which calls have been made. -/
def Context.behind (c : Context L) (limit? : Option Nat) (calls : List (EventCall L.Callback)) :
    Context L :=
  { c with events := (EventProcessor.empty limit?).after L.engine calls }

namespace EventProcessor

/-- The law holds behind a row of calls and more that are traced. -/
theorem law_of_traced {κ : Type} {engine : PatternEngine} {limit? : Option Nat}
    {calls : List (EventCall κ)} {deeds : List (EventDeed κ)} {p : EventProcessor κ}
    (h : EventDeed.Traced engine ((empty limit?).after engine calls) deeds p) :
    Law engine (calls ++ EventDeed.calls deeds) p := by
  rw [h.after, ← after_append]
  exact law engine limit? _

/-- **The law of a processor holds whoever makes the calls**: behind every row of calls, in a drain
behind any number of matches, and behind the code of a callback or of a script, which may register
and unregister events while matches wait. -/
theorem law_of_calls (limit? : Option Nat) :
    (∀ (engine : PatternEngine) (κ : Type) (calls : List (EventCall κ)),
      Law engine calls ((empty limit?).after engine calls)) ∧
      ∀ (L : Language) (calls : List (EventCall L.Callback)) (c : Context L) (caller : Caller),
        (∀ bound : Nat,
          Law L.engine (calls ++ EventDeed.calls
              (Context.drainEventsWithin caller bound (c.behind limit? calls)))
            (Context.drainWithin caller bound (c.behind limit? calls)).2.events) ∧
        ∀ (α : Type) (code : Code L.Memory L.World L.Callback α),
          Law L.engine (calls ++ EventDeed.calls (Context.runEvents caller Context.alreadyDraining
                (fun _ => []) code (c.behind limit? calls)))
              (Context.run caller Context.alreadyDraining code (c.behind limit? calls)).2.events ∧
            Law L.engine (calls ++ EventDeed.calls (Context.runEvents caller (Context.drain caller)
                (Context.drainEvents caller) code (c.behind limit? calls)))
              (Context.run caller (Context.drain caller) code
                (c.behind limit? calls)).2.events := by
  refine ⟨fun engine κ calls => law engine limit? calls,
    fun L calls c caller => ⟨fun bound => ?_, ?_⟩⟩
  · exact law_of_traced (EventDeed.Traced.drainWithin bound (c.behind limit? calls))
  · intro α code
    let c' := c.behind limit? calls
    exact ⟨law_of_traced (EventDeed.Traced.run (fun c => .nil _ c.events) code c'),
      law_of_traced (EventDeed.Traced.run EventDeed.Traced.drain code c')⟩

end EventProcessor

end Heartbeat

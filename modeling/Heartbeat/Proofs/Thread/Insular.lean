import Heartbeat.Proofs.Thread.Service

/-!
# Code that keeps to itself

Code can reach beyond its thread in two ways: it can change the world, and it can leave requests for
the scheduler. Code that leaves the world alone and asks for nothing but what it may ask for keeps
to this in all that a thread does with it.

* `Code.Asks`: the code asks for nothing but what it may ask for, and leaves the world alone.
* `Language.IsInsular`: the tame scripts of a language and all its callbacks are of this kind.
* `Context.Asked.run`, `drain`, `step`, `row`: such code keeps to itself.
* `Thread.kept_service`: so does a service of its thread.
-/

namespace Heartbeat

variable {L : Language}

/-- The request does not ask for a start. -/
def Request.IsCalm : Request → Prop
  | .run _ _ => False
  | _ => True

section Code

variable {M W K α : Type}

/-- The code asks for nothing but what it may ask for, and leaves the world alone. -/
def Code.Asks (may : Request → Prop) : Code M W K α → Prop
  | .finish _ => True
  | .print _ next => next.Asks may
  | .register _ _ _ next => ∀ answer, (next answer).Asks may
  | .unregister _ next => ∀ answer, (next answer).Asks may
  | .pending next => ∀ answer, (next answer).Asks may
  | .dispatchEvents next => ∀ answer, (next answer).Asks may
  | .consume _ next => next.Asks may
  | .remaining next => ∀ answer, (next answer).Asks may
  | .request r next => may r ∧ next.Asks may
  | .recall next => ∀ answer, (next answer).Asks may
  | .store _ next => next.Asks may
  | .observe next => ∀ answer, (next answer).Asks may
  | .affect _ _ => False

end Code

/-- The code of tame scripts, and of all callbacks, asks for nothing but what it may ask for and
leaves the world alone, and so do all conditions. -/
structure Language.IsInsular (L : Language) (may : Request → Prop) (tame : L.Script → Prop) :
    Prop where
  step : ∀ script caller, tame script → (L.step script caller).Asks may
  respond : ∀ callback captures caller, (L.respond callback captures caller).Asks may
  evaluate : ∀ condition here, (L.evaluate condition here).2.2 = here.2

namespace Context

variable {α : Type} {caller : Caller} {may : Request → Prop} {c c' c'' : Context L}

/-- Between two contexts the code kept to itself. -/
structure Asked (may : Request → Prop) (c c' : Context L) : Prop where
  world : c'.world = c.world
  requests : ∃ asked, c'.requests = c.requests ++ asked ∧ ∀ r ∈ asked, may r

namespace Asked

theorem of_same (hworld : c'.world = c.world) (hrequests : c'.requests = c.requests) :
    Asked may c c' :=
  ⟨hworld, [], hrequests.trans (List.append_nil _).symm, fun _ hr => absurd hr List.not_mem_nil⟩

theorem refl (c : Context L) : Asked may c c := of_same rfl rfl

theorem trans (h : Asked may c c') (h' : Asked may c' c'') : Asked may c c'' := by
  obtain ⟨asked, hc, hmay⟩ := h.requests
  obtain ⟨more, hc', hmore⟩ := h'.requests
  refine ⟨h'.world.trans h.world, asked ++ more, ?_, List.forall_mem_append.mpr ⟨hmay, hmore⟩⟩
  rw [hc', hc, List.append_assoc]

/-- Code that goes on in a context with the same world and the same requests. -/
theorem of_next {d : Context L} (h : Asked may d c') (hworld : d.world = c.world)
    (hrequests : d.requests = c.requests) : Asked may c c' :=
  (of_same hworld hrequests).trans h

theorem leave (c : Context L) {request : Request} (h : may request) :
    Asked may c (c.leave caller request) :=
  ⟨rfl, [request], rfl, fun _ hr => List.mem_singleton.mp hr ▸ h⟩

/-- Code that keeps to itself, as long as handing out matches does. -/
theorem run {drain : Context L → Nat × Context L} (hdrain : ∀ c, Asked may c (drain c).2)
    (code : Code L.Memory L.World L.Callback α) (hcode : code.Asks may) (c : Context L) :
    Asked may c (Context.run caller drain code c).2 := by
  induction code generalizing c with
  | finish a => exact refl c
  | print text next ih => exact (ih hcode (c.report caller (.output text))).of_next rfl rfl
  | register name pattern callback next ih =>
    simp only [Context.run]
    split
    · rename_i events _
      exact (ih _ (hcode _) { c with events := events }).of_next rfl rfl
    · exact ih _ (hcode _) c
  | unregister name next ih =>
    exact (ih _ (hcode _) { c with events := (c.events.unregister name).2 }).of_next rfl rfl
  | pending next ih => exact ih _ (hcode _) c
  | dispatchEvents next ih => exact (hdrain c).trans (ih _ (hcode _) _)
  | consume steps next ih => exact (ih hcode (c.charge steps)).of_next rfl rfl
  | remaining next ih => exact ih _ (hcode _) c
  | request r next ih => exact (leave c hcode.1).trans (ih hcode.2 _)
  | «recall» next ih => exact ih _ (hcode _) c
  | store memory next ih => exact (ih hcode { c with memory := memory }).of_next rfl rfl
  | observe next ih => exact ih _ (hcode _) c
  | affect world next ih => exact absurd hcode id

section Language

variable {tame : L.Script → Prop} (h : L.IsInsular may tame)

include h

theorem respond (entry : PendingEvent L.Callback) (c : Context L) :
    Asked may c (c.respond caller entry) := by
  have hcode : Asked may c (Context.run caller alreadyDraining
      (L.respond entry.definition.callback entry.captures caller) c).2 :=
    run refl _ (h.respond _ _ caller) c
  unfold Context.respond
  simp only
  split
  · rename_i hr
    rwa [hr] at hcode
  · rename_i hr
    rw [hr] at hcode
    exact hcode.trans (of_same rfl rfl)

theorem drainWithin (bound : Nat) (c : Context L) :
    Asked may c (Context.drainWithin caller bound c).2 := by
  induction bound generalizing c with
  | zero => exact refl c
  | succ bound ih =>
    unfold Context.drainWithin
    split
    · exact refl c
    · rename_i entry events _
      have hfirst : Asked may c
          ((({ c with events := events } : Context L).charge 1).respond caller entry) :=
        (respond h entry _).of_next rfl rfl
      exact hfirst.trans (ih _)

theorem drain (c : Context L) : Asked may c (c.drain caller).2 := drainWithin h _ c

variable {script : L.Script} (hscript : tame script)

include hscript

theorem step (c : Context L) : Asked may c (c.step caller script).2 :=
  (run (drain h) _ (h.step script caller hscript) (c.charge 1)).of_next rfl rfl

/-- A row of steps keeps to itself. -/
theorem row (bound : Nat) (c : Context L) :
    Asked may c (Thread.runSteps caller script bound c).2 := by
  induction bound generalizing c with
  | zero => exact refl c
  | succ bound ih =>
    have hstep : Asked may c (c.step caller script).2 := step h hscript c
    unfold Thread.runSteps
    split
    · exact refl c
    · rcases hs : c.step caller script with ⟨ending, c'⟩
      rw [hs] at hstep
      cases ending with
      | proceed => exact hstep.trans (ih c')
      | _ => exact hstep

end Language

end Asked

end Context

/-! ## Services -/

namespace Thread

variable {may : Request → Prop} {tame : L.Script → Prop} {t : Thread L} {now : Millis}
  {world : L.World} {α : Type}

/-- The script of the thread, if it goes on, is tame. -/
def Plays (tame : L.Script → Prop) (t : Thread L) : Prop :=
  ∀ script ∈ t.script?, tame script

/-- The thread kept to itself in what it did. -/
structure Kept (may : Request → Prop) (tame : L.Script → Prop) (world : L.World)
    (a : Activity L α) : Prop where
  world : a.world = world
  requests : ∀ r ∈ a.requests, may r
  plays : a.thread.Plays tame

theorem Kept.of_asked {c : Context L} (h : Context.Asked may (t.context world) c) {value : α}
    {t' : Thread L} (hplays : t'.Plays tame) :
    Kept may tame world ⟨value, t', c.world, c.status, c.requests⟩ := by
  obtain ⟨asked, hrequests, hmay⟩ := h.requests
  refine ⟨h.world, fun r hr => hmay r ?_, hplays⟩
  rwa [show c.requests = [] ++ asked from hrequests] at hr

theorem Kept.nothing {value : α} (hplays : t.Plays tame) :
    Kept may tame world ⟨value, t, world, [], []⟩ :=
  ⟨rfl, fun _ hr => absurd hr List.not_mem_nil, hplays⟩

section Language

variable (h : L.IsInsular may tame) (hplays : t.Plays tame)

include h hplays

theorem kept_dispatch (now : Millis) (world : L.World) :
    Kept may tame world (t.dispatch now world) := by
  unfold dispatch
  split
  · exact .nothing hplays
  · split
    · exact .nothing hplays
    · exact .of_asked (Context.Asked.drain h _) hplays

theorem kept_opening (turbo : Nat) (dispatchFirst : Bool) (now : Millis) (world : L.World) :
    Kept may tame world (t.opening turbo dispatchFirst now world) := by
  cases dispatchFirst with
  | false => exact .nothing (t := t.beginTick turbo) hplays
  | true =>
    have hkept := kept_dispatch h (t := t.beginTick turbo) hplays now world
    exact ⟨hkept.world, hkept.requests, hkept.plays⟩

theorem kept_polled {deeds : List (Deed L)} {a : Activity L (Except Fault Bool)}
    (hp : Polled t now world deeds a) : Kept may tame world a := by
  have hworld : ∀ {condition : L.Condition} {verdict : Verdict} {memory : L.Memory}
      {world' : L.World}, L.evaluate condition (t.memory, world) = (verdict, memory, world') →
      world' = world := by
    intro condition verdict memory world' heval
    have hsame := h.evaluate condition (t.memory, world)
    rw [heval] at hsame
    exact hsame
  cases hp with
  | running hs => exact .nothing hplays
  | paused hs => exact .nothing hplays
  | early hs hlt => exact .nothing hplays
  | elapsed hs hdue hcond => exact .nothing (t := { t with state := .running }) hplays
  | held hs hdue hcond heval =>
    exact hworld heval ▸ .nothing (t := { t with state := .running, memory := _ }) hplays
  | refused hs hdue hcond heval =>
    exact hworld heval ▸ .nothing (t := { t with memory := _ }) hplays
  | broke hs hdue hcond heval =>
    exact hworld heval ▸ .nothing (t := { t with memory := _, script? := none }) nofun

omit h in
theorem plays_settle (now : Millis) (last? : Option (StepEnd L.Condition)) :
    (t.settle now last?).2.Plays tame := by
  cases last? with
  | none => exact hplays
  | some ending =>
    cases ending with
    | proceed => exact hplays
    | wait millis condition? => exact hplays
    | done values => exact nofun
    | fault f => exact nofun
    | panicked text? => exact nofun

theorem kept_resume (now : Millis) (world : L.World) :
    Kept may tame world (t.resume now world) := by
  unfold resume
  split
  · exact .nothing hplays
  · rename_i script hscript
    let c := t.context world
    have hrow : Context.Asked may c
        (runSteps (t.caller now) script c.budget.remaining c).2 :=
      .row h (hplays script hscript) c.budget.remaining c
    exact .of_asked hrow (plays_settle (t := t.absorb _) hplays now _)

theorem kept_afterPoll (answer : Except Fault Bool) (now : Millis) (world : L.World) :
    Kept may tame world (t.afterPoll now answer world) := by
  match answer with
  | .error fault => exact .nothing hplays
  | .ok false => exact .nothing hplays
  | .ok true =>
    have hkept := kept_resume h hplays now world
    unfold afterPoll
    simp only
    split <;> exact ⟨hkept.world, hkept.requests, hkept.plays⟩

/-- **A service of a thread with a tame script keeps to itself**: it leaves the world alone, asks
for nothing but what it may ask for, and what is left of the script is tame. -/
theorem kept_service (hactive : t.isActive = true) (turbo : Nat) (dispatchFirst : Bool)
    (now : Millis) (world : L.World) :
    Kept may tame world (t.service turbo dispatchFirst now world) := by
  have hfirst := kept_opening h hplays turbo dispatchFirst now world
  obtain ⟨deeds, a, hp, hservice, -⟩ := serviced hactive turbo dispatchFirst now world
  have hpolled := kept_polled h hfirst.plays hp
  have hrest := kept_afterPoll h hpolled.plays a.value now a.world
  rw [hservice]
  exact ⟨hrest.world.trans (hpolled.world.trans hfirst.world),
    List.forall_mem_append.mpr
      ⟨List.forall_mem_append.mpr ⟨hfirst.requests, hpolled.requests⟩, hrest.requests⟩,
    hrest.plays⟩

end Language

end Thread

end Heartbeat

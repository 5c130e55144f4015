import Heartbeat.Proofs.Thread.Calls
import Heartbeat.Proofs.Thread.Toll

/-!
# Code at a desk

Code that asks for its waiting matches may be a callback that runs because of such a request. What
keeps this from going round in circles is a flag, which is up while matches are handed out; and a
callback that is running already would not be run once more, but reported. Here the flag and the
running callbacks are there to be seen: code runs at a desk, and the four relations below follow it
from action to action, without a bound on anything.

* `Context.act`: the first action of code; `act_induction` follows code from action to action.
* `Context.Thinned`: what code that cannot hand out matches does to those that wait.
* `Runs`, `DoesEvents`, `Loops`, `Invokes`: code, a request for the waiting matches, the loop over
  the queue, and a callback.
* `runs_desk_iff`, `doesEvents_iff`: they come to an end at every desk, at one end only, and do what
  `Context.run` and `Context.drain` do.
-/

namespace Heartbeat

variable {L : Language} {α : Type} {caller : Caller}

/-! ## The actions of code -/

namespace Context

variable {c c' : Context L} {code code' : Code L.Memory L.World L.Callback α}

/-- The first action of code, unless the code is at its end or asks for the waiting matches: the
code that is left, and the context behind the action. -/
def act (caller : Caller) : Code L.Memory L.World L.Callback α → Context L →
    Option (Code L.Memory L.World L.Callback α × Context L)
  | .finish _, _ => none
  | .print text next, c => some (next, c.report caller (.output text))
  | .register name pattern callback next, c =>
    match c.events.register L.engine name pattern callback with
    | .ok events => some (next none, { c with events := events })
    | .error e => some (next (some e), c)
  | .unregister name next, c =>
    some (next (c.events.unregister name).1,
      { c with events := (c.events.unregister name).2 })
  | .pending next, c => some (next c.events.pending, c)
  | .dispatchEvents _, _ => none
  | .consume steps next, c => some (next, c.charge steps)
  | .remaining next, c => some (next c.budget.remaining, c)
  | .request request next, c => some (next, c.leave caller request)
  | .recall next, c => some (next c.memory, c)
  | .store memory next, c => some (next, { c with memory := memory })
  | .observe next, c => some (next c.world, c)
  | .affect world next, c => some (next, { c with world := world })

/-- Code is at its end, or asks for the waiting matches, or has another action to make. -/
theorem act_induction {motive : Code L.Memory L.World L.Callback α → Context L → Prop}
    (caller : Caller) (finish : ∀ a c, motive (.finish a) c)
    (dispatchEvents : ∀ next c, (∀ count c', motive (next count) c') →
      motive (.dispatchEvents next) c)
    (act : ∀ code code' c c', act caller code c = some (code', c') → motive code' c' →
      motive code c)
    (code : Code L.Memory L.World L.Callback α) (c : Context L) : motive code c := by
  induction code generalizing c with
  | finish a => exact finish a c
  | print text next ih => exact act _ _ c _ rfl (ih _)
  | register name pattern callback next ih =>
    cases hregister : c.events.register L.engine name pattern callback with
    | ok events =>
      refine act _ (next none) c { c with events := events } ?_ (ih _ _)
      simp only [Context.act, hregister]
    | error e =>
      refine act _ (next (some e)) c c ?_ (ih _ _)
      simp only [Context.act, hregister]
  | unregister name next ih => exact act _ _ c _ rfl (ih _ _)
  | pending next ih => exact act _ _ c _ rfl (ih _ _)
  | dispatchEvents next ih => exact dispatchEvents next c ih
  | consume steps next ih => exact act _ _ c _ rfl (ih _)
  | remaining next ih => exact act _ _ c _ rfl (ih _ _)
  | request request next ih => exact act _ _ c _ rfl (ih _)
  | «recall» next ih => exact act _ _ c _ rfl (ih _ _)
  | store memory next ih => exact act _ _ c _ rfl (ih _)
  | observe next ih => exact act _ _ c _ rfl (ih _ _)
  | affect world next ih => exact act _ _ c _ rfl (ih _)

/-- Code goes on behind its first action. -/
theorem run_of_act (h : act caller code c = some (code', c'))
    (drain : Context L → Nat × Context L) :
    run caller drain code c = run caller drain code' c' := by
  cases code with
  | finish a => exact absurd h nofun
  | dispatchEvents next => exact absurd h nofun
  | register name pattern callback next =>
    simp only [act] at h
    simp only [run]
    cases hregister : c.events.register L.engine name pattern callback <;>
      · rw [hregister] at h
        cases h
        rfl
  | _ =>
    cases h
    rfl

end Context

/-! ## What code does to the waiting matches -/

/-- Whether a call registers or unregisters an event of this name. -/
def EventCall.concerns {κ : Type} (engine : PatternEngine) (name : String) (call : EventCall κ) :
    Bool :=
  call.defines engine name || call.removes name

namespace EventProcessor

variable {κ : Type} {engine : PatternEngine} {p p' : EventProcessor κ}

theorem queue_of_register {name pattern : String} {callback : κ}
    (h : p.register engine name pattern callback = .ok p') :
    (p'.queue = p.discard name ∨ p'.queue = p.queue) ∧
      (EventCall.register name pattern callback).concerns engine name = true := by
  have hdefine : ∀ d : EventDefinition κ,
      (p.define d).queue = p.discard d.name ∨ (p.define d).queue = p.queue := by
    intro d
    unfold define
    split
    · exact .inl rfl
    · exact .inr rfl
  unfold register at h
  unfold EventCall.concerns EventCall.defines EventCall.defined?
  cases hcompile : Pattern.compile engine pattern with
  | error e =>
    rw [hcompile] at h
    exact absurd h nofun
  | ok compiled =>
    rw [hcompile] at h
    cases h
    exact ⟨hdefine ⟨name, compiled, callback⟩, by simp [Except.toOption, hcompile]⟩

theorem queue_of_unregister (p : EventProcessor κ) (name : String) :
    (p.unregister name).2.queue = p.discard name ∨ (p.unregister name).2.queue = p.queue := by
  unfold unregister
  split
  · exact .inl rfl
  · exact .inr rfl

end EventProcessor

namespace Context

variable {c c' : Context L} {code code' : Code L.Memory L.World L.Callback α}
  {calls calls' : List (EventCall L.Callback)} {p p' p'' : EventProcessor L.Callback}

/-- Of the waiting matches some may be gone, by calls that concern their events; the others wait in
their order. -/
def Thinned (calls : List (EventCall L.Callback)) (p p' : EventProcessor L.Callback) : Prop :=
  ∃ keep : PendingEvent L.Callback → Bool, p'.queue.entries = p.queue.entries.filter keep ∧
    ∀ entry, keep entry = false → ∃ call ∈ calls, call.concerns L.engine entry.name = true

theorem Thinned.of_same (h : p'.queue = p.queue) : Thinned calls p p' := by
  refine ⟨fun _ => true, ?_, nofun⟩
  rw [h]
  exact (List.filter_true _).symm

theorem Thinned.of_discard {name : String} {call : EventCall L.Callback}
    (h : p'.queue = p.discard name ∨ p'.queue = p.queue)
    (hcall : call.concerns L.engine name = true) :
    Thinned [call] p p' := by
  rcases h with h | h
  · refine ⟨(·.name != name), congrArg EventQueue.entries h, fun entry hgone => ?_⟩
    have hname : entry.name = name := by simpa using hgone
    exact ⟨call, List.mem_singleton_self call, hname ▸ hcall⟩
  · exact .of_same h

theorem Thinned.trans (h : Thinned calls p p') (h' : Thinned calls' p' p'') :
    Thinned (calls ++ calls') p p'' := by
  obtain ⟨keep, hentries, hgone⟩ := h
  obtain ⟨keep', hentries', hgone'⟩ := h'
  refine ⟨fun entry => keep' entry && keep entry, ?_, fun entry hboth => ?_⟩
  · rw [hentries', hentries, List.filter_filter]
  · rcases Bool.and_eq_false_iff.mp hboth with h | h
    · obtain ⟨call, hcall, hname⟩ := hgone' entry h
      exact ⟨call, List.mem_append_right _ hcall, hname⟩
    · obtain ⟨call, hcall, hname⟩ := hgone entry h
      exact ⟨call, List.mem_append_left _ hcall, hname⟩

/-- The calls that the first action of code makes to the events. -/
def actCalls : Code L.Memory L.World L.Callback α → List (EventCall L.Callback)
  | .register name pattern callback _ => [.register name pattern callback]
  | .unregister name _ => [.unregister name]
  | _ => []

theorem calls_of_act (h : act caller code c = some (code', c'))
    (drain : Context L → Nat × Context L) :
    EventDeed.calls (runEvents caller drain (fun _ => []) code c) =
      actCalls code ++ EventDeed.calls (runEvents caller drain (fun _ => []) code' c') := by
  cases code with
  | finish a => exact absurd h nofun
  | dispatchEvents next => exact absurd h nofun
  | register name pattern callback next =>
    simp only [act] at h
    simp only [runEvents]
    cases hregister : c.events.register L.engine name pattern callback <;>
      · rw [hregister] at h
        cases h
        rfl
  | _ =>
    cases h
    rfl

theorem thinned_act (h : act caller code c = some (code', c')) :
    Thinned (actCalls code) c.events c'.events := by
  cases code with
  | finish a => exact absurd h nofun
  | dispatchEvents next => exact absurd h nofun
  | register name pattern callback next =>
    simp only [act] at h
    cases hregister : c.events.register L.engine name pattern callback with
    | error e =>
      rw [hregister] at h
      cases h
      exact .of_same rfl
    | ok events =>
      rw [hregister] at h
      cases h
      obtain ⟨hqueue, hcall⟩ := EventProcessor.queue_of_register hregister
      exact .of_discard hqueue hcall
  | unregister name next =>
    cases h
    exact .of_discard (c.events.queue_of_unregister name)
      (by simp [EventCall.concerns, EventCall.removes])
  | _ =>
    cases h
    exact .of_same rfl

theorem thinned_run (code : Code L.Memory L.World L.Callback α) (c : Context L) :
    Thinned (EventDeed.calls (runEvents caller alreadyDraining (fun _ => []) code c)) c.events
      (run caller alreadyDraining code c).2.events := by
  induction code, c using act_induction caller with
  | finish a c => exact .of_same rfl
  | dispatchEvents next c ih => exact ih 0 c
  | act code code' c c' hact ih =>
    rw [run_of_act hact, calls_of_act hact]
    exact (thinned_act hact).trans ih

end Context

/-! ## Desks -/

/-- Where code runs: its context, the flag that is up while matches are handed out, and the events
whose callbacks are running. -/
structure Desk (L : Language) where
  context : Context L
  draining : Bool
  running : List (EventDefinition L.Callback)

/-- A desk at which no match is being handed out. -/
def Context.desk (c : Context L) : Desk L := ⟨c, false, []⟩

/-- What is said of a callback that is running already when its turn comes. -/
def CallbackFault.alreadyRunning : CallbackFault := .failed "callback is already running"

/-- A match whose turn came, the context in which its callback starts, and how the callback ended;
it has no end if it was running already and was not run. -/
structure Handout (L : Language) where
  entry : PendingEvent L.Callback
  start : Context L
  ending? : Option CallbackEnd

namespace Handout

/-- What went wrong with the callback. -/
def fault? (h : Handout L) : Option CallbackFault :=
  match h.ending? with
  | none => some .alreadyRunning
  | some .success => none
  | some (.fault fault) => some fault

/-- The news that the callback went wrong. -/
def notice? (caller : Caller) (h : Handout L) : Option StatusEvent :=
  h.fault?.map fun fault => .thread caller.pid caller.name (.callbackFaulted h.entry.name fault)

end Handout

/-- The context in which the callback of a match starts: the match is taken, and a step charged. -/
def Context.take (c : Context L) (events : EventProcessor L.Callback) : Context L :=
  ({ c with events := events } : Context L).charge 1

/-- Runs the callback of a match, which cannot hand out matches itself. -/
def Context.answer (caller : Caller) (c : Context L) (entry : PendingEvent L.Callback) :
    CallbackEnd × Context L :=
  run caller alreadyDraining (L.respond entry.definition.callback entry.captures caller) c

/-- Reports a callback that went wrong. -/
def Context.noted (caller : Caller) (c : Context L) (h : Handout L) : Context L :=
  match h.fault? with
  | none => c
  | some fault => c.report caller (.callbackFaulted h.entry.name fault)

mutual

/-- **Code runs at a desk** to its end, action by action. -/
inductive Runs (caller : Caller) :
    {α : Type} → Code L.Memory L.World L.Callback α → Desk L → α → Desk L → Prop
  | finish {α : Type} (a : α) (d : Desk L) : Runs caller (.finish a) d a d
  | act {α : Type} {code code' : Code L.Memory L.World L.Callback α} {a : α} {d d' : Desk L}
      {c' : Context L} (hact : Context.act caller code d.context = some (code', c'))
      (hrest : Runs caller code' { d with context := c' } a d') : Runs caller code d a d'
  | dispatchEvents {α : Type} {next : Nat → Code L.Memory L.World L.Callback α} {a : α}
      {log : List (Handout L)} {count : Nat} {d d' d'' : Desk L}
      (hdoes : DoesEvents caller d log count d') (hrest : Runs caller (next count) d' a d'') :
      Runs caller (.dispatchEvents next) d a d''

/-- **The waiting matches are asked for.** While the flag is up nothing is done; otherwise it is up
until the loop over the queue is over. -/
inductive DoesEvents (caller : Caller) : Desk L → List (Handout L) → Nat → Desk L → Prop
  | nested {d : Desk L} (hflag : d.draining = true) : DoesEvents caller d [] 0 d
  | outermost {d d' : Desk L} {log : List (Handout L)} {count : Nat}
      (hflag : d.draining = false) (hloop : Loops caller { d with draining := true } log count d') :
      DoesEvents caller d log count { d' with draining := false }

/-- **The loop over the queue**: as long as there is a match, the oldest one is taken, a step is
charged, its callback is run, and reported if it goes wrong. -/
inductive Loops (caller : Caller) : Desk L → List (Handout L) → Nat → Desk L → Prop
  | done {d : Desk L} (hpop : d.context.events.pop? = none) : Loops caller d [] 0 d
  | next {d d' d'' : Desk L} {entry : PendingEvent L.Callback}
      {events : EventProcessor L.Callback} {ending? : Option CallbackEnd}
      {log : List (Handout L)} {count : Nat}
      (hpop : d.context.events.pop? = some (entry, events))
      (hinvoke : Invokes caller { d with context := d.context.take events } entry ending? d')
      (hrest : Loops caller
        { d' with context := d'.context.noted caller ⟨entry, d.context.take events, ending?⟩ }
        log count d'') :
      Loops caller d (⟨entry, d.context.take events, ending?⟩ :: log) (count + 1) d''

/-- **A callback is run**, unless it is running already. -/
inductive Invokes (caller : Caller) :
    Desk L → PendingEvent L.Callback → Option CallbackEnd → Desk L → Prop
  | busy {d : Desk L} {entry : PendingEvent L.Callback} (hbusy : entry.definition ∈ d.running) :
      Invokes caller d entry none d
  | ran {d d' : Desk L} {entry : PendingEvent L.Callback} {ending : CallbackEnd}
      (hfree : entry.definition ∉ d.running)
      (hrun : Runs caller (L.respond entry.definition.callback entry.captures caller)
        { d with running := entry.definition :: d.running } ending d') :
      Invokes caller d entry (some ending) { d' with running := d'.running.tail }

end

/-! ## What the relations come to -/

section Runs

variable {draining : Bool} {running : List (EventDefinition L.Callback)}
  {drain : Context L → Nat × Context L}

/-- **Code comes to one end, and leaves the flag and the running callbacks as they are**, if what it
gets when it asks for the waiting matches does. -/
theorem runs_iff
    (hdrain : ∀ c count d', (∃ log, DoesEvents caller ⟨c, draining, running⟩ log count d') ↔
      count = (drain c).1 ∧ d' = ⟨(drain c).2, draining, running⟩)
    (code : Code L.Memory L.World L.Callback α) (c : Context L) (a : α) (d' : Desk L) :
    Runs caller code ⟨c, draining, running⟩ a d' ↔
      a = (Context.run caller drain code c).1 ∧
        d' = ⟨(Context.run caller drain code c).2, draining, running⟩ := by
  induction code, c using Context.act_induction caller generalizing a d' with
  | finish b c =>
    constructor
    · intro h
      cases h with
      | finish => exact ⟨rfl, rfl⟩
      | act hact _ => exact absurd hact nofun
    · rintro ⟨rfl, rfl⟩
      exact .finish _ _
  | dispatchEvents next c ih =>
    constructor
    · intro h
      cases h with
      | dispatchEvents hdoes hrest =>
        obtain ⟨rfl, rfl⟩ := (hdrain _ _ _).mp ⟨_, hdoes⟩
        exact (ih _ _ a d').mp hrest
      | act hact _ => exact absurd hact nofun
    · intro h
      obtain ⟨log, hdoes⟩ := (hdrain c _ _).mpr ⟨rfl, rfl⟩
      exact .dispatchEvents hdoes ((ih _ _ a d').mpr h)
  | act code code' c c' hact ih =>
    rw [Context.run_of_act hact drain, ← ih]
    constructor
    · intro h
      cases h with
      | finish => exact absurd hact nofun
      | dispatchEvents => exact absurd hact nofun
      | act hact' hrest =>
        obtain ⟨rfl, rfl⟩ := Prod.mk.inj (Option.some.inj (hact.symm.trans hact'))
        exact hrest
    · exact fun h => .act hact h

end Runs

/-- While matches are handed out, code that asks for more gets none. -/
theorem doesEvents_of_draining {d d' : Desk L} {log : List (Handout L)} {count : Nat}
    (hflag : d.draining = true) :
    DoesEvents caller d log count d' ↔ log = [] ∧ count = 0 ∧ d' = d := by
  constructor
  · intro h
    cases h with
    | nested => exact ⟨rfl, rfl, rfl⟩
    | outermost hdown => exact absurd (hflag.symm.trans hdown) nofun
  · rintro ⟨rfl, rfl, rfl⟩
    exact .nested hflag

/-- A callback runs to its end, if it is not running already, and leaves the flag up. -/
theorem invokes_iff {c : Context L} {entry : PendingEvent L.Callback}
    {ending? : Option CallbackEnd} {d' : Desk L} :
    Invokes caller ⟨c, true, []⟩ entry ending? d' ↔
      ending? = some (c.answer caller entry).1 ∧ d' = ⟨(c.answer caller entry).2, true, []⟩ := by
  have hnested : ∀ (c : Context L) count d',
      (∃ log, DoesEvents caller ⟨c, true, [entry.definition]⟩ log count d') ↔
        count = c.alreadyDraining.1 ∧ d' = ⟨c.alreadyDraining.2, true, [entry.definition]⟩ := by
    intro c count d'
    simp only [doesEvents_of_draining, Context.alreadyDraining, exists_eq_left]
  have hrun := runs_iff hnested (L.respond entry.definition.callback entry.captures caller) c
  constructor
  · intro h
    cases h with
    | busy hbusy => exact absurd hbusy List.not_mem_nil
    | ran hfree hruns =>
      obtain ⟨rfl, rfl⟩ := (hrun _ _).mp hruns
      exact ⟨rfl, rfl⟩
  · rintro ⟨rfl, rfl⟩
    exact Invokes.ran (d := ⟨c, true, []⟩) List.not_mem_nil ((hrun _ _).mpr ⟨rfl, rfl⟩)

namespace Context

/-- The matches that a drain hands out, at most `bound` of them. -/
def handouts (caller : Caller) : Nat → Context L → List (Handout L)
  | 0, _ => []
  | bound + 1, c =>
    match c.events.pop? with
    | none => []
    | some (entry, events) =>
      ⟨entry, c.take events, some ((c.take events).answer caller entry).1⟩ ::
        handouts caller bound ((c.take events).respond caller entry)

section Unfold

variable {c : Context L} {entry : PendingEvent L.Callback} {events : EventProcessor L.Callback}

theorem handouts_of_idle (hpop : c.events.pop? = none) (bound : Nat) :
    c.handouts caller bound = [] := by
  cases bound with
  | zero => rfl
  | succ bound =>
    unfold handouts
    rw [hpop]

theorem drainWithin_of_idle (hpop : c.events.pop? = none) (bound : Nat) :
    c.drainWithin caller bound = (0, c) := by
  cases bound with
  | zero => rfl
  | succ bound =>
    unfold drainWithin
    rw [hpop]

theorem handouts_of_pop (hpop : c.events.pop? = some (entry, events)) (bound : Nat) :
    c.handouts caller (bound + 1) =
      ⟨entry, c.take events, some ((c.take events).answer caller entry).1⟩ ::
        ((c.take events).respond caller entry).handouts caller bound := by
  rw [handouts, hpop]

theorem drainWithin_of_pop (hpop : c.events.pop? = some (entry, events)) (bound : Nat) :
    c.drainWithin caller (bound + 1) =
      ((((c.take events).respond caller entry).drainWithin caller bound).1 + 1,
        (((c.take events).respond caller entry).drainWithin caller bound).2) := by
  rw [drainWithin, hpop]
  rfl

end Unfold

theorem respond_eq (caller : Caller) (entry : PendingEvent L.Callback) (c : Context L) :
    c.respond caller entry =
      (c.answer caller entry).2.noted caller ⟨entry, c, some (c.answer caller entry).1⟩ := by
  unfold respond answer noted Handout.fault?
  simp only
  split
  · rename_i hr
    rw [hr]
  · rename_i hr
    rw [hr]

@[simp] theorem events_noted (caller : Caller) (c : Context L) (h : Handout L) :
    (c.noted caller h).events = c.events := by
  unfold noted
  split <;> rfl

/-- No callback adds to the waiting matches, or changes their order. -/
theorem thinned_respond (caller : Caller) (entry : PendingEvent L.Callback) (c : Context L) :
    Thinned (EventDeed.calls (c.respondEvents caller entry)) c.events
      (c.respond caller entry).events := by
  rw [respond_eq, events_noted]
  exact thinned_run _ c

theorem pending_respond_le (caller : Caller) (entry : PendingEvent L.Callback) (c : Context L) :
    (c.respond caller entry).events.pending ≤ c.events.pending := by
  obtain ⟨keep, hentries, -⟩ := thinned_respond caller entry c
  show (c.respond caller entry).events.queue.entries.length ≤ _
  rw [hentries]
  exact List.length_filter_le _ _

theorem pop?_eq_none {c : Context L} : c.events.pop? = none ↔ c.events.pending = 0 := by
  unfold EventProcessor.pop? EventQueue.pop? EventProcessor.pending EventQueue.size
  cases c.events.queue.entries with
  | nil => exact ⟨fun _ => rfl, fun _ => rfl⟩
  | cons entry rest => exact ⟨nofun, nofun⟩

theorem entries_take {c : Context L} {entry : PendingEvent L.Callback}
    {events : EventProcessor L.Callback} (h : c.events.pop? = some (entry, events)) :
    c.events.queue.entries = entry :: (c.take events).events.queue.entries := by
  unfold EventProcessor.pop? EventQueue.pop? at h
  cases hentries : c.events.queue.entries with
  | nil =>
    rw [hentries] at h
    exact absurd h nofun
  | cons first rest =>
    rw [hentries] at h
    cases h
    rfl

theorem pending_take {c : Context L} {entry : PendingEvent L.Callback}
    {events : EventProcessor L.Callback} (h : c.events.pop? = some (entry, events)) :
    c.events.pending = (c.take events).events.pending + 1 :=
  congrArg List.length (entries_take h)

/-- Every handout leaves fewer matches behind. -/
theorem pending_next_le (caller : Caller) {c : Context L} {entry : PendingEvent L.Callback}
    {events : EventProcessor L.Callback} (hpop : c.events.pop? = some (entry, events))
    {bound : Nat} (hbound : c.events.pending ≤ bound + 1) :
    ((c.take events).respond caller entry).events.pending ≤ bound := by
  have hless := pending_respond_le caller entry (c.take events)
  have htake := pending_take hpop
  omega

end Context

/-- Where no match waits, the loop is over. -/
theorem loops_of_idle {d d' : Desk L} {log : List (Handout L)} {count : Nat}
    (hpop : d.context.events.pop? = none) :
    Loops caller d log count d' ↔ log = [] ∧ count = 0 ∧ d' = d := by
  constructor
  · intro h
    cases h with
    | done => exact ⟨rfl, rfl, rfl⟩
    | next hpop' => exact absurd (hpop.symm.trans hpop') nofun
  · rintro ⟨rfl, rfl, rfl⟩
    exact .done hpop

/-- Where a match waits, its callback runs, and the loop goes on. -/
theorem loops_of_pop {c : Context L} {entry : PendingEvent L.Callback}
    {events : EventProcessor L.Callback} (hpop : c.events.pop? = some (entry, events))
    {log : List (Handout L)} {count : Nat} {d' : Desk L} :
    Loops caller ⟨c, true, []⟩ log count d' ↔ ∃ log' count',
      log = ⟨entry, c.take events, some ((c.take events).answer caller entry).1⟩ :: log' ∧
        count = count' + 1 ∧
        Loops caller ⟨(c.take events).respond caller entry, true, []⟩ log' count' d' := by
  rw [Context.respond_eq]
  constructor
  · intro h
    cases h with
    | done hnone => exact absurd (hpop.symm.trans hnone) nofun
    | next hpop' hinvoke hrest =>
      obtain ⟨rfl, rfl⟩ := Prod.mk.inj (Option.some.inj (hpop.symm.trans hpop'))
      obtain ⟨rfl, rfl⟩ := invokes_iff.mp hinvoke
      exact ⟨_, _, rfl, rfl, hrest⟩
  · rintro ⟨log', count', rfl, rfl, hrest⟩
    exact Loops.next (d := ⟨c, true, []⟩) hpop (invokes_iff.mpr ⟨rfl, rfl⟩) hrest

/-- **The loop over the queue comes to one end**, if the bound is not below the number of waiting
matches. -/
theorem loops_iff {bound : Nat} {c : Context L} (hbound : c.events.pending ≤ bound)
    {log : List (Handout L)} {count : Nat} {d' : Desk L} :
    Loops caller ⟨c, true, []⟩ log count d' ↔
      log = c.handouts caller bound ∧ count = (c.drainWithin caller bound).1 ∧
        d' = ⟨(c.drainWithin caller bound).2, true, []⟩ := by
  induction bound generalizing c log count d' with
  | zero => exact loops_of_idle (Context.pop?_eq_none.mpr (Nat.le_zero.mp hbound))
  | succ bound ih =>
    rcases hpop : c.events.pop? with _ | ⟨entry, events⟩
    · rw [Context.handouts_of_idle hpop, Context.drainWithin_of_idle hpop]
      exact loops_of_idle hpop
    · have hless := Context.pending_next_le caller hpop hbound
      rw [Context.handouts_of_pop hpop, Context.drainWithin_of_pop hpop, loops_of_pop hpop]
      simp only [ih hless]
      constructor
      · rintro ⟨_, _, rfl, rfl, rfl, rfl, rfl⟩
        exact ⟨rfl, rfl, rfl⟩
      · rintro ⟨rfl, rfl, rfl⟩
        exact ⟨_, _, rfl, rfl, rfl, rfl, rfl⟩

/-- **An outermost request for the waiting matches comes to one end**, with the flag down and no
callback running, and does what a drain does. -/
theorem doesEvents_iff {c : Context L} {log : List (Handout L)} {count : Nat} {d' : Desk L} :
    DoesEvents caller c.desk log count d' ↔
      log = c.handouts caller c.events.pending ∧ count = (c.drain caller).1 ∧
        d' = (c.drain caller).2.desk := by
  have hloop := @loops_iff L caller c.events.pending c (Nat.le_refl _)
  constructor
  · intro h
    cases h with
    | nested hflag => exact absurd hflag nofun
    | outermost hflag hloops =>
      obtain ⟨rfl, rfl, rfl⟩ := hloop.mp hloops
      exact ⟨rfl, rfl, rfl⟩
  · rintro ⟨rfl, rfl, rfl⟩
    exact DoesEvents.outermost (d := c.desk) rfl (hloop.mpr ⟨rfl, rfl, rfl⟩)

/-- The code of a step comes to one end, with the flag down and no callback running. -/
theorem runs_desk_iff {code : Code L.Memory L.World L.Callback α} {c : Context L} {a : α}
    {d' : Desk L} :
    Runs caller code c.desk a d' ↔
      a = (Context.run caller (Context.drain caller) code c).1 ∧
        d' = (Context.run caller (Context.drain caller) code c).2.desk := by
  refine runs_iff (fun c count d' => ?_) code c a d'
  constructor
  · rintro ⟨log, h⟩
    exact (doesEvents_iff.mp h).2
  · intro h
    exact ⟨_, doesEvents_iff.mpr ⟨rfl, h⟩⟩

end Heartbeat

import Heartbeat.Proofs.Thread.Life
import Heartbeat.Proofs.Thread.Talk
import Mathlib.Logic.Function.Iterate

/-!
# What the service of a thread does

A service has three parts: the opening with the callbacks of waiting matches, the poll, and the
steps. Beside each part stands the list of what the code of the thread does in it, and all parts
obey one law, `Stage`: the thread keeps its identity, it is paused behind the part iff it was
before, its code only talks, and its deeds are a piece of its life.

* `serviceDeeds`: what the code does in a service.
* `length_answeredWithin`, `runSteps_snd`: the deeds are those that are done.
* `stage_service`: the law for the whole service.
* `ends_service`: a service reports an end iff the script has ended in it.
* `service_of_paused`: the service of a paused thread only renews its allowance, which is none.
-/

namespace Heartbeat

namespace Thread

variable {L : Language} {t t' t'' : Thread L} {now : Millis} {world : L.World}

/-! ## What code does -/

/-- The matches that `Context.drainWithin` hands out. -/
def answeredWithin (caller : Caller) : Nat → Context L → List (PendingEvent L.Callback)
  | 0, _ => []
  | bound + 1, c =>
    match c.events.pop? with
    | none => []
    | some (entry, events) =>
      entry :: answeredWithin caller bound
        ((({ c with events := events } : Context L).charge 1).respond caller entry)

/-- The ends of the steps that `runSteps` makes. -/
def stepsWithin (caller : Caller) (script : L.Script) :
    Nat → Context L → List (StepEnd L.Condition)
  | 0, _ => []
  | bound + 1, c =>
    if c.budget.isExhausted then []
    else
      match c.step caller script with
      | (.proceed, c) => .proceed :: stepsWithin caller script bound c
      | (last, _) => [last]

/-- What the code does in a dispatch. -/
def dispatchDeeds (t : Thread L) (now : Millis) (world : L.World) : List (Deed L) :=
  if t.isTerminated then []
  else if t.abandoned || t.state.isPaused || t.events.pending = 0 then []
  else (answeredWithin (t.caller now) t.events.pending (t.context world)).map .answered

/-- What the code does in a poll. -/
def pollDeeds (t : Thread L) (now : Millis) (world : L.World) : List (Deed L) :=
  if !t.isActive then []
  else
    match t.state with
    | .delayed wait =>
      if now < wait.deadline then []
      else
        match wait.condition? with
        | none => [.elapsed]
        | some condition => [.looked condition (L.evaluate condition (t.memory, world)).1]
    | _ => []

/-- What the code does in a resume. -/
def resumeDeeds (t : Thread L) (now : Millis) (world : L.World) : List (Deed L) :=
  match t.script? with
  | none => []
  | some script =>
    let c := t.context world
    (stepsWithin (t.caller now) script c.budget.remaining c).map .stepped

/-- What the code does behind a poll with an answer. -/
def afterPollDeeds (now : Millis) (answer : Except Fault Bool) (t : Thread L) (world : L.World) :
    List (Deed L) :=
  match answer with
  | .ok true => t.resumeDeeds now world
  | _ => []

/-- A service up to the poll: a fresh allowance, and the waiting matches if they are to be handed
out now. -/
def opening (t : Thread L) (turbo : Nat) (dispatchFirst : Bool) (now : Millis) (world : L.World) :
    Activity L Unit :=
  let t := t.beginTick turbo
  if dispatchFirst then { t.dispatch now world with value := () } else ⟨(), t, world, [], []⟩

/-- What the code does up to the poll. -/
def openingDeeds (t : Thread L) (turbo : Nat) (dispatchFirst : Bool) (now : Millis)
    (world : L.World) : List (Deed L) :=
  if dispatchFirst then (t.beginTick turbo).dispatchDeeds now world else []

/-- What the code does in a service. -/
def serviceDeeds (t : Thread L) (turbo : Nat) (dispatchFirst : Bool) (now : Millis)
    (world : L.World) : List (Deed L) :=
  let first := t.opening turbo dispatchFirst now world
  let polled := first.thread.poll now first.world
  t.openingDeeds turbo dispatchFirst now world ++ first.thread.pollDeeds now first.world ++
    afterPollDeeds now polled.value polled.thread polled.world

/-- As many matches are handed out as the drain counts. -/
theorem length_answeredWithin (caller : Caller) (bound : Nat) (c : Context L) :
    (answeredWithin caller bound c).length = (Context.drainWithin caller bound c).1 := by
  induction bound generalizing c with
  | zero => rfl
  | succ bound ih =>
    simp only [answeredWithin, Context.drainWithin]
    cases hpop : c.events.pop? with
    | none => rfl
    | some popped =>
      obtain ⟨entry, events⟩ := popped
      simp only [List.length_cons]
      rw [ih]

/-- The listed steps are the steps that are made: the context is that many steps on. -/
theorem runSteps_snd (caller : Caller) (script : L.Script) (bound : Nat) (c : Context L) :
    (runSteps caller script bound c).2 =
      (fun c => (c.step caller script).2)^[(stepsWithin caller script bound c).length] c := by
  induction bound generalizing c with
  | zero => rfl
  | succ bound ih =>
    unfold runSteps stepsWithin
    split
    · rfl
    · rcases hstep : c.step caller script with ⟨ending, c'⟩
      cases ending with
      | proceed =>
        simp only [List.length_cons, Function.iterate_succ_apply, hstep]
        exact ih c'
      | wait millis condition? => exact (congrArg Prod.snd hstep).symm
      | done values => exact (congrArg Prod.snd hstep).symm
      | fault f => exact (congrArg Prod.snd hstep).symm
      | panicked text? => exact (congrArg Prod.snd hstep).symm

/-- Every step but the last one proceeds, and the last one is the one that the row ends with. -/
theorem stepsWithin_eq (caller : Caller) (script : L.Script) (bound : Nat) (c : Context L) :
    ∃ k, stepsWithin caller script bound c =
      List.replicate k .proceed ++ (runSteps caller script bound c).1.toList := by
  induction bound generalizing c with
  | zero => exact ⟨0, rfl⟩
  | succ bound ih =>
    unfold stepsWithin runSteps
    split
    · exact ⟨0, rfl⟩
    · rcases c.step caller script with ⟨ending, c'⟩
      cases ending with
      | proceed =>
        obtain ⟨k, hk⟩ := ih c'
        refine ⟨k + 1, ?_⟩
        simp only
        rw [hk]
        rfl
      | wait millis condition? => exact ⟨0, rfl⟩
      | done values => exact ⟨0, rfl⟩
      | fault f => exact ⟨0, rfl⟩
      | panicked text? => exact ⟨0, rfl⟩

theorem runSteps_ne_proceed (caller : Caller) (script : L.Script) (bound : Nat) (c : Context L) :
    (runSteps caller script bound c).1 ≠ some .proceed := by
  induction bound generalizing c with
  | zero =>
    intro h
    cases h
  | succ bound ih =>
    unfold runSteps
    split
    · intro h
      cases h
    · rcases c.step caller script with ⟨ending, c'⟩
      cases ending with
      | proceed => exact ih c'
      | wait millis condition? =>
        intro h
        cases h
      | done values =>
        intro h
        cases h
      | fault f =>
        intro h
        cases h
      | panicked text? =>
        intro h
        cases h

/-! ## The law of the parts -/

/-- What identifies a thread is the same, and the mark for stopping too. -/
structure Alike (t t' : Thread L) : Prop where
  pid : t'.pid = t.pid
  name : t'.name = t.name
  path : t'.path = t.path
  args : t'.args = t.args
  abandoned : t'.abandoned = t.abandoned

theorem Alike.refl (t : Thread L) : Alike t t := ⟨rfl, rfl, rfl, rfl, rfl⟩

theorem Alike.trans (h : Alike t t') (h' : Alike t' t'') : Alike t t'' where
  pid := h'.pid.trans h.pid
  name := h'.name.trans h.name
  path := h'.path.trans h.path
  args := h'.args.trans h.args
  abandoned := h'.abandoned.trans h.abandoned

/-- The acts of a thread whose code does something at a time. -/
def actsOf (now : Millis) (deeds : List (Deed L)) : List (Millis × Act L) :=
  deeds.map fun deed => (now, .did deed)

theorem actsOf_append (deeds deeds' : List (Deed L)) :
    actsOf now (deeds ++ deeds') = actsOf now deeds ++ actsOf now deeds' :=
  List.map_append

/-- **The law of every part of a service.** -/
structure Stage (now : Millis) (t : Thread L) (deeds : List (Deed L)) (t' : Thread L)
    (status : List StatusEvent) : Prop where
  alike : Alike t t'
  paused : t'.state.isPaused = t.state.isPaused
  talk : ∃ talk : List ThreadReport, (∀ r ∈ talk, r.isTalk = true) ∧
    status = talk.map (StatusEvent.thread t.pid t.name)
  life : Life.Run t.life (actsOf now deeds) t'.life

namespace Stage

variable {deeds deeds' : List (Deed L)} {status status' : List StatusEvent}

theorem refl (t : Thread L) : Stage now t [] t [] :=
  ⟨.refl t, rfl, ⟨[], fun _ hr => absurd hr List.not_mem_nil, rfl⟩, .nil _⟩

theorem trans (h : Stage now t deeds t' status) (h' : Stage now t' deeds' t'' status') :
    Stage now t (deeds ++ deeds') t'' (status ++ status') where
  alike := h.alike.trans h'.alike
  paused := h'.paused.trans h.paused
  talk := by
    obtain ⟨talk, htalk, hs⟩ := h.talk
    obtain ⟨more, hmore, hs'⟩ := h'.talk
    refine ⟨talk ++ more, fun r hr => ?_, ?_⟩
    · rcases List.mem_append.mp hr with hr | hr
      · exact htalk r hr
      · exact hmore r hr
    · rw [hs, hs', h.alike.pid, h.alike.name, List.map_append]
  life := by
    rw [actsOf_append]
    exact h.life.append h'.life

end Stage

/-- The talk of code that starts without news. -/
theorem talk_of_talks {c : Context L}
    (h : Context.Talks (t.caller now) (t.context world) c) :
    ∃ talk : List ThreadReport, (∀ r ∈ talk, r.isTalk = true) ∧
      c.status = talk.map (StatusEvent.thread t.pid t.name) := by
  obtain ⟨talk, htalk, hc⟩ := h
  exact ⟨talk, htalk, hc.trans (List.nil_append _)⟩

theorem life_of_active (h : t.isActive = true) : t.life = .awake t.state := if_pos h

theorem life_of_terminated (h : t.isTerminated = true) : t.life = .finished := by
  unfold life isActive
  rw [h, Bool.not_true, Bool.and_false]
  exact if_neg Bool.false_ne_true

theorem not_abandoned_of_active (h : t.isActive = true) : t.abandoned = false := by
  unfold isActive at h
  rw [Bool.and_eq_true, Bool.not_eq_true'] at h
  exact h.1

theorem not_terminated_of_active (h : t.isActive = true) : t.isTerminated = false := by
  unfold isActive at h
  rw [Bool.and_eq_true, Bool.not_eq_true', Bool.not_eq_true'] at h
  exact h.2

theorem script_of_active (h : t.isActive = true) : ∃ script, t.script? = some script := by
  have hscript := not_terminated_of_active h
  unfold isTerminated at hscript
  cases hs : t.script? with
  | none => rw [hs] at hscript; exact absurd hscript (by simp)
  | some script => exact ⟨script, rfl⟩

/-! ## The opening -/

/-- Answering matches is a piece of the life of a thread that is not paused. -/
theorem run_answered {state : ExecutionState L.Condition} (h : state.isPaused = false)
    (entries : List (PendingEvent L.Callback)) :
    Life.Run (.awake state) (actsOf now (entries.map .answered)) (.awake state) := by
  induction entries with
  | nil => exact .nil _
  | cons entry entries ih => exact .cons (.answered entry h) ih

/-- A dispatch of an active thread hands out nothing, or the thread is not paused and all matches
are handed out. -/
theorem dispatch_of_active (h : t.isActive = true) (now : Millis) (world : L.World) :
    (t.dispatch now world = ⟨.ok 0, t, world, [], []⟩ ∧ t.dispatchDeeds now world = []) ∨
      t.state.isPaused = false ∧
        t.dispatch now world =
          t.activity (.ok ((t.context world).drain (t.caller now)).1)
            ((t.context world).drain (t.caller now)).2 ∧
        t.dispatchDeeds now world =
          (answeredWithin (t.caller now) t.events.pending (t.context world)).map .answered := by
  have hterm : ¬ t.isTerminated = true := by
    rw [not_terminated_of_active h]; exact Bool.false_ne_true
  unfold dispatch dispatchDeeds
  rw [if_neg hterm, if_neg hterm]
  by_cases hclosed : (t.abandoned || t.state.isPaused || decide (t.events.pending = 0)) = true
  · rw [if_pos hclosed, if_pos hclosed]
    exact .inl ⟨rfl, rfl⟩
  · rw [if_neg hclosed, if_neg hclosed]
    simp only [Bool.or_eq_true, not_or, Bool.not_eq_true] at hclosed
    exact .inr ⟨hclosed.1.2, rfl, rfl⟩

theorem stage_dispatch (h : t.isActive = true) :
    Stage now t (t.dispatchDeeds now world) (t.dispatch now world).thread
      (t.dispatch now world).status := by
  rcases dispatch_of_active h now world with ⟨heq, hd⟩ | ⟨hawake, heq, hd⟩
  · rw [heq, hd]
    exact .refl t
  · rw [heq, hd]
    refine ⟨⟨rfl, rfl, rfl, rfl, rfl⟩, rfl, talk_of_talks (.drain _), ?_⟩
    show Life.Run t.life _ t.life
    rw [life_of_active h]
    exact run_answered hawake _

theorem stage_beginTick (t : Thread L) (turbo : Nat) : Stage now t [] (t.beginTick turbo) [] :=
  ⟨⟨rfl, rfl, rfl, rfl, rfl⟩, rfl, ⟨[], fun _ hr => absurd hr List.not_mem_nil, rfl⟩, .nil _⟩

theorem stage_opening (h : t.isActive = true) (turbo : Nat) (dispatchFirst : Bool) (now : Millis)
    (world : L.World) :
    Stage now t (t.openingDeeds turbo dispatchFirst now world)
      (t.opening turbo dispatchFirst now world).thread
      (t.opening turbo dispatchFirst now world).status := by
  have hactive : (t.beginTick turbo).isActive = true := h
  cases dispatchFirst with
  | false => exact stage_beginTick t turbo
  | true => exact (stage_beginTick t turbo).trans (stage_dispatch hactive)

/-- Callbacks change neither the state of their thread nor whether it is active. -/
theorem opening_state (h : t.isActive = true) (turbo : Nat) (dispatchFirst : Bool) (now : Millis)
    (world : L.World) :
    (t.opening turbo dispatchFirst now world).thread.state = t.state ∧
      (t.opening turbo dispatchFirst now world).thread.isActive = true := by
  have hactive : (t.beginTick turbo).isActive = true := h
  cases dispatchFirst with
  | false => exact ⟨rfl, h⟩
  | true =>
    show ((t.beginTick turbo).dispatch now world).thread.state = _ ∧
      ((t.beginTick turbo).dispatch now world).thread.isActive = true
    rcases dispatch_of_active hactive now world with ⟨heq, -⟩ | ⟨-, heq, -⟩
    · rw [heq]
      exact ⟨rfl, h⟩
    · rw [heq]
      exact ⟨rfl, h⟩

/-! ## The poll -/

/-- **What a poll comes to**, with what is done in it. -/
inductive Polled (t : Thread L) (now : Millis) (world : L.World) :
    List (Deed L) → Activity L (Except Fault Bool) → Prop
  | running (h : t.state = .running) : Polled t now world [] ⟨.ok true, t, world, [], []⟩
  | paused (h : t.state.isPaused = true) : Polled t now world [] ⟨.ok false, t, world, [], []⟩
  | early {wait : Wait L.Condition} (h : t.state = .delayed wait) (hlt : now < wait.deadline) :
      Polled t now world [] ⟨.ok false, t, world, [], []⟩
  | elapsed {wait : Wait L.Condition} (h : t.state = .delayed wait) (hdue : wait.deadline ≤ now)
      (hcond : wait.condition? = none) :
      Polled t now world [.elapsed] ⟨.ok true, { t with state := .running }, world, [], []⟩
  | held {wait : Wait L.Condition} {condition : L.Condition} {memory : L.Memory} {world' : L.World}
      (h : t.state = .delayed wait) (hdue : wait.deadline ≤ now)
      (hcond : wait.condition? = some condition)
      (heval : L.evaluate condition (t.memory, world) = (.known true, memory, world')) :
      Polled t now world [.looked condition (.known true)]
        ⟨.ok true, { t with state := .running, memory := memory }, world', [], []⟩
  | refused {wait : Wait L.Condition} {condition : L.Condition} {memory : L.Memory}
      {world' : L.World} (h : t.state = .delayed wait) (hdue : wait.deadline ≤ now)
      (hcond : wait.condition? = some condition)
      (heval : L.evaluate condition (t.memory, world) = (.known false, memory, world')) :
      Polled t now world [.looked condition (.known false)]
        ⟨.ok false, { t with memory := memory }, world', [], []⟩
  | broke {wait : Wait L.Condition} {condition : L.Condition} {memory : L.Memory}
      {world' : L.World} {text? : Option String} (h : t.state = .delayed wait)
      (hdue : wait.deadline ≤ now) (hcond : wait.condition? = some condition)
      (heval : L.evaluate condition (t.memory, world) = (.panicked text?, memory, world')) :
      Polled t now world [.looked condition (.panicked text?)]
        ⟨.error (.ofCondition text?), { t with memory := memory, script? := none }, world', [], []⟩

theorem polled (h : t.isActive = true) (now : Millis) (world : L.World) :
    Polled t now world (t.pollDeeds now world) (t.poll now world) := by
  have hact : ¬ (!t.isActive) = true := by rw [h]; exact Bool.false_ne_true
  unfold pollDeeds poll
  rw [if_neg hact, if_neg hact]
  cases hs : t.state with
  | running =>
    simp only [ExecutionState.poll]
    rw [← hs]
    exact .running hs
  | paused saved? =>
    simp only [ExecutionState.poll]
    rw [← hs]
    exact .paused (by rw [hs]; rfl)
  | delayed wait =>
    simp only [ExecutionState.poll]
    by_cases hlt : now < wait.deadline
    · rw [if_pos hlt, if_pos hlt]
      simp only
      rw [← hs]
      exact .early hs hlt
    · rw [if_neg hlt, if_neg hlt]
      have hdue : wait.deadline ≤ now := Nat.le_of_not_lt hlt
      cases hc : wait.condition? with
      | none => exact .elapsed hs hdue hc
      | some condition =>
        rcases he : L.evaluate condition (t.memory, world) with ⟨verdict, memory, world'⟩
        simp only [he]
        cases verdict with
        | known holds =>
          cases holds with
          | true => exact .held hs hdue hc he
          | false =>
            simp only
            rw [← hs]
            exact .refused hs hdue hc he
        | panicked text? =>
          simp only
          rw [← hs]
          exact .broke hs hdue hc he

theorem stage_polled {deeds : List (Deed L)} {a : Activity L (Except Fault Bool)}
    (h : t.isActive = true) (hp : Polled t now world deeds a) :
    Stage now t deeds a.thread a.status := by
  have hlife := life_of_active h
  have hsilent : ∃ talk : List ThreadReport, (∀ r ∈ talk, r.isTalk = true) ∧
      ([] : List StatusEvent) = talk.map (StatusEvent.thread t.pid t.name) :=
    ⟨[], fun _ hr => absurd hr List.not_mem_nil, rfl⟩
  have hwoken : ∀ (memory : L.Memory),
      ({ t with state := .running, memory := memory } : Thread L).life = .awake .running :=
    fun memory => life_of_active (t := { t with state := .running, memory := memory }) h
  cases hp with
  | running hs => exact .refl t
  | paused hs => exact .refl t
  | early hs hlt => exact .refl t
  | elapsed hs hdue hcond =>
    refine ⟨⟨rfl, rfl, rfl, rfl, rfl⟩, by rw [hs]; rfl, hsilent, ?_⟩
    rw [hlife, hs]
    exact hwoken t.memory ▸ .single (.elapsed hdue hcond)
  | held hs hdue hcond heval =>
    refine ⟨⟨rfl, rfl, rfl, rfl, rfl⟩, by rw [hs]; rfl, hsilent, ?_⟩
    rw [hlife, hs]
    exact hwoken _ ▸ .single (.held hdue hcond)
  | refused hs hdue hcond heval =>
    refine ⟨⟨rfl, rfl, rfl, rfl, rfl⟩, rfl, hsilent, ?_⟩
    show Life.Run t.life _ t.life
    rw [hlife, hs]
    exact .single (.refused hdue hcond)
  | broke hs hdue hcond heval =>
    refine ⟨⟨rfl, rfl, rfl, rfl, rfl⟩, rfl, hsilent, ?_⟩
    rw [hlife, hs, life_of_terminated rfl]
    exact .single (.broke _ hdue hcond)

/-! ## The steps -/

/-- Steps that proceed leave a running thread running. -/
theorem run_proceed (now : Millis) (k : Nat) :
    Life.Run (.awake .running)
      (actsOf (L := L) now ((List.replicate k StepEnd.proceed).map .stepped))
      (.awake .running) := by
  induction k with
  | zero => exact .nil _
  | succ k ih => exact .cons .proceeded ih

/-- A running thread is resumed: its steps, and what the last one means for it. -/
theorem resume_eq {script : L.Script} (hscript : t.script? = some script) (now : Millis)
    (world : L.World) :
    ∃ last? c, t.resume now world =
        ⟨.ok ((t.absorb c).settle now last?).1, ((t.absorb c).settle now last?).2, c.world,
          c.status, c.requests⟩ ∧
      Context.Talks (t.caller now) (t.context world) c ∧ last? ≠ some .proceed ∧
      ∃ k, t.resumeDeeds now world =
        (List.replicate k StepEnd.proceed ++ last?.toList).map .stepped := by
  have htalks := Context.Talks.runSteps (t.caller now) script (t.context world).budget.remaining
    (t.context world)
  have hne := runSteps_ne_proceed (t.caller now) script (t.context world).budget.remaining
    (t.context world)
  obtain ⟨k, hk⟩ := stepsWithin_eq (t.caller now) script (t.context world).budget.remaining
    (t.context world)
  unfold resume resumeDeeds
  simp only [hscript]
  exact ⟨_, _, rfl, htalks, hne, k, congrArg _ hk⟩

theorem stage_resume (h : t.isActive = true) (hrun : t.state = .running) :
    Stage now t (t.resumeDeeds now world) (t.resume now world).thread
      (t.resume now world).status := by
  obtain ⟨script, hscript⟩ := script_of_active h
  obtain ⟨last?, c, heq, htalks, hne, k, hk⟩ := resume_eq hscript now world
  have hlife : (t.absorb c).life = .awake .running := by
    have habsorb : (t.absorb c).life = .awake t.state := life_of_active (t := t.absorb c) h
    rw [habsorb, hrun]
  have hproceed := run_proceed (L := L) now k
  rw [heq, hk, List.map_append]
  have hsettle : Alike t ((t.absorb c).settle now last?).2 ∧
      ((t.absorb c).settle now last?).2.state.isPaused = t.state.isPaused ∧
      Life.Run (.awake .running) (actsOf now (last?.toList.map .stepped))
        ((t.absorb c).settle now last?).2.life := by
    cases last? with
    | none => exact ⟨⟨rfl, rfl, rfl, rfl, rfl⟩, rfl, hlife ▸ .nil _⟩
    | some ending =>
      cases ending with
      | proceed => exact absurd rfl hne
      | wait millis condition? =>
        refine ⟨⟨rfl, rfl, rfl, rfl, rfl⟩, by rw [hrun]; rfl, ?_⟩
        have hwait : ((t.absorb c).settle now (some (.wait millis condition?))).2.life =
            .awake (.delay now millis condition?) := life_of_active (t := { t.absorb c with
              state := .delay now millis condition? }) h
        exact hwait ▸ .single (.waited millis condition?)
      | done values =>
        refine ⟨⟨rfl, rfl, rfl, rfl, rfl⟩, rfl, ?_⟩
        rw [life_of_terminated (t := ((t.absorb c).settle now (some (.done values))).2) rfl]
        exact .single (.ended rfl)
      | fault f =>
        refine ⟨⟨rfl, rfl, rfl, rfl, rfl⟩, rfl, ?_⟩
        rw [life_of_terminated (t := ((t.absorb c).settle now (some (.fault f))).2) rfl]
        exact .single (.ended rfl)
      | panicked text? =>
        refine ⟨⟨rfl, rfl, rfl, rfl, rfl⟩, rfl, ?_⟩
        rw [life_of_terminated (t := ((t.absorb c).settle now (some (.panicked text?))).2) rfl]
        exact .single (.ended rfl)
  obtain ⟨halike, hpaused, hrest⟩ := hsettle
  refine ⟨halike, hpaused, talk_of_talks htalks, ?_⟩
  -- the steps that proceed, and behind them the last one
  rw [actsOf_append, life_of_active h, hrun]
  exact hproceed.append hrest

/-! ## The whole service -/

/-- What comes behind a poll that gave way to the steps. -/
theorem afterPoll_steps (t : Thread L) (now : Millis) (world : L.World) :
    (t.afterPoll now (.ok true) world).thread = (t.resume now world).thread ∧
      (t.afterPoll now (.ok true) world).status = (t.resume now world).status := by
  unfold afterPoll
  simp only
  split <;> exact ⟨rfl, rfl⟩

theorem stage_afterPoll {deeds : List (Deed L)} {a : Activity L (Except Fault Bool)}
    (h : t.isActive = true) (hp : Polled t now world deeds a) :
    Stage now a.thread (afterPollDeeds now a.value a.thread a.world)
      (a.thread.afterPoll now a.value a.world).thread
      (a.thread.afterPoll now a.value a.world).status := by
  have hsteps : ∀ {t : Thread L} {world : L.World}, t.isActive = true → t.state = .running →
      Stage now t (t.resumeDeeds now world) (t.afterPoll now (.ok true) world).thread
        (t.afterPoll now (.ok true) world).status := by
    intro t world h hrun
    obtain ⟨hthread, hstatus⟩ := afterPoll_steps t now world
    rw [hthread, hstatus]
    exact stage_resume h hrun
  cases hp with
  | running hs => exact hsteps h hs
  | paused hs => exact .refl t
  | early hs hlt => exact .refl t
  | elapsed hs hdue hcond => exact hsteps (t := { t with state := .running }) h rfl
  | held hs hdue hcond heval =>
    exact hsteps (t := { t with state := .running, memory := _ }) h rfl
  | refused hs hdue hcond heval => exact .refl _
  | broke hs hdue hcond heval => exact .refl _

/-- **A service has three parts**: the opening, the poll, and what comes behind the answer of the
poll. -/
theorem serviced (h : t.isActive = true) (turbo : Nat) (dispatchFirst : Bool) (now : Millis)
    (world : L.World) :
    ∃ deeds a, Polled (t.opening turbo dispatchFirst now world).thread now
        (t.opening turbo dispatchFirst now world).world deeds a ∧
      t.service turbo dispatchFirst now world =
        (((t.opening turbo dispatchFirst now world).andThen fun _ _ _ => a).andThen
          fun answer t world => t.afterPoll now answer world) ∧
      t.serviceDeeds turbo dispatchFirst now world =
        t.openingDeeds turbo dispatchFirst now world ++ deeds ++
          afterPollDeeds now a.value a.thread a.world :=
  ⟨_, _, polled (opening_state h turbo dispatchFirst now world).2 now _, rfl, rfl⟩

/-- **A service of an active thread obeys the law of its parts.** -/
theorem stage_service (h : t.isActive = true) (turbo : Nat) (dispatchFirst : Bool) (now : Millis)
    (world : L.World) :
    Stage now t (t.serviceDeeds turbo dispatchFirst now world)
      (t.service turbo dispatchFirst now world).thread
      (t.service turbo dispatchFirst now world).status := by
  have hfirst := stage_opening h turbo dispatchFirst now world
  have hactive := (opening_state h turbo dispatchFirst now world).2
  obtain ⟨deeds, a, hp, hservice, hdeeds⟩ := serviced h turbo dispatchFirst now world
  rw [hservice, hdeeds]
  exact (hfirst.trans (stage_polled hactive hp)).trans (stage_afterPoll hactive hp)

/-- What a service says of the script agrees with whether the script has ended. -/
def Ends (outcome : ServiceOutcome) (t : Thread L) : Prop :=
  match outcome with
  | .resumed (.finished outcome) => t.isTerminated = true ∧ outcome ≠ .stopped
  | _ => t.isTerminated = false

theorem ends_afterPoll_steps (h : t.isActive = true) :
    Ends (t.afterPoll now (.ok true) world).value (t.afterPoll now (.ok true) world).thread := by
  obtain ⟨script, hscript⟩ := script_of_active h
  obtain ⟨last?, c, heq, -, hne, -⟩ := resume_eq hscript now world
  have hterm : (t.absorb c).isTerminated = false := not_terminated_of_active (t := t.absorb c) h
  rw [(afterPoll_steps t now world).1]
  unfold afterPoll
  simp only [heq]
  cases last? with
  | none => exact hterm
  | some ending =>
    cases ending with
    | proceed => exact absurd rfl hne
    | wait millis condition? => exact hterm
    | done values => exact ⟨rfl, nofun⟩
    | fault f => exact ⟨rfl, nofun⟩
    | panicked text? => exact ⟨rfl, nofun⟩

/-- **A service reports an end iff the script has ended in it**, and never a stop. -/
theorem ends_service (h : t.isActive = true) (turbo : Nat) (dispatchFirst : Bool) (now : Millis)
    (world : L.World) :
    Ends (t.service turbo dispatchFirst now world).value
      (t.service turbo dispatchFirst now world).thread := by
  have hactive := (opening_state h turbo dispatchFirst now world).2
  obtain ⟨deeds, a, hp, hservice, -⟩ := serviced h turbo dispatchFirst now world
  rw [hservice]
  cases hp with
  | running hs => exact ends_afterPoll_steps hactive
  | paused hs => exact not_terminated_of_active hactive
  | early hs hlt => exact not_terminated_of_active hactive
  | elapsed hs hdue hcond =>
    exact ends_afterPoll_steps (t := { (t.opening turbo dispatchFirst now world).thread with
      state := .running }) hactive
  | held hs hdue hcond heval =>
    exact ends_afterPoll_steps (t := { (t.opening turbo dispatchFirst now world).thread with
      state := .running, memory := _ }) hactive
  | refused hs hdue hcond heval =>
    exact not_terminated_of_active (t := { (t.opening turbo dispatchFirst now world).thread with
      memory := _ }) hactive
  | broke hs hdue hcond heval => exact ⟨rfl, nofun⟩

theorem opening_of_paused (h : t.isActive = true) (hpaused : t.state.isPaused = true) (turbo : Nat)
    (dispatchFirst : Bool) (now : Millis) (world : L.World) :
    t.opening turbo dispatchFirst now world = ⟨(), t.beginTick turbo, world, [], []⟩ ∧
      t.openingDeeds turbo dispatchFirst now world = [] := by
  have hactive : (t.beginTick turbo).isActive = true := h
  cases dispatchFirst with
  | false => exact ⟨rfl, rfl⟩
  | true =>
    unfold opening openingDeeds
    rcases dispatch_of_active hactive now world with ⟨heq, hd⟩ | ⟨hawake, -⟩
    · simp only [if_true, heq, hd, and_self]
    · have hpaused' : (t.beginTick turbo).state.isPaused = true := hpaused
      exact absurd (hpaused'.symm.trans hawake) nofun

theorem polled_of_paused {deeds : List (Deed L)} {a : Activity L (Except Fault Bool)}
    (hpaused : t.state.isPaused = true) (hp : Polled t now world deeds a) :
    deeds = [] ∧ a = ⟨.ok false, t, world, [], []⟩ := by
  have hnot : ∀ {wait : Wait L.Condition}, t.state ≠ .delayed wait := fun hs => by
    rw [hs] at hpaused
    exact absurd hpaused nofun
  cases hp with
  | paused hs => exact ⟨rfl, rfl⟩
  | running hs =>
    rw [hs] at hpaused
    exact absurd hpaused nofun
  | early hs hlt => exact absurd hs hnot
  | elapsed hs hdue hcond => exact absurd hs hnot
  | held hs hdue hcond heval => exact absurd hs hnot
  | refused hs hdue hcond heval => exact absurd hs hnot
  | broke hs hdue hcond heval => exact absurd hs hnot

/-- **A paused thread is serviced in name only**: it gets an allowance of no steps, and nothing is
run. -/
theorem service_of_paused (h : t.isActive = true) (hpaused : t.state.isPaused = true) (turbo : Nat)
    (dispatchFirst : Bool) (now : Millis) (world : L.World) :
    t.service turbo dispatchFirst now world =
        ⟨.notEligible, t.beginTick turbo, world, [], []⟩ ∧
      t.serviceDeeds turbo dispatchFirst now world = [] := by
  obtain ⟨hfirst, hquiet⟩ := opening_of_paused h hpaused turbo dispatchFirst now world
  obtain ⟨deeds, a, hp, hservice, hdeeds⟩ := serviced h turbo dispatchFirst now world
  rw [hfirst] at hp hservice
  obtain ⟨rfl, rfl⟩ := polled_of_paused (t := t.beginTick turbo) hpaused hp
  rw [hservice, hdeeds, hquiet]
  exact ⟨rfl, rfl⟩

end Thread

end Heartbeat

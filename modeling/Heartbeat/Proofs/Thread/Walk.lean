import Heartbeat.Proofs.Thread.Steady
import Heartbeat.Proofs.Scheduler.Slot

/-!
# A script on its own way

A steady script to which no line is fed makes the same steps, whatever heartbeats it gets: those
that it would make one after another without a scheduler. A service takes its thread some steps
further on this way.

* `Walk.after`, `Walk.ending`: where the script is after so many steps, and how the next one ends.
* `Walk.Stands`: a number of steps after which the script goes on, or has ended.
* `Walk.said_prefix`: what is printed on a shorter way is printed on a longer one first.
* `Walk.carries_service`: a service takes a thread further on the way.
-/

namespace Heartbeat

variable {L : Language}

/-- The outcome of a script whose last step ends like this; a step that ends otherwise is not the
last one. -/
def StepEnd.outcome? {C : Type} : StepEnd C → Option ThreadOutcome
  | .proceed | .wait _ _ => none
  | .done values => some (.exited values)
  | .fault f => some (.errored f)
  | .panicked text? => some (.errored (.ofPanic text?))

/-- A script that makes its steps one after another. -/
structure Walk (L : Language) where
  caller : Caller
  script : L.Script
  world : L.World

namespace Walk

variable {w : Walk L} {k k' : Nat} {caller : Caller} {c : Context L} {t : Thread L} {now : Millis}
  {world : L.World} {outcome outcome' : ThreadOutcome}

/-- Where the script begins. -/
def first (w : Walk L) : Context L := ⟨.empty none, {}, L.boot w.script, w.world, [], []⟩

/-- Where the script is after so many steps. -/
def after (w : Walk L) (k : Nat) : Context L :=
  (fun c => (c.step w.caller w.script).2)^[k] w.first

/-- How the step ends that comes after so many. -/
def ending (w : Walk L) (k : Nat) : StepEnd L.Condition :=
  ((w.after k).step w.caller w.script).1

theorem after_succ (w : Walk L) (k : Nat) :
    w.after (k + 1) = ((w.after k).step w.caller w.script).2 :=
  Function.iterate_succ_apply' _ k w.first

/-- The script has not ended in so many steps. -/
def Open (w : Walk L) (k : Nat) : Prop := ∀ i < k, (w.ending i).outcome? = none

/-- The script goes on after so many steps, or it has ended with the last one of them. -/
inductive Stands (w : Walk L) : Nat → Option ThreadOutcome → Prop
  | going {k : Nat} (hopen : w.Open k) : Stands w k none
  | ended {k : Nat} {outcome : ThreadOutcome} (hopen : w.Open k)
      (hend : (w.ending k).outcome? = some outcome) : Stands w (k + 1) (some outcome)

theorem Open.succ (h : w.Open k) (hend : (w.ending k).outcome? = none) : w.Open (k + 1) := by
  intro i hi
  rcases Nat.lt_succ_iff_lt_or_eq.mp hi with hi | rfl
  · exact h i hi
  · exact hend

/-- A thread of the script is so many steps on. -/
structure Follows (w : Walk L) (k : Nat) (t : Thread L) : Prop where
  caller : t.caller w.caller.now = w.caller
  memory : t.memory = (w.after k).memory
  definitions : t.events.definitions = (w.after k).events.definitions
  idle : t.events.pending = 0

/-- Nothing else of the thread matters. -/
theorem Follows.congr {t' : Thread L} (h : w.Follows k t)
    (hcaller : t'.caller w.caller.now = t.caller w.caller.now) (hmemory : t'.memory = t.memory)
    (hevents : t'.events = t.events) : w.Follows k t' where
  caller := hcaller.trans h.caller
  memory := hmemory.trans h.memory
  definitions := hevents ▸ h.definitions
  idle := hevents ▸ h.idle

/-- A script ends in one way. -/
theorem Stands.unique (h : w.Stands k (some outcome)) (h' : w.Stands k' (some outcome')) :
    k = k' ∧ outcome = outcome' := by
  cases h with
  | @ended i _ hopen hend =>
    cases h' with
    | @ended j _ hopen' hend' =>
      obtain rfl : i = j := by
        rcases Nat.lt_trichotomy i j with hlt | rfl | hlt
        · exact absurd ((hopen' i hlt).symm.trans hend) nofun
        · rfl
        · exact absurd ((hopen j hlt).symm.trans hend') nofun
      exact ⟨rfl, Option.some.inj (hend.symm.trans hend')⟩

theorem Stands.open (h : w.Stands k none) : w.Open k := by
  cases h with
  | going hopen => exact hopen

/-- A script that ends on its way is not stopped. -/
theorem Stands.ne_stopped (h : w.Stands k (some outcome)) : outcome ≠ .stopped := by
  rintro rfl
  cases h with
  | @ended i _ hopen hend =>
    cases hlast : w.ending i with
    | proceed | wait | done | fault | panicked =>
      rw [hlast] at hend
      exact absurd hend nofun

section Steady

variable (h : L.IsSteady)

include h

theorem idle_after (w : Walk L) (k : Nat) : (w.after k).events.pending = 0 := by
  induction k with
  | zero => rfl
  | succ k ih =>
    rw [after_succ]
    exact (Context.Abreast.step h w.caller w.caller.now w.script ⟨rfl, rfl, ih, ih⟩).2.agrees.idle

/-- What is printed on the way. -/
theorem exists_prints (w : Walk L) (k : Nat) :
    ∃ texts, (w.after (k + 1)).status =
      (w.after k).status ++ Context.prints w.caller texts := by
  have hidle := w.idle_after h k
  obtain ⟨-, texts, hsaid, -⟩ := (Context.Abreast.step h w.caller w.caller.now w.script
    ⟨rfl, rfl, hidle, hidle⟩).2
  exact ⟨texts, (congrArg Context.status (w.after_succ k)).trans hsaid⟩

/-- **What is printed on a shorter way is printed on a longer one first.** -/
theorem said_prefix (w : Walk L) (hle : k ≤ k') : (w.after k).status <+: (w.after k').status := by
  induction hle with
  | refl => exact List.prefix_rfl
  | step _ ih =>
    obtain ⟨texts, htexts⟩ := w.exists_prints h _
    exact ih.trans ⟨_, htexts.symm⟩

/-! ## Rows of steps -/

/-- A row of steps takes a context further on the way. -/
theorem row (hcaller : { caller with now := w.caller.now } = w.caller) (bound : Nat)
    (hopen : w.Open k) (hagrees : Context.Agrees c (w.after k)) :
    ∃ k', Context.Abreast caller c (w.after k)
        (Thread.runSteps caller w.script bound c).2 (w.after k') ∧
      w.Stands k' ((Thread.runSteps caller w.script bound c).1.bind StepEnd.outcome?) := by
  induction bound generalizing c k with
  | zero => exact ⟨k, .refl hagrees, .going hopen⟩
  | succ bound ih =>
    obtain ⟨hend, hstep⟩ := Context.Abreast.step h caller w.caller.now w.script hagrees
    rw [hcaller, ← w.after_succ k] at hstep
    rw [hcaller] at hend
    change _ = w.ending k at hend
    unfold Thread.runSteps
    split
    · exact ⟨k, .refl hagrees, .going hopen⟩
    · rcases hs : c.step caller w.script with ⟨ending, c'⟩
      rw [hs] at hend hstep
      have hopen' : ending.outcome? = none → w.Open (k + 1) := fun he => hopen.succ (hend ▸ he)
      cases ending with
      | proceed =>
        obtain ⟨k', hrest, hstands⟩ := ih (hopen' rfl) hstep.agrees
        exact ⟨k', hstep.trans hrest, hstands⟩
      | wait millis condition? => exact ⟨k + 1, hstep, .going (hopen' rfl)⟩
      | done values => exact ⟨k + 1, hstep, .ended hopen (hend ▸ rfl)⟩
      | fault f => exact ⟨k + 1, hstep, .ended hopen (hend ▸ rfl)⟩
      | panicked text? => exact ⟨k + 1, hstep, .ended hopen (hend ▸ rfl)⟩

end Steady

/-! ## Services -/

theorem Follows.agrees (hf : w.Follows k t) (h : L.IsSteady) (world : L.World) :
    Context.Agrees (t.context world) (w.after k) :=
  ⟨hf.memory, hf.definitions, hf.idle, w.idle_after h k⟩

/-- A dispatch hands out nothing where no match waits. -/
theorem dispatch_of_idle (hidle : t.events.pending = 0) (now : Millis) (world : L.World) :
    ∃ value, t.dispatch now world = ⟨value, t, world, [], []⟩ := by
  unfold Thread.dispatch
  split
  · exact ⟨_, rfl⟩
  · rw [if_pos (Bool.or_eq_true_iff.mpr (.inr (decide_eq_true hidle)))]
    exact ⟨_, rfl⟩

theorem opening_of_idle (hidle : t.events.pending = 0) (turbo : Nat) (dispatchFirst : Bool)
    (now : Millis) (world : L.World) :
    t.opening turbo dispatchFirst now world = ⟨(), t.beginTick turbo, world, [], []⟩ := by
  cases dispatchFirst with
  | false => rfl
  | true =>
    obtain ⟨value, hsame⟩ := dispatch_of_idle (t := t.beginTick turbo) hidle now world
    show ({ (t.beginTick turbo).dispatch now world with value := () } : Activity L Unit) = _
    rw [hsame]

/-- **What a service comes to** for a thread on its way: the thread is some steps further, and its
script has ended with the last one or goes on. -/
structure Carries (w : Walk L) (k : Nat) (a : Activity L Thread.ServiceOutcome) : Prop where
  way : ∃ k', w.Stands k' a.value.end? ∧ w.Follows k' a.thread ∧
    (w.after k').status = (w.after k).status ++ a.status
  script : a.thread.script? = if a.value.end?.isSome then none else some w.script

/-- A thread that is not resumed stays where it is. -/
theorem Carries.rest (hopen : w.Open k) (hf : w.Follows k t) (hscript : t.script? = some w.script) :
    w.Carries k ⟨.notEligible, t, world, [], []⟩ :=
  ⟨⟨k, .going hopen, hf, (List.append_nil _).symm⟩, hscript⟩

section Steady

variable (h : L.IsSteady) (hopen : w.Open k)

include h hopen

theorem carries_steps (hf : w.Follows k t) (hscript : t.script? = some w.script) (now : Millis)
    (world : L.World) : w.Carries k (t.afterPoll now (.ok true) world) := by
  have hcaller : { t.caller now with now := w.caller.now } = w.caller := hf.caller
  obtain ⟨k', ⟨hagrees, texts, hsaid, hsaid'⟩, hstands⟩ := row h hcaller
    (t.context world).budget.remaining hopen (hf.agrees h world)
  unfold Thread.afterPoll Thread.resume
  simp only [hscript]
  rcases hrow : Thread.runSteps (t.caller now) w.script (t.context world).budget.remaining
    (t.context world) with ⟨last?, c⟩
  rw [hrow] at hagrees hsaid hstands
  simp only at hagrees hsaid hstands ⊢
  have hadds : (w.after k').status = (w.after k).status ++ c.status := by
    rw [hsaid', hsaid]
    rfl
  have hfollows : w.Follows k' (t.absorb c) :=
    ⟨hf.caller, hagrees.memory, hagrees.definitions, hagrees.idle⟩
  have hgoes : (t.absorb c).script? = some w.script := hscript
  cases last? with
  | none => exact ⟨⟨k', hstands, hfollows, hadds⟩, hgoes⟩
  | some ending =>
    cases ending with
    | proceed => exact ⟨⟨k', hstands, hfollows, hadds⟩, hgoes⟩
    | wait millis condition? =>
      exact ⟨⟨k', hstands, hfollows.congr rfl rfl rfl, hadds⟩, hgoes⟩
    | done values => exact ⟨⟨k', hstands, hfollows.congr rfl rfl rfl, hadds⟩, rfl⟩
    | fault f => exact ⟨⟨k', hstands, hfollows.congr rfl rfl rfl, hadds⟩, rfl⟩
    | panicked text? => exact ⟨⟨k', hstands, hfollows.congr rfl rfl rfl, hadds⟩, rfl⟩

/-- **A service takes a thread further on its way.** -/
theorem carries_service (hf : w.Follows k t) (hactive : t.isActive = true)
    (hscript : t.script? = some w.script) (turbo : Nat) (dispatchFirst : Bool) (now : Millis)
    (world : L.World) : w.Carries k (t.service turbo dispatchFirst now world) := by
  obtain ⟨deeds, a, hp, hservice, -⟩ := Thread.serviced hactive turbo dispatchFirst now world
  rw [opening_of_idle hf.idle] at hp hservice
  -- the budget of the thread is another one, but nothing on its way
  have hready : w.Follows k (t.beginTick turbo) := hf.congr rfl rfl rfl
  have hremember : ∀ {condition : L.Condition} {verdict : Verdict} {memory : L.Memory}
      {world' : L.World},
      L.evaluate condition ((t.beginTick turbo).memory, world) = (verdict, memory, world') →
      memory = t.memory ∧ ∃ holds, verdict = .known holds := by
    intro condition verdict memory world' heval
    obtain ⟨holds, hknown⟩ := h.evaluate condition ((t.beginTick turbo).memory, world)
    rw [hknown] at heval
    cases heval
    exact ⟨rfl, holds, rfl⟩
  rw [hservice]
  cases hp with
  | running hs => exact carries_steps h hopen hready hscript now world
  | paused hs => exact .rest hopen hready hscript
  | early hs hlt => exact .rest hopen hready hscript
  | elapsed hs hdue hcond =>
    exact carries_steps h hopen (t := { t.beginTick turbo with state := .running })
      (hf.congr rfl rfl rfl) hscript now world
  | held hs hdue hcond heval =>
    obtain ⟨rfl, -⟩ := hremember heval
    exact carries_steps h hopen (t := { t.beginTick turbo with state := .running })
      (hf.congr rfl rfl rfl) hscript now _
  | refused hs hdue hcond heval =>
    obtain ⟨rfl, -⟩ := hremember heval
    exact .rest hopen hready hscript
  | broke hs hdue hcond heval =>
    obtain ⟨-, holds, hverdict⟩ := hremember heval
    exact absurd hverdict nofun

end Steady

end Walk

end Heartbeat

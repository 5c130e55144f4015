import Heartbeat.Proofs.Thread.Toll

/-!
# The allowance of a service

A service starts with a fresh allowance. The callbacks that run before the poll, the steps and what
the steps do are paid for from it, and what bounds the row of steps is the allowance alone.

* `Loops`: the row of steps of a resume, without a bound on their number.
* `loops_runSteps`, `Loops.unique`: the row comes to an end, and to one end only, if the allowance
  fits into 32 bits.
* `serviceTolls`: the tolls of a service; `service_law`: how they are paid.
-/

namespace Heartbeat

open Heartbeat.Text

/-- Whether a deed is a step of the script. -/
def Deed.isStep {L : Language} : Deed L → Bool
  | .stepped _ => true
  | _ => false

namespace Thread

variable {L : Language} {now : Millis} {world : L.World}

/-! ## The row of steps -/

/-- **The row of steps of a resume**: steps are made as long as something is left of the budget and
the last one proceeded. Nothing else bounds their number, which is counted. -/
inductive Loops (caller : Caller) (script : L.Script) :
    Nat → Context L → Option (StepEnd L.Condition) → Context L → Prop
  | spent {c : Context L} (hspent : c.budget.isExhausted = true) : Loops caller script 0 c none c
  | proceeded {k : Nat} {c c' c'' : Context L} {last? : Option (StepEnd L.Condition)}
      (hleft : c.budget.isExhausted = false) (hstep : c.step caller script = (.proceed, c'))
      (hrest : Loops caller script k c' last? c'') : Loops caller script (k + 1) c last? c''
  | ended {c c' : Context L} {last : StepEnd L.Condition} (hleft : c.budget.isExhausted = false)
      (hstep : c.step caller script = (last, c')) (hlast : last ≠ .proceed) :
      Loops caller script 1 c (some last) c'

section Loops

variable {caller : Caller} {script : L.Script} {c c' d d' : Context L} {k n : Nat}
  {last? other? : Option (StepEnd L.Condition)}

theorem Loops.unique (h : Loops caller script k c last? d)
    (h' : Loops caller script n c other? d') : n = k ∧ other? = last? ∧ d' = d := by
  induction h generalizing n with
  | spent hspent =>
    cases h' with
    | spent => exact ⟨rfl, rfl, rfl⟩
    | proceeded hleft => exact absurd (hspent.symm.trans hleft) nofun
    | ended hleft => exact absurd (hspent.symm.trans hleft) nofun
  | proceeded hleft hstep _ ih =>
    cases h' with
    | spent hspent => exact absurd (hspent.symm.trans hleft) nofun
    | proceeded _ hstep' hrest' =>
      obtain ⟨-, rfl⟩ := Prod.mk.inj (hstep.symm.trans hstep')
      obtain ⟨rfl, rfl, rfl⟩ := ih hrest'
      exact ⟨rfl, rfl, rfl⟩
    | ended _ hstep' hlast =>
      exact absurd (Prod.mk.inj (hstep.symm.trans hstep')).1.symm hlast
  | ended hleft hstep hlast =>
    cases h' with
    | spent hspent => exact absurd (hspent.symm.trans hleft) nofun
    | proceeded _ hstep' _ =>
      exact absurd (Prod.mk.inj (hstep.symm.trans hstep')).1 hlast
    | ended _ hstep' _ =>
      obtain ⟨rfl, rfl⟩ := Prod.mk.inj (hstep.symm.trans hstep')
      exact ⟨rfl, rfl, rfl⟩

theorem length_stepsWithin_le (caller : Caller) (script : L.Script) (bound : Nat) (c : Context L) :
    (stepsWithin caller script bound c).length ≤ bound := by
  induction bound generalizing c with
  | zero => exact Nat.le_refl 0
  | succ bound ih =>
    unfold stepsWithin
    split
    · exact Nat.zero_le _
    · rcases c.step caller script with ⟨ending, c'⟩
      cases ending with
      | proceed => exact Nat.succ_le_succ (ih c')
      | _ => exact Nat.succ_le_succ (Nat.zero_le bound)

/-- A step uses up some of what is left, as long as the count does not stand still. -/
theorem remaining_step_lt (caller : Caller) (script : L.Script)
    (hleft : c.budget.isExhausted = false) (hlimit : c.budget.limit ≤ maxWord32) :
    (c.step caller script).2.budget.remaining < c.budget.remaining ∧
      (c.step caller script).2.budget.limit ≤ c.budget.limit := by
  have hcode : Context.Pays caller (c.charge 1) _ 0 (c.step caller script).2 :=
    Context.Pays.run Context.Pays.drain (L.step script caller) (c.charge 1)
  have hused : min (min (c.budget.used + 1) maxWord32) maxWord32 ≤
      (c.step caller script).2.budget.used := hcode.paid.used_le
  have hlimit' : (c.step caller script).2.budget.limit ≤ c.budget.limit := hcode.paid.limit_le
  have hunspent : ¬ c.budget.limit ≤ c.budget.used := of_decide_eq_false hleft
  refine ⟨?_, hlimit'⟩
  unfold Budget.remaining
  omega

/-- **The row of steps comes to an end** if the allowance fits into 32 bits: what is left of it
bounds the number of steps. -/
theorem loops_runSteps (caller : Caller) (script : L.Script) (bound : Nat)
    (hlimit : c.budget.limit ≤ maxWord32)
    (hbound : c.budget.remaining ≤ bound) :
    Loops caller script (stepsWithin caller script bound c).length c
      (runSteps caller script bound c).1 (runSteps caller script bound c).2 := by
  induction bound generalizing c with
  | zero =>
    have hspent : c.budget.isExhausted = true :=
      decide_eq_true (Nat.le_of_sub_eq_zero (Nat.le_zero.mp hbound))
    exact .spent hspent
  | succ bound ih =>
    unfold stepsWithin runSteps
    by_cases hspent : c.budget.isExhausted = true
    · simp only [if_pos hspent]
      exact .spent hspent
    · have hleft := Bool.eq_false_iff.mpr hspent
      obtain ⟨hless, hlimit'⟩ := remaining_step_lt caller script hleft hlimit
      simp only [if_neg hspent]
      rcases hstep : c.step caller script with ⟨ending, c'⟩
      rw [hstep] at hless hlimit'
      cases ending with
      | proceed =>
        exact .proceeded hleft hstep (ih (Nat.le_trans hlimit' hlimit)
          (Nat.le_of_lt_succ (Nat.lt_of_lt_of_le hless hbound)))
      | _ => exact .ended hleft hstep nofun

end Loops

/-! ## The tolls of a service -/

/-- The tolls of a dispatch. -/
def dispatchTolls (t : Thread L) (now : Millis) (world : L.World) : List Toll :=
  if t.isTerminated then []
  else if t.abandoned || t.state.isPaused || t.events.pending = 0 then []
  else (t.context world).drainTolls (t.caller now)

/-- The tolls of a resume. -/
def resumeTolls (t : Thread L) (now : Millis) (world : L.World) : List Toll :=
  match t.script? with
  | none => []
  | some script =>
    let c := t.context world
    c.rowTolls (t.caller now) script c.budget.remaining

/-- The tolls behind a poll with an answer. -/
def afterPollTolls (now : Millis) (answer : Except Fault Bool) (t : Thread L) (world : L.World) :
    List Toll :=
  match answer with
  | .ok true => t.resumeTolls now world
  | _ => []

/-- The tolls up to the poll. -/
def openingTolls (t : Thread L) (turbo : Nat) (dispatchFirst : Bool) (now : Millis)
    (world : L.World) : List Toll :=
  if dispatchFirst then (t.beginTick turbo).dispatchTolls now world else []

/-- A service up to the steps. -/
def untilSteps (t : Thread L) (turbo : Nat) (dispatchFirst : Bool) (now : Millis)
    (world : L.World) : Activity L (Except Fault Bool) :=
  let first := t.opening turbo dispatchFirst now world
  first.thread.poll now first.world

/-- What the code of the thread can reach at the first step of a service. -/
def rowStart (t : Thread L) (turbo : Nat) (dispatchFirst : Bool) (now : Millis)
    (world : L.World) : Context L :=
  let polled := t.untilSteps turbo dispatchFirst now world
  polled.thread.context polled.world

/-- The tolls of a service. -/
def serviceTolls (t : Thread L) (turbo : Nat) (dispatchFirst : Bool) (now : Millis)
    (world : L.World) : List Toll :=
  let polled := t.untilSteps turbo dispatchFirst now world
  t.openingTolls turbo dispatchFirst now world ++
    afterPollTolls now polled.value polled.thread polled.world

/-- **The law of every part of a service**: it goes on under the same caller, and its tolls are paid
from the budget of the thread. -/
structure Dues (now : Millis) (t : Thread L) (tolls : List Toll) (steps : Nat) (t' : Thread L)
    (requests : List Request) : Prop where
  caller : t'.caller now = t.caller now
  paid : Toll.Paid (t.caller now) t.budget tolls t'.budget
  requests_eq : requests = Toll.asked tolls
  steps_eq : tolls.count .step = steps

namespace Dues

variable {t t' t'' : Thread L} {tolls tolls' : List Toll} {n k : Nat}
  {requests requests' : List Request}

theorem none (hcaller : t'.caller now = t.caller now) (hbudget : t'.budget = t.budget) :
    Dues now t [] 0 t' [] where
  caller := hcaller
  paid := hbudget ▸ .nil _
  requests_eq := rfl
  steps_eq := rfl

theorem trans (h : Dues now t tolls n t' requests) (h' : Dues now t' tolls' k t'' requests') :
    Dues now t (tolls ++ tolls') (n + k) t'' (requests ++ requests') where
  caller := h'.caller.trans h.caller
  paid := by
    have hrest := h'.paid
    rw [h.caller] at hrest
    exact h.paid.append hrest
  requests_eq := by
    rw [h.requests_eq, h'.requests_eq]
    unfold Toll.asked
    rw [List.filterMap_append]
  steps_eq := by rw [List.count_append, h.steps_eq, h'.steps_eq]

/-- Code that runs in the context of a thread. -/
theorem of_pays {c : Context L}
    (h : Context.Pays (t.caller now) (t.context world) tolls n c)
    (hcaller : t'.caller now = t.caller now) (hbudget : t'.budget = c.budget) :
    Dues now t tolls n t' c.requests where
  caller := hcaller
  paid := hbudget ▸ h.paid
  requests_eq := h.requests.trans (List.nil_append _)
  steps_eq := h.steps_eq

end Dues

section Parts

variable (t : Thread L) (turbo : Nat) (dispatchFirst : Bool) (now : Millis) (world : L.World)

theorem dues_dispatch :
    Dues now t (t.dispatchTolls now world) 0 (t.dispatch now world).thread
      (t.dispatch now world).requests := by
  unfold dispatch dispatchTolls
  split
  · exact .none rfl rfl
  · split
    · exact .none rfl rfl
    · exact .of_pays (Context.Pays.drain _) rfl rfl

theorem dues_opening :
    Dues now (t.beginTick turbo) (t.openingTolls turbo dispatchFirst now world) 0
      (t.opening turbo dispatchFirst now world).thread
      (t.opening turbo dispatchFirst now world).requests := by
  cases dispatchFirst with
  | false => exact .none rfl rfl
  | true => exact dues_dispatch (t.beginTick turbo) now world

theorem dues_poll :
    Dues now t [] 0 (t.poll now world).thread (t.poll now world).requests := by
  unfold poll
  split
  · exact .none rfl rfl
  · split
    · exact .none rfl rfl
    · exact .none rfl rfl

theorem dues_resume :
    Dues now t (t.resumeTolls now world) (t.resumeDeeds now world).length
      (t.resume now world).thread (t.resume now world).requests := by
  unfold resume resumeTolls resumeDeeds
  cases t.script? with
  | none => exact .none rfl rfl
  | some script =>
    simp only [List.length_map]
    have hpays : Context.Pays (t.caller now) (t.context world) _ _ _ :=
      .row script (t.context world).budget.remaining (t.context world)
    rcases hrow : runSteps (t.caller now) script (t.context world).budget.remaining
      (t.context world) with ⟨last?, c⟩
    rw [hrow] at hpays
    have hsettle : ((t.absorb c).settle now last?).2.caller now = t.caller now ∧
        ((t.absorb c).settle now last?).2.budget = c.budget := by
      cases last? with
      | none => exact ⟨rfl, rfl⟩
      | some last => cases last <;> exact ⟨rfl, rfl⟩
    exact .of_pays hpays hsettle.1 hsettle.2

theorem dues_afterPoll (answer : Except Fault Bool) :
    Dues now t (afterPollTolls now answer t world) (afterPollDeeds now answer t world).length
      (t.afterPoll now answer world).thread (t.afterPoll now answer world).requests := by
  rcases answer with fault | _ | _
  · exact .none rfl rfl
  · exact .none rfl rfl
  · have hresume := dues_resume t now world
    unfold afterPoll
    simp only
    split <;> exact hresume

/-- The steps of a service are those behind the poll. -/
theorem countP_serviceDeeds :
    (t.serviceDeeds turbo dispatchFirst now world).countP Deed.isStep =
      (afterPollDeeds now (t.untilSteps turbo dispatchFirst now world).value
        (t.untilSteps turbo dispatchFirst now world).thread
        (t.untilSteps turbo dispatchFirst now world).world).length := by
  have hdispatch : ∀ t : Thread L, (t.dispatchDeeds now world).countP Deed.isStep = 0 := by
    intro t
    unfold dispatchDeeds
    split
    · rfl
    · split
      · rfl
      · exact List.countP_eq_zero.mpr (List.forall_mem_map.mpr fun _ _ => nofun)
  have hopening : (t.openingDeeds turbo dispatchFirst now world).countP Deed.isStep = 0 := by
    cases dispatchFirst with
    | false => rfl
    | true => exact hdispatch (t.beginTick turbo)
  have hpoll : ∀ (t : Thread L) world, (t.pollDeeds now world).countP Deed.isStep = 0 := by
    intro t world
    unfold pollDeeds
    split
    · rfl
    · split
      · split
        · rfl
        · split <;> rfl
      · rfl
  have hrest : ∀ answer (t : Thread L) world, (afterPollDeeds now answer t world).countP
      Deed.isStep = (afterPollDeeds now answer t world).length := by
    intro answer t world
    rw [List.countP_eq_length]
    rcases answer with fault | _ | _
    · nofun
    · nofun
    · show ∀ deed ∈ t.resumeDeeds now world, deed.isStep = true
      unfold resumeDeeds
      cases t.script? with
      | none => nofun
      | some script => exact List.forall_mem_map.mpr fun _ _ => rfl
  unfold serviceDeeds
  simp only [List.countP_append]
  rw [hopening, hpoll, hrest, Nat.zero_add]
  rfl

/-- **A service pays its tolls from the fresh allowance.** -/
theorem dues_service :
    Dues now (t.beginTick turbo) (t.serviceTolls turbo dispatchFirst now world)
      ((t.serviceDeeds turbo dispatchFirst now world).countP Deed.isStep)
      (t.service turbo dispatchFirst now world).thread
      (t.service turbo dispatchFirst now world).requests := by
  have hfirst := dues_opening t turbo dispatchFirst now world
  have hpolled := dues_poll (t.opening turbo dispatchFirst now world).thread now
    (t.opening turbo dispatchFirst now world).world
  have hlast := dues_afterPoll (t.untilSteps turbo dispatchFirst now world).thread now
    (t.untilSteps turbo dispatchFirst now world).world
    (t.untilSteps turbo dispatchFirst now world).value
  have hall := (hfirst.trans hpolled).trans hlast
  rw [List.append_nil, Nat.add_zero, Nat.zero_add] at hall
  rw [countP_serviceDeeds]
  exact hall

end Parts

/-! ## The law of a service -/

/-- **The law of a service** of a thread, for any scripts and callbacks. -/
structure ServiceLaw (t : Thread L) (turbo : Nat) (dispatchFirst : Bool) (now : Millis)
    (world : L.World) : Prop where
  /-- Whatever is left of the last allowance, the service starts with a fresh one. A paused thread
  gets none. -/
  reset : (t.beginTick turbo).budget = .fresh (if t.state.isPaused then 0 else turbo)
  /-- The budget behind the service is what the tolls leave of that allowance. -/
  balance : (t.service turbo dispatchFirst now world).thread.budget =
    (t.serviceTolls turbo dispatchFirst now world).foldl (Toll.spend (t.caller now))
      (.fresh (if t.state.isPaused then 0 else turbo))
  /-- The requests among the tolls are those that the service leaves. -/
  requests : (t.service turbo dispatchFirst now world).requests =
    Toll.asked (t.serviceTolls turbo dispatchFirst now world)
  /-- The steps among the tolls are those of the script. -/
  steps : (t.serviceTolls turbo dispatchFirst now world).count .step =
    (t.serviceDeeds turbo dispatchFirst now world).countP Deed.isStep
  /-- At each step, the tolls before it do not add up to the allowance, and none of them is a
  request to stop or pause the thread itself. -/
  guarded : ∀ before after,
    t.serviceTolls turbo dispatchFirst now world = before ++ .step :: after →
      Toll.charged before < (if t.state.isPaused then 0 else turbo) ∧
        ∀ request ∈ Toll.asked before, Context.aimsAtSelf (t.caller now) request = false
  /-- The steps are no more than the allowance. -/
  bounded : (t.serviceDeeds turbo dispatchFirst now world).countP Deed.isStep ≤
    if t.state.isPaused then 0 else turbo
  /-- If the allowance fits into 32 bits, then so does the number of steps, and the row of steps
  comes to the end that it has in the service and to no other. -/
  ends : turbo ≤ maxWord32 →
    (t.serviceDeeds turbo dispatchFirst now world).countP Deed.isStep ≤ maxWord32 ∧
      ∀ script, (t.untilSteps turbo dispatchFirst now world).value = .ok true →
        (t.untilSteps turbo dispatchFirst now world).thread.script? = some script →
          ∀ k last? c,
            Loops (t.caller now) script k (t.rowStart turbo dispatchFirst now world) last? c ↔
              k = (t.serviceDeeds turbo dispatchFirst now world).countP Deed.isStep ∧
                runSteps (t.caller now) script
                  (t.rowStart turbo dispatchFirst now world).budget.remaining
                  (t.rowStart turbo dispatchFirst now world) = (last?, c)

theorem length_afterPollDeeds_le (answer : Except Fault Bool) (t : Thread L) (world : L.World) :
    (afterPollDeeds now answer t world).length ≤ t.budget.limit := by
  rcases answer with fault | _ | _
  · exact Nat.zero_le _
  · exact Nat.zero_le _
  · show (t.resumeDeeds now world).length ≤ t.budget.limit
    unfold resumeDeeds
    cases t.script? with
    | none => exact Nat.zero_le _
    | some script =>
      simp only [List.length_map]
      exact Nat.le_trans (length_stepsWithin_le _ _ _ _) (Nat.sub_le _ _)

theorem budget_beginTick (t : Thread L) (turbo : Nat) :
    (t.beginTick turbo).budget = .fresh (if t.state.isPaused then 0 else turbo) := by
  unfold beginTick Budget.reset
  cases t.state <;> rfl

theorem allowance_le (t : Thread L) (turbo : Nat) :
    (if t.state.isPaused then 0 else turbo) ≤ turbo := by
  split
  · exact Nat.zero_le _
  · exact Nat.le_refl _

/-- **The law of a service holds for every thread**, whatever the options and the world. -/
theorem service_law (t : Thread L) (turbo : Nat) (dispatchFirst : Bool) (now : Millis)
    (world : L.World) : ServiceLaw t turbo dispatchFirst now world := by
  have hreset := budget_beginTick t turbo
  have hdues := dues_service t turbo dispatchFirst now world
  have hfirst := (dues_opening t turbo dispatchFirst now world).trans
    (dues_poll (t.opening turbo dispatchFirst now world).thread now
      (t.opening turbo dispatchFirst now world).world)
  have hpaid := hdues.paid
  have hlimit := hfirst.paid.limit_le
  rw [hreset] at hpaid hlimit
  have hbounded : (t.serviceDeeds turbo dispatchFirst now world).countP Deed.isStep ≤
      if t.state.isPaused then 0 else turbo := by
    rw [countP_serviceDeeds]
    exact Nat.le_trans (length_afterPollDeeds_le _ _ _) hlimit
  refine ⟨hreset, hpaid.eq_foldl, hdues.requests_eq, hdues.steps_eq, ?_, hbounded, ?_⟩
  · intro before after hsplit
    rw [hsplit] at hpaid
    exact hpaid.guarded
  · intro hword
    refine ⟨Nat.le_trans hbounded (Nat.le_trans (t.allowance_le turbo) hword), ?_⟩
    intro script hvalue hscript k last? c
    have hcaller : (t.untilSteps turbo dispatchFirst now world).thread.caller now =
      t.caller now := hfirst.caller
    have hloops := loops_runSteps (c := t.rowStart turbo dispatchFirst now world)
      (t.caller now) script _
      (Nat.le_trans hlimit (Nat.le_trans (t.allowance_le turbo) hword)) (Nat.le_refl _)
    have hcount : (stepsWithin (t.caller now) script
        (t.rowStart turbo dispatchFirst now world).budget.remaining
        (t.rowStart turbo dispatchFirst now world)).length =
          (t.serviceDeeds turbo dispatchFirst now world).countP Deed.isStep := by
      rw [countP_serviceDeeds, hvalue]
      show _ = (resumeDeeds _ now _).length
      unfold resumeDeeds
      simp only [hscript, hcaller, List.length_map]
      rfl
    rw [hcount] at hloops
    constructor
    · intro h
      obtain ⟨rfl, rfl, rfl⟩ := hloops.unique h
      exact ⟨rfl, rfl⟩
    · rintro ⟨rfl, hrow⟩
      rw [hrow] at hloops
      exact hloops

end Thread

end Heartbeat

import Heartbeat.Proofs.Thread.Service

/-!
# What a thread pays

Beside the code of a thread stands the list of its tolls: the steps that its script makes, the
callbacks that are run, the extra steps that its code charges, and the requests that its code
leaves. The budget of the thread is what the tolls leave of it, and no step is made on a budget that
is spent.

* `Toll.charged`: what tolls add up to; `Toll.asked`: the requests among them.
* `Toll.Paid`: tolls that a budget pays for, each step from what is left of it.
* `Pays.run`, `respond`, `drain`, `row`: the code of a thread pays its tolls.
* `Paid.guarded`: what is known at each step; `Paid.used_le`, `limit_le`: a budget only shrinks.
-/

namespace Heartbeat

open Heartbeat.Text

variable {L : Language}

/-- Something that the budget of a thread has to do with. -/
inductive Toll where
  /-- The script makes a step. -/
  | step
  /-- A match is handed to its callback. -/
  | callback
  /-- The code charges extra steps. -/
  | extra (steps : Nat)
  /-- The code leaves a request for the scheduler. -/
  | demand (request : Request)
deriving Repr, DecidableEq

namespace Toll

/-- What a toll charges. -/
def cost : Toll → Nat
  | .step | .callback => 1
  | .extra steps => steps
  | .demand _ => 0

/-- What tolls add up to, counted in 32 bits. -/
def charged (tolls : List Toll) : Nat :=
  tolls.foldl (fun sum toll => min (sum + toll.cost) maxWord32) 0

/-- The requests among tolls. -/
def asked (tolls : List Toll) : List Request :=
  tolls.filterMap fun
    | .demand request => some request
    | _ => none

/-- What a toll leaves of a budget: a request that is aimed at the thread itself takes all. -/
def spend (caller : Caller) (b : Budget) : Toll → Budget
  | .demand request => if Context.aimsAtSelf caller request then b.close else b
  | toll => b.charge toll.cost

/-- Tolls that a budget pays for, one after another, and what they leave of it. A step is made only
while something is left. -/
inductive Paid (caller : Caller) : Budget → List Toll → Budget → Prop
  | nil (b : Budget) : Paid caller b [] b
  | cons {b b' : Budget} {toll : Toll} {tolls : List Toll}
      (hleft : toll = .step → b.isExhausted = false)
      (hrest : Paid caller (toll.spend caller b) tolls b') :
      Paid caller b (toll :: tolls) b'

namespace Paid

variable {caller : Caller} {b b' b'' : Budget} {tolls tolls' : List Toll}

theorem append (h : Paid caller b tolls b') (h' : Paid caller b' tolls' b'') :
    Paid caller b (tolls ++ tolls') b'' := by
  induction h with
  | nil => exact h'
  | cons hleft _ ih => exact .cons hleft (ih h')

theorem single {toll : Toll} (hleft : toll = .step → b.isExhausted = false) :
    Paid caller b [toll] (toll.spend caller b) :=
  .cons hleft (.nil _)

/-- The budget is what the tolls leave of it. -/
theorem eq_foldl (h : Paid caller b tolls b') : b' = tolls.foldl (spend caller) b := by
  induction h with
  | nil => rfl
  | cons _ _ ih => exact ih

/-- At every step something is left of the budget. -/
theorem left {before after : List Toll} (h : Paid caller b (before ++ .step :: after) b') :
    (before.foldl (spend caller) b).isExhausted = false := by
  induction before generalizing b with
  | nil =>
    cases h with
    | cons hleft _ => exact hleft rfl
  | cons toll before ih =>
    cases h with
    | cons _ hrest => exact ih hrest

end Paid

/-! ### What is left of a budget -/

theorem limit_spend_le (caller : Caller) (b : Budget) (toll : Toll) :
    (toll.spend caller b).limit ≤ b.limit := by
  cases toll with
  | demand request =>
    by_cases haimed : Context.aimsAtSelf caller request = true
    · simp [spend, haimed, Budget.close]
    · simp [spend, haimed]
  | _ => exact Nat.le_refl _

/-- A request charges nothing, even if it takes all that is left. -/
theorem used_spend_demand (caller : Caller) (b : Budget) (request : Request) :
    ((Toll.demand request).spend caller b).used = b.used := by
  show (if Context.aimsAtSelf caller request then b.close else b).used = b.used
  split <;> rfl

theorem used_spend (caller : Caller) (b : Budget) (toll : Toll) (h : b.used ≤ maxWord32) :
    (toll.spend caller b).used = min (b.used + toll.cost) maxWord32 := by
  cases toll with
  | demand request => exact (used_spend_demand caller b request).trans (Nat.min_eq_left h).symm
  | _ => rfl

/-- What was spent is what the tolls add up to. -/
theorem used_foldl_spend (caller : Caller) (tolls : List Toll) (b : Budget)
    (h : b.used ≤ maxWord32) :
    (tolls.foldl (spend caller) b).used =
      tolls.foldl (fun sum toll => min (sum + toll.cost) maxWord32) b.used := by
  induction tolls generalizing b with
  | nil => rfl
  | cons toll tolls ih =>
    have hnext := used_spend caller b toll h
    have hbound : (toll.spend caller b).used ≤ maxWord32 := hnext ▸ Nat.min_le_right _ _
    rw [List.foldl_cons, List.foldl_cons, ih _ hbound, hnext]

theorem limit_foldl_spend_le (caller : Caller) (tolls : List Toll) (b : Budget) :
    (tolls.foldl (spend caller) b).limit ≤ b.limit := by
  induction tolls generalizing b with
  | nil => exact Nat.le_refl _
  | cons toll tolls ih => exact Nat.le_trans (ih _) (limit_spend_le caller b toll)

/-- A budget from which something is left has not met a request that is aimed at the thread. -/
theorem not_aimed_of_left {caller : Caller} {tolls : List Toll} {b : Budget}
    (h : (tolls.foldl (spend caller) b).isExhausted = false) :
    (tolls.foldl (spend caller) b).limit = b.limit ∧
      ∀ request ∈ asked tolls, Context.aimsAtSelf caller request = false := by
  have hpositive : 0 < (tolls.foldl (spend caller) b).limit := by
    have hused : ¬ (tolls.foldl (spend caller) b).limit ≤ (tolls.foldl (spend caller) b).used :=
      of_decide_eq_false h
    omega
  clear h
  induction tolls generalizing b with
  | nil => exact ⟨rfl, fun _ hmem => absurd hmem List.not_mem_nil⟩
  | cons toll tolls ih =>
    obtain ⟨hlimit, hquiet⟩ := ih hpositive
    cases toll with
    | demand request =>
      have hsame : Context.aimsAtSelf caller request = false := by
        by_contra haimed
        have hclosed : (Toll.demand request).spend caller b = b.close :=
          if_pos (by simpa using haimed)
        have hnone := limit_foldl_spend_le caller tolls b.close
        rw [List.foldl_cons, hclosed] at hpositive
        exact absurd hpositive (Nat.not_lt_of_le hnone)
      have hspend : (Toll.demand request).spend caller b = b := if_neg (by simp [hsame])
      rw [hspend] at hlimit
      rw [List.foldl_cons, hspend]
      exact ⟨hlimit, List.forall_mem_cons.mpr ⟨hsame, hquiet⟩⟩
    | _ => exact ⟨hlimit, hquiet⟩

namespace Paid

variable {caller : Caller} {b b' : Budget} {tolls : List Toll}

/-- **What is known at each step**: the tolls before it do not add up to the allowance, and none of
them is a request that is aimed at the thread. -/
theorem guarded {allowance : Nat} {before after : List Toll}
    (h : Paid caller (.fresh allowance) (before ++ .step :: after) b') :
    charged before < allowance ∧
      ∀ request ∈ asked before, Context.aimsAtSelf caller request = false := by
  have hleft := h.left
  obtain ⟨hlimit, hquiet⟩ := not_aimed_of_left hleft
  refine ⟨?_, hquiet⟩
  have hused := used_foldl_spend caller before (.fresh allowance) (Nat.zero_le _)
  have hunspent := of_decide_eq_false hleft
  rw [hlimit, hused] at hunspent
  exact Nat.lt_of_not_le hunspent

theorem limit_le (h : Paid caller b tolls b') : b'.limit ≤ b.limit := by
  rw [h.eq_foldl]
  exact limit_foldl_spend_le caller tolls b

/-- What was spent stays spent. -/
theorem used_le (h : Paid caller b tolls b') : min b.used maxWord32 ≤ b'.used := by
  induction h with
  | nil => exact Nat.min_le_left _ _
  | @cons b b' toll tolls hleft _ ih =>
    have hnext : min b.used maxWord32 ≤ (toll.spend caller b).used := by
      cases toll with
      | demand request =>
        rw [used_spend_demand]
        exact Nat.min_le_left _ _
      | _ =>
        unfold spend Budget.charge
        simp only
        omega
    omega

end Paid

end Toll

/-! ## The tolls of code -/

namespace Context

variable {α : Type}

/-- The tolls of code; `drained` says what handing out the waiting matches takes. -/
def runTolls (caller : Caller) (drain : Context L → Nat × Context L)
    (drained : Context L → List Toll) :
    Code L.Memory L.World L.Callback α → Context L → List Toll
  | .finish _, _ => []
  | .print text next, c => runTolls caller drain drained next (c.report caller (.output text))
  | .register name pattern callback next, c =>
    match c.events.register L.engine name pattern callback with
    | .ok events => runTolls caller drain drained (next none) { c with events := events }
    | .error e => runTolls caller drain drained (next (some e)) c
  | .unregister name next, c =>
    let (found, events) := c.events.unregister name
    runTolls caller drain drained (next found) { c with events := events }
  | .pending next, c => runTolls caller drain drained (next c.events.pending) c
  | .dispatchEvents next, c =>
    let (count, c') := drain c
    drained c ++ runTolls caller drain drained (next count) c'
  | .consume steps next, c => .extra steps :: runTolls caller drain drained next (c.charge steps)
  | .remaining next, c => runTolls caller drain drained (next c.budget.remaining) c
  | .request request next, c =>
    .demand request :: runTolls caller drain drained next (c.leave caller request)
  | .recall next, c => runTolls caller drain drained (next c.memory) c
  | .store memory next, c => runTolls caller drain drained next { c with memory := memory }
  | .observe next, c => runTolls caller drain drained (next c.world) c
  | .affect world next, c => runTolls caller drain drained next { c with world := world }

/-- The tolls of the callback of a match. -/
def respondTolls (caller : Caller) (entry : PendingEvent L.Callback) (c : Context L) : List Toll :=
  runTolls caller alreadyDraining (fun _ => [])
    (L.respond entry.definition.callback entry.captures caller) c

/-- The tolls of handing out at most `bound` matches. -/
def drainTollsWithin (caller : Caller) : Nat → Context L → List Toll
  | 0, _ => []
  | bound + 1, c =>
    match c.events.pop? with
    | none => []
    | some (entry, events) =>
      let c := ({ c with events := events } : Context L).charge 1
      .callback :: (c.respondTolls caller entry ++
        drainTollsWithin caller bound (c.respond caller entry))

/-- The tolls of handing out the waiting matches. -/
def drainTolls (caller : Caller) (c : Context L) : List Toll :=
  drainTollsWithin caller c.events.pending c

/-- The tolls of a step. -/
def stepTolls (caller : Caller) (script : L.Script) (c : Context L) : List Toll :=
  .step :: runTolls caller (drain caller) (drainTolls caller) (L.step script caller) (c.charge 1)

/-- The tolls of the steps that a resume makes, at most `bound`. -/
def rowTolls (caller : Caller) (script : L.Script) : Nat → Context L → List Toll
  | 0, _ => []
  | bound + 1, c =>
    if c.budget.isExhausted then []
    else
      c.stepTolls caller script ++
        match c.step caller script with
        | (.proceed, c) => rowTolls caller script bound c
        | _ => []

/-- **Between two contexts of a caller the tolls were paid**, so many steps among them. -/
structure Pays (caller : Caller) (c : Context L) (tolls : List Toll) (steps : Nat)
    (c' : Context L) : Prop where
  paid : Toll.Paid caller c.budget tolls c'.budget
  requests : c'.requests = c.requests ++ Toll.asked tolls
  steps_eq : tolls.count .step = steps

namespace Pays

variable {caller : Caller} {c c' c'' : Context L} {tolls tolls' : List Toll} {n k : Nat}

theorem of_same (hbudget : c'.budget = c.budget) (hrequests : c'.requests = c.requests) :
    Pays caller c [] 0 c' where
  paid := hbudget ▸ .nil _
  requests := hrequests.trans (List.append_nil _).symm
  steps_eq := rfl

theorem refl (c : Context L) : Pays caller c [] 0 c := of_same rfl rfl

theorem trans (h : Pays caller c tolls n c') (h' : Pays caller c' tolls' k c'') :
    Pays caller c (tolls ++ tolls') (n + k) c'' where
  paid := h.paid.append h'.paid
  requests := by
    rw [h'.requests, h.requests, List.append_assoc]
    unfold Toll.asked
    rw [List.filterMap_append]
  steps_eq := by rw [List.count_append, h.steps_eq, h'.steps_eq]

/-- Code that goes on in a context with the same budget and the same requests. -/
theorem of_next {d : Context L} (h : Pays caller d tolls n c') (hbudget : d.budget = c.budget)
    (hrequests : d.requests = c.requests) : Pays caller c tolls n c' := by
  have hfirst : Pays caller c [] 0 d := of_same hbudget hrequests
  have hboth := hfirst.trans h
  rwa [Nat.zero_add] at hboth

/-- A toll that is charged, but is no step. -/
theorem charge (c : Context L) (toll : Toll)
    (hspend : ∀ b, toll.spend caller b = b.charge toll.cost) (hstep : toll ≠ .step)
    (hasked : Toll.asked [toll] = []) : Pays caller c [toll] 0 (c.charge toll.cost) where
  paid := by
    show Toll.Paid caller c.budget [toll] (c.budget.charge toll.cost)
    rw [← hspend]
    exact .single fun h => absurd h hstep
  requests := by
    rw [hasked]
    exact (List.append_nil _).symm
  steps_eq := List.count_eq_zero_of_not_mem fun h => hstep (List.mem_singleton.mp h).symm

theorem demand (c : Context L) (request : Request) :
    Pays caller c [.demand request] 0 (c.leave caller request) where
  paid := .single nofun
  requests := rfl
  steps_eq := rfl

section Code

variable {α : Type}

/-- **Code pays its tolls**, as long as handing out matches does. -/
theorem run {drain : Context L → Nat × Context L} {drained : Context L → List Toll}
    (hdrain : ∀ c, Pays caller c (drained c) 0 (drain c).2)
    (code : Code L.Memory L.World L.Callback α) (c : Context L) :
    Pays caller c (runTolls caller drain drained code c) 0 (Context.run caller drain code c).2 := by
  induction code generalizing c with
  | finish a => exact refl c
  | print text next ih => exact (ih _).of_next rfl rfl
  | register name pattern callback next ih =>
    simp only [runTolls, Context.run]
    cases c.events.register L.engine name pattern callback with
    | ok events => exact (ih _ _).of_next rfl rfl
    | error e => exact ih _ c
  | unregister name next ih => exact (ih _ _).of_next rfl rfl
  | pending next ih => exact ih _ c
  | dispatchEvents next ih => exact (hdrain c).trans (ih _ _)
  | consume steps next ih =>
    exact (charge c (.extra steps) (fun _ => rfl) (by simp) rfl).trans (ih _)
  | remaining next ih => exact ih _ c
  | request r next ih => exact (demand c r).trans (ih _)
  | «recall» next ih => exact ih _ c
  | store memory next ih => exact (ih _).of_next rfl rfl
  | observe next ih => exact ih _ c
  | affect world next ih => exact (ih _).of_next rfl rfl

end Code

theorem respond (entry : PendingEvent L.Callback) (c : Context L) :
    Pays caller c (c.respondTolls caller entry) 0 (c.respond caller entry) := by
  have hcode : Pays caller c (c.respondTolls caller entry) 0 (Context.run caller alreadyDraining
      (L.respond entry.definition.callback entry.captures caller) c).2 := run refl _ c
  unfold Context.respond
  rcases hr : Context.run caller alreadyDraining
    (L.respond entry.definition.callback entry.captures caller) c with ⟨ending, c'⟩
  rw [hr] at hcode
  cases ending with
  | success => simpa only [hr] using hcode
  | fault fault =>
    simp only [hr]
    exact ⟨hcode.paid, hcode.requests, hcode.steps_eq⟩

theorem drainWithin (bound : Nat) (c : Context L) :
    Pays caller c (drainTollsWithin caller bound c) 0 (Context.drainWithin caller bound c).2 := by
  induction bound generalizing c with
  | zero => exact refl c
  | succ bound ih =>
    unfold drainTollsWithin Context.drainWithin
    cases hpop : c.events.pop? with
    | none => exact refl c
    | some popped =>
      obtain ⟨entry, events⟩ := popped
      have hcharge : Pays caller { c with events := events } [.callback] 0 _ :=
        charge _ .callback (fun _ => rfl) (by simp) rfl
      exact ((hcharge.trans (respond entry _)).trans (ih _)).of_next rfl rfl

theorem drain (c : Context L) : Pays caller c (drainTolls caller c) 0 (c.drain caller).2 :=
  drainWithin _ c

/-- A step is paid for from what is left. -/
theorem step (script : L.Script) {c : Context L} (hleft : c.budget.isExhausted = false) :
    Pays caller c (c.stepTolls caller script) 1 (c.step caller script).2 := by
  have hstep : Pays caller c [.step] 1 (c.charge 1) :=
    ⟨.single fun _ => hleft, (List.append_nil _).symm, rfl⟩
  exact hstep.trans (run drain (L.step script caller) (c.charge 1))

/-- **A row of steps pays its tolls**, and the steps among them are those that are listed. -/
theorem row (script : L.Script) (bound : Nat) (c : Context L) :
    Pays caller c (rowTolls caller script bound c)
      (Thread.stepsWithin caller script bound c).length
      (Thread.runSteps caller script bound c).2 := by
  induction bound generalizing c with
  | zero => exact refl c
  | succ bound ih =>
    unfold rowTolls Thread.stepsWithin Thread.runSteps
    by_cases hspent : c.budget.isExhausted = true
    · simp only [if_pos hspent]
      exact refl c
    · have hstep : Pays caller c (c.stepTolls caller script) 1 (c.step caller script).2 :=
        step script (Bool.eq_false_iff.mpr hspent)
      simp only [if_neg hspent]
      rcases hs : c.step caller script with ⟨ending, c'⟩
      rw [hs] at hstep
      cases ending with
      | proceed =>
        have hrow := hstep.trans (ih c')
        rwa [Nat.add_comm] at hrow
      | _ => simpa using hstep

end Pays

end Context

end Heartbeat

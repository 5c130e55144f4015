import Heartbeat.Proofs.Thread.Desk
import Mathlib.Algebra.Order.Ring.Nat

/-!
# Handing out matches

An outermost request for the waiting matches hands out all of them that no callback discards before
their turn comes. Whatever the callbacks do, and however they end, it comes to an end itself,
charges a step for each match, and reports each callback that went wrong.

* `Handout.InTurn`: the order in which matches are handed out.
* `HandedOut`: the state behind an outermost request.
* `handout_law`: the law of handing out matches, the nested requests included.
-/

namespace Heartbeat

open Heartbeat.Text

variable {L : Language} {α : Type} {caller : Caller}

/-! ## Handouts -/

/-- What tolls add up to, if nothing is lost on the way, is what is lost at the end. -/
theorem Toll.foldl_cost (tolls : List Toll) {used : Nat} (h : used ≤ maxWord32) :
    tolls.foldl (fun sum toll => min (sum + toll.cost) maxWord32) used =
      min (used + (tolls.map Toll.cost).sum) maxWord32 := by
  induction tolls generalizing used with
  | nil => exact (Nat.min_eq_left h).symm
  | cons toll tolls ih =>
    rw [List.foldl_cons, ih (Nat.min_le_right _ _), List.map_cons, List.sum_cons]
    omega

namespace Handout

/-- What the callback charges to the budget. -/
def consumed (caller : Caller) (h : Handout L) : Nat :=
  ((h.start.respondTolls caller h.entry).map Toll.cost).sum

/-- The calls that the callback makes to the events. -/
def calls (caller : Caller) (h : Handout L) : List (EventCall L.Callback) :=
  EventDeed.calls (h.start.respondEvents caller h.entry)

/-- **The matches are handed out in turn**: the oldest one first, and then those behind it, in their
order. One is left out only if a callback before it registered or unregistered its event. -/
inductive InTurn (caller : Caller) : List (PendingEvent L.Callback) → List (Handout L) → Prop
  | nil : InTurn caller [] []
  | cons {h : Handout L} {log : List (Handout L)} {entries : List (PendingEvent L.Callback)}
      (keep : PendingEvent L.Callback → Bool)
      (hgone : ∀ entry, keep entry = false →
        ∃ call ∈ h.calls caller, call.concerns L.engine entry.name = true)
      (hrest : InTurn caller (entries.filter keep) log) :
      InTurn caller (h.entry :: entries) (h :: log)

theorem InTurn.length_le {entries : List (PendingEvent L.Callback)} {log : List (Handout L)}
    (h : InTurn caller entries log) : log.length ≤ entries.length := by
  induction h with
  | nil => exact Nat.le_refl 0
  | cons keep _ _ ih => exact Nat.succ_le_succ (Nat.le_trans ih (List.length_filter_le _ _))

end Handout

/-- The state in which an outermost request for the waiting matches leaves things. -/
structure HandedOut (caller : Caller) (c : Context L) (log : List (Handout L)) (count : Nat)
    (d : Desk L) : Prop where
  /-- The flag is down again, and no callback is running. -/
  closed : d = d.context.desk
  /-- No more matches are handed out than waited. -/
  bounded : log.length ≤ c.events.pending
  /-- None waits any more. -/
  emptied : d.context.events.pending = 0
  counted : count = log.length
  /-- No match is passed over for a callback before it that went wrong. -/
  inTurn : Handout.InTurn caller c.events.queue.entries log
  /-- A step is charged for each match, beyond what its callback charges, counted in 32 bits. -/
  charged : c.budget.used ≤ maxWord32 → d.context.budget.used =
    min (c.budget.used + (log.map fun h => 1 + h.consumed caller).sum) maxWord32
  /-- The errors that the host is told of are those of the callbacks that went wrong, in order. -/
  reported : ∃ news, d.context.status = c.status ++ news ∧
    news.filter (·.kind == .errored) = log.filterMap (Handout.notice? caller)
  /-- No callback was running when its turn came. -/
  free : ∀ h ∈ log, h.ending?.isSome = true

namespace Context

theorem said_act {c c' : Context L} {code code' : Code L.Memory L.World L.Callback α}
    (h : act caller code c = some (code', c')) :
    ∃ news, c'.status = c.status ++ news ∧ news.filter (·.kind == .errored) = [] := by
  cases code with
  | finish a => exact absurd h nofun
  | dispatchEvents next => exact absurd h nofun
  | print text next =>
    cases h
    exact ⟨[.thread caller.pid caller.name (.output text)], rfl, rfl⟩
  | register name pattern callback next =>
    simp only [act] at h
    cases hregister : c.events.register L.engine name pattern callback <;>
      · rw [hregister] at h
        cases h
        exact ⟨[], (List.append_nil _).symm, rfl⟩
  | _ =>
    cases h
    exact ⟨[], (List.append_nil _).symm, rfl⟩

/-- Code that cannot hand out matches reports no errors. -/
theorem said_run (caller : Caller) (code : Code L.Memory L.World L.Callback α) (c : Context L) :
    ∃ news, (run caller alreadyDraining code c).2.status = c.status ++ news ∧
      news.filter (·.kind == .errored) = [] := by
  induction code, c using act_induction caller with
  | finish a c => exact ⟨[], (List.append_nil _).symm, rfl⟩
  | dispatchEvents next c ih => exact ih 0 c
  | act code code' c c' hact ih =>
    obtain ⟨news, hnews, hquiet⟩ := ih
    obtain ⟨said, hsaid, hroutine⟩ := said_act hact
    refine ⟨said ++ news, ?_, ?_⟩
    · rw [run_of_act hact, hnews, hsaid, List.append_assoc]
    · rw [List.filter_append, hroutine, hquiet]
      rfl

variable {c : Context L}

theorem length_handouts (bound : Nat) (c : Context L) :
    (c.drainWithin caller bound).1 = (c.handouts caller bound).length := by
  induction bound generalizing c with
  | zero => rfl
  | succ bound ih =>
    rcases hpop : c.events.pop? with _ | ⟨entry, events⟩
    · rw [handouts_of_idle hpop, drainWithin_of_idle hpop]
      rfl
    · rw [handouts_of_pop hpop, drainWithin_of_pop hpop]
      exact congrArg (· + 1) (ih _)

theorem pending_drainWithin {bound : Nat} (hbound : c.events.pending ≤ bound) :
    (c.drainWithin caller bound).2.events.pending = 0 := by
  induction bound generalizing c with
  | zero => exact Nat.le_zero.mp hbound
  | succ bound ih =>
    rcases hpop : c.events.pop? with _ | ⟨entry, events⟩
    · rw [drainWithin_of_idle hpop]
      exact pop?_eq_none.mp hpop
    · rw [drainWithin_of_pop hpop]
      exact ih (pending_next_le caller hpop hbound)

theorem inTurn_handouts (caller : Caller) {bound : Nat} (hbound : c.events.pending ≤ bound) :
    Handout.InTurn caller c.events.queue.entries (c.handouts caller bound) := by
  have hidle : ∀ {c : Context L}, c.events.pop? = none →
      Handout.InTurn caller c.events.queue.entries [] := by
    intro c hpop
    rw [List.length_eq_zero_iff.mp (pop?_eq_none.mp hpop)]
    exact .nil
  induction bound generalizing c with
  | zero => exact hidle (pop?_eq_none.mpr (Nat.le_zero.mp hbound))
  | succ bound ih =>
    rcases hpop : c.events.pop? with _ | ⟨entry, events⟩
    · rw [handouts_of_idle hpop]
      exact hidle hpop
    · rw [handouts_of_pop hpop, entries_take hpop]
      obtain ⟨keep, hentries, hgone⟩ := thinned_respond caller entry (c.take events)
      refine .cons (h := ⟨entry, c.take events, _⟩) keep hgone ?_
      rw [← hentries]
      exact ih (pending_next_le caller hpop hbound)

theorem free_handouts (bound : Nat) (c : Context L) :
    ∀ h ∈ c.handouts caller bound, h.ending?.isSome = true := by
  induction bound generalizing c with
  | zero => exact fun _ h => absurd h List.not_mem_nil
  | succ bound ih =>
    rcases hpop : c.events.pop? with _ | ⟨entry, events⟩
    · rw [handouts_of_idle hpop]
      exact fun _ h => absurd h List.not_mem_nil
    · rw [handouts_of_pop hpop]
      exact List.forall_mem_cons.mpr ⟨rfl, ih _⟩

/-- The tolls of a drain are those of its handouts. -/
theorem tolls_handouts (bound : Nat) (c : Context L) :
    c.drainTollsWithin caller bound =
      (c.handouts caller bound).flatMap fun h =>
        .callback :: h.start.respondTolls caller h.entry := by
  induction bound generalizing c with
  | zero => rfl
  | succ bound ih =>
    rcases hpop : c.events.pop? with _ | ⟨entry, events⟩
    · rw [handouts_of_idle hpop, drainTollsWithin, hpop]
      rfl
    · rw [handouts_of_pop hpop, drainTollsWithin, hpop, List.flatMap_cons]
      exact congrArg (Toll.callback :: (c.take events).respondTolls caller entry ++ ·) (ih _)

theorem reported_respond (caller : Caller) (entry : PendingEvent L.Callback) (c : Context L) :
    ∃ news, (c.respond caller entry).status = c.status ++ news ∧
      news.filter (·.kind == .errored) =
        (Handout.notice? caller ⟨entry, c, some (c.answer caller entry).1⟩).toList := by
  obtain ⟨news, hnews, hquiet⟩ :=
    said_run caller (L.respond entry.definition.callback entry.captures caller) c
  rw [respond_eq]
  unfold noted Handout.notice?
  cases Handout.fault? ⟨entry, c, some (c.answer caller entry).1⟩ with
  | none => exact ⟨news, hnews, hquiet⟩
  | some fault =>
    refine ⟨news ++ [.thread caller.pid caller.name (.callbackFaulted entry.name fault)], ?_, ?_⟩
    · rw [← List.append_assoc]
      exact congrArg (· ++ _) hnews
    · rw [List.filter_append, hquiet]
      rfl

theorem reported_handouts (bound : Nat) (c : Context L) :
    ∃ news, (c.drainWithin caller bound).2.status = c.status ++ news ∧
      news.filter (·.kind == .errored) =
        (c.handouts caller bound).filterMap (Handout.notice? caller) := by
  induction bound generalizing c with
  | zero => exact ⟨[], (List.append_nil _).symm, rfl⟩
  | succ bound ih =>
    rcases hpop : c.events.pop? with _ | ⟨entry, events⟩
    · rw [handouts_of_idle hpop, drainWithin_of_idle hpop]
      exact ⟨[], (List.append_nil _).symm, rfl⟩
    · rw [handouts_of_pop hpop, drainWithin_of_pop hpop]
      obtain ⟨said, hsaid, hfault⟩ := reported_respond caller entry (c.take events)
      obtain ⟨news, hnews, hfaults⟩ := ih ((c.take events).respond caller entry)
      refine ⟨said ++ news, ?_, ?_⟩
      · rw [hnews, hsaid, List.append_assoc]
        rfl
      · rw [List.filter_append, hfault, hfaults, List.filterMap_cons]
        cases Handout.notice? caller ⟨entry, c.take events, _⟩ <;> rfl

theorem sum_tolls_handouts (log : List (Handout L)) :
    ((log.flatMap fun h => .callback :: h.start.respondTolls caller h.entry).map Toll.cost).sum =
      (log.map fun h => 1 + h.consumed caller).sum := by
  induction log with
  | nil => rfl
  | cons h log ih =>
    rw [List.flatMap_cons, List.map_append, List.sum_append, ih, List.map_cons, List.sum_cons,
      List.map_cons, List.sum_cons]
    rfl

/-- What a drain charges. -/
theorem used_drainWithin (bound : Nat) (hused : c.budget.used ≤ maxWord32) :
    (c.drainWithin caller bound).2.budget.used = min (c.budget.used +
      ((c.handouts caller bound).map fun h => 1 + h.consumed caller).sum) maxWord32 := by
  have hpaid : Toll.Paid caller c.budget (c.drainTollsWithin caller bound)
      (c.drainWithin caller bound).2.budget := (Pays.drainWithin bound c).paid
  rw [hpaid.eq_foldl, Toll.used_foldl_spend caller _ _ hused, Toll.foldl_cost _ hused,
    tolls_handouts, sum_tolls_handouts]

end Context

/-! ## The law -/

/-- **The law of handing out matches** in a context. -/
structure HandoutLaw (caller : Caller) (c : Context L) : Prop where
  /-- An outermost request for the waiting matches comes to an end. -/
  ends : ∃ log count d, DoesEvents caller c.desk log count d
  /-- At its end the matches have been handed out. -/
  done : ∀ log count d, DoesEvents caller c.desk log count d →
    HandedOut caller c log count d ∧ (count, d.context) = c.drain caller
  /-- A nested one, at whatever point and whatever callbacks are running, does nothing. -/
  nested : ∀ running log count d, DoesEvents caller ⟨c, true, running⟩ log count d ↔
    log = [] ∧ count = 0 ∧ d = ⟨c, true, running⟩
  /-- The code of a step is followed by the model in all this, and leaves the flag down. -/
  steps : ∀ (script : L.Script) ending d,
    Runs caller (L.step script caller) (c.charge 1).desk ending d ↔
      ending = (c.step caller script).1 ∧ d = (c.step caller script).2.desk

/-- **The law of handing out matches holds** in every state of a processor, whatever the callbacks
do. -/
theorem handout_law (caller : Caller) (c : Context L) : HandoutLaw caller c where
  ends := ⟨_, _, _, doesEvents_iff.mpr ⟨rfl, rfl, rfl⟩⟩
  done log count d h := by
    obtain ⟨rfl, rfl, rfl⟩ := doesEvents_iff.mp h
    have hpending : c.events.pending ≤ c.events.pending := Nat.le_refl _
    have hturn := Context.inTurn_handouts caller hpending
    exact ⟨⟨rfl, hturn.length_le, Context.pending_drainWithin hpending,
      Context.length_handouts _ c, hturn, Context.used_drainWithin _, Context.reported_handouts _ c,
      Context.free_handouts _ c⟩, rfl⟩
  nested running log count d := doesEvents_of_draining rfl
  steps script ending d := runs_desk_iff

end Heartbeat

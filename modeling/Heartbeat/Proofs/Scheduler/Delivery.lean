import Heartbeat.Proofs.Scheduler.View
import Heartbeat.Proofs.Thread.Calls
import Mathlib.Algebra.Order.Ring.Nat

/-!
# Delivery of matches

The events of a thread are changed by lines that are fed while it is active and not paused, and by
its own code, in a dispatch and in its steps. Along a run this gives a log of deeds for every
thread, whose processor is the one that the calls in the log lead to. So the ledger of a processor
tells what becomes of every match in every run.

* `eventLog`: what is done to the events of a thread in a row of moves.
* `Path.attended`: the processor of a thread is the one that its log leads to.
* `delivery_law_of_create`: every match is delivered once, or dropped, or discarded, or waits.
-/

namespace Heartbeat

variable {L : Language} {now : Millis}

/-- What is done to the events of the thread in a move: its code runs in its service, and a line is
fed to it while it is active and not paused. -/
def View.eventDeeds (now : Millis) (world : L.World) (v : View L) :
    Move L → List (EventDeed L.Callback)
  | .serve pid =>
    if v.pid = pid then
      match v.thread? with
      | none => []
      | some t => t.serviceEvents v.options.turbo (v.options.dispatch == .onResume) now world
    else []
  | .feed line =>
    match v.thread? with
    | none => []
    | some t => if !t.isActive || t.state.isPaused then [] else [.call (.feed line)]
  | _ => []

/-- What is done to the events of the thread of a process identifier in a row of moves. -/
def eventLog (p : Pid) : List (Millis × Move L) → Scheduler L → List (EventDeed L.Callback)
  | [], _ => []
  | (now, m) :: moves, s =>
    (s.view p).eventDeeds now s.world m ++ eventLog p moves (m.apply now s)

namespace View

open EventDeed (Traced)

variable {v v' : View L} {world : L.World} {next : Pid} {t : Thread L}

/-- What a step does to the events of the thread: deeds lead from those of the thread before it to
those of the thread behind it, or there is none of the two. -/
def Leads (next : Pid) (v : View L) (deeds : List (EventDeed L.Callback)) (v' : View L) : Prop :=
  (∃ t t', v.thread? = some t ∧ v'.thread? = some t' ∧ Traced L.engine t.events deeds t'.events) ∨
    (deeds = [] ∧ ∀ t', v'.thread? = some t' →
      v.pid = next ∧ t'.events = .empty v.options.queueLimit?)

theorem leads_of_map {f : Thread L → Thread L} (hthread : v'.thread? = v.thread?.map f)
    (hf : ∀ t, (f t).events = t.events) : Leads next v [] v' := by
  cases ht : v.thread? with
  | none =>
    rw [ht] at hthread
    exact .inr ⟨rfl, fun t' ht' => absurd (hthread.symm.trans ht') nofun⟩
  | some t =>
    rw [ht] at hthread
    refine .inl ⟨t, f t, ht, hthread, ?_⟩
    rw [hf]
    exact .nil _ _

theorem leads_of_same (hthread : v'.thread? = v.thread?) : Leads next v [] v' :=
  leads_of_map (hthread.trans Option.map_id'.symm) fun _ => rfl

/-- **What a move does to the events of a thread is what is listed for it.** -/
theorem leads_behind (now : Millis) (world : L.World) (next : Pid) (m : Move L) (v : View L) :
    Leads next v (v.eventDeeds now world m) (v.behind now world next m) := by
  cases m with
  | enroll name path script args =>
    simp only [behind, eventDeeds]
    split
    · rename_i hown
      exact .inr ⟨rfl, fun t' ht' => ⟨hown, by rw [← Option.some.inj ht']; rfl⟩⟩
    · exact leads_of_same rfl
  | serve pid =>
    simp only [behind, eventDeeds]
    split
    · cases ht : v.thread? with
      | none =>
        refine .inr ⟨rfl, fun t' ht' => ?_⟩
        unfold serve at ht'
        rw [ht] at ht'
        exact absurd (ht.symm.trans ht') nofun
      | some t =>
        exact .inl ⟨t, _, ht, thread_serve ht now world, t.traced_service _ _ now world⟩
    · exact leads_of_same rfl
  | mark pid =>
    simp only [behind, eventDeeds]
    split
    · exact leads_of_map (thread_abandon v) fun _ => rfl
    · exact leads_of_same rfl
  | pause pid =>
    simp only [behind, eventDeeds]
    split
    · exact leads_of_map (thread_changeState _ v) fun _ => rfl
    · exact leads_of_same rfl
  | resume pid =>
    simp only [behind, eventDeeds]
    split
    · exact leads_of_map (thread_changeState _ v) fun _ => rfl
    · exact leads_of_same rfl
  | feed line =>
    simp only [behind, eventDeeds, feed]
    cases ht : v.thread? with
    | none => exact leads_of_same ht.symm
    | some t =>
      refine .inl ⟨t, _, ht, rfl, ?_⟩
      by_cases hdeaf : (!t.isActive || t.state.isPaused) = true
      · simp only [if_pos hdeaf, Thread.feed]
        exact .nil _ _
      · simp only [if_neg hdeaf, Thread.feed]
        exact .single rfl
  | reap pid =>
    simp only [behind, eventDeeds]
    split
    · exact .inr ⟨rfl, fun t' ht' => absurd ((thread_reap v now).symm.trans ht') nofun⟩
    · exact leads_of_same rfl
  | forget path => exact leads_of_same rfl
  | refuse e => exact leads_of_same rfl
  | collect retention => exact leads_of_same rfl
  | setTurbo turbo => exact leads_of_same rfl
  | drain => exact leads_of_same rfl
  | outside library world' => exact leads_of_same rfl

/-- **A log leads to the events of the thread**, and what is handed out is what its calls take; an
identifier that has not been handed out has no log. -/
structure Attended (limit? : Option Nat) (next : Pid) (log : List (EventDeed L.Callback))
    (v : View L) : Prop where
  limit : v.options.queueLimit? = limit?
  taken : (EventProcessor.empty limit?).taken L.engine (EventDeed.calls log) = EventDeed.invoked log
  thread : ∀ t, v.thread? = some t →
    t.events = (EventProcessor.empty limit?).after L.engine (EventDeed.calls log)
  fresh : next ≤ v.pid → log = [] ∧ v.thread? = none

namespace Attended

variable {limit? : Option Nat} {log deeds : List (EventDeed L.Callback)}

theorem step (h : Attended limit? next log v) (hleads : Leads next v deeds v')
    (hpid : v'.pid = v.pid) (hlimit : v'.options.queueLimit? = v.options.queueLimit?)
    {next' : Pid} (hnext : next ≤ next') (hfree : next' ≤ v'.pid → v'.thread? = none) :
    Attended limit? next' (log ++ deeds) v' := by
  rcases hleads with ⟨t, t', ht, ht', htraced⟩ | ⟨rfl, hborn⟩
  · have hlog : Traced L.engine (EventProcessor.empty limit?) log t.events :=
      ⟨h.thread t ht, h.taken⟩
    have hboth := hlog.append htraced
    refine ⟨hlimit.trans h.limit, hboth.taken, fun u hu => ?_, fun hle => ?_⟩
    · obtain rfl : t' = u := Option.some.inj (ht'.symm.trans hu)
      exact hboth.after
    · have hnone := (h.fresh (Nat.le_trans hnext (hpid ▸ hle))).2
      exact absurd (ht.symm.trans hnone) nofun
  · rw [List.append_nil]
    refine ⟨hlimit.trans h.limit, h.taken, fun t' ht' => ?_, fun hle => ?_⟩
    · obtain ⟨hown, hevents⟩ := hborn t' ht'
      obtain ⟨rfl, -⟩ := h.fresh (Nat.le_of_eq hown.symm)
      rw [hevents, h.limit]
      rfl
    · exact ⟨(h.fresh (Nat.le_trans hnext (hpid ▸ hle))).1, hfree hle⟩

end Attended

end View

/-- An identifier that has not been handed out has no thread. -/
theorem Scheduler.Accord.no_thread {s : Scheduler L} (hacc : s.Accord) {p : Pid}
    (hfree : s.nextPid ≤ p) : s.threads.find? p = none := by
  have hslot := (hacc.slots p).eq_free (decide_eq_false fun h => Nat.not_lt_of_le hfree h.2)
  exact congrArg Slot.thread? hslot

/-- **Along every path the log of a thread leads to its events.** -/
theorem Path.attended {s s' : Scheduler L} {moves : List (Millis × Move L)} (h : Path s moves s')
    (hacc : s.Accord) {limit? : Option Nat} {p : Pid} {log : List (EventDeed L.Callback)}
    (hlog : View.Attended limit? s.nextPid log (s.view p)) :
    View.Attended limit? s'.nextPid (log ++ eventLog p moves s) (s'.view p) := by
  induction h generalizing log with
  | nil =>
    rw [eventLog, List.append_nil]
    exact hlog
  | @cons s s' m moves now hfits _ ih =>
    have hacc' := Move.accord hfits hacc now
    have hleads := View.leads_behind now s.world s.nextPid m (s.view p)
    rw [← Scheduler.view_apply hfits] at hleads
    obtain ⟨turbo, hoptions⟩ := Move.exists_turbo m now s
    have hlimit : (m.apply now s).options.queueLimit? = s.options.queueLimit? := by rw [hoptions]
    rw [eventLog, ← List.append_assoc]
    exact ih hacc' (hlog.step hleads rfl hlimit (Move.nextPid_le m now s) hacc'.no_thread)

/-! ## Lines -/

/-- How many matches a processor has kept or dropped. -/
def EventProcessor.received {κ : Type} (p : EventProcessor κ) : Nat := p.pending + p.dropped

theorem Thread.received_feed (t : Thread L) (line : String) :
    (t.feed line).2.events.received = t.events.received + (t.feed line).1 := by
  unfold Thread.feed
  split
  · rfl
  · exact EventQueue.size_pushAll _ _

/-- A line is counted as many times as the threads receive a match for it. -/
theorem Scheduler.count_feed (s : Scheduler L) (line : String) :
    (s.feed line).1 = (s.threads.members.map fun t =>
      (t.feed line).2.events.received - t.events.received).sum := by
  show s.threads.members.foldr (fun t count => (t.feed line).1 + count) 0 = _
  induction s.threads.members with
  | nil => rfl
  | cons t threads ih =>
    rw [List.foldr_cons, ih, List.map_cons, List.sum_cons, Thread.received_feed,
      Nat.add_sub_cancel_left]

/-! ## Runs -/

/-- **The law of delivery** in the run of a row of operations from a state: what holds at every
moment, the middle of an operation included, for the thread of every identifier. Its log is what was
done to its events: the lines that were fed to it while it was active and not paused, and what its
own code did. -/
structure DeliveryLaw (ops : List (Millis × Operation L)) (s₀ : Scheduler L) : Prop where
  /-- The events of a thread are those that its log leads to. -/
  events : ∀ n p t, (moment ops s₀ n).threads.find? p = some t →
    t.events = (EventProcessor.empty s₀.options.queueLimit?).after L.engine
      (EventDeed.calls (eventLog p ((history ops s₀).take n) s₀))
  /-- Every match that was queued has one ending, as the ledger of its calls tells. -/
  delivered : ∀ n p, EventProcessor.Delivered L.engine s₀.options.queueLimit?
    (EventDeed.calls (eventLog p ((history ops s₀).take n) s₀))
  /-- The matches that are answered are those that were handed to their callbacks, each once, in
  the order in which they were queued. -/
  invoked : ∀ n p, (EventProcessor.ledger L.engine s₀.options.queueLimit?
      (EventDeed.calls (eventLog p ((history ops s₀).take n) s₀))).of .answered =
    EventDeed.invoked (eventLog p ((history ops s₀).take n) s₀)
  /-- Without a limit, and with no event unregistered or replaced, they and those in the queue are
  all that were queued. -/
  whole : ∀ n p t, (moment ops s₀ n).threads.find? p = some t → s₀.options.queueLimit? = none →
    EventProcessor.Undisturbed L.engine none
        (EventDeed.calls (eventLog p ((history ops s₀).take n) s₀)) →
      EventDeed.invoked (eventLog p ((history ops s₀).take n) s₀) ++ t.events.queue.entries =
        EventProcessor.made L.engine (.empty none)
          (EventDeed.calls (eventLog p ((history ops s₀).take n) s₀))
  /-- A line that is fed is counted as many times as matches are queued or dropped for it. -/
  counted : ∀ n line, ((moment ops s₀ n).feed line).1 =
    ((moment ops s₀ n).threads.members.map fun t =>
      (t.feed line).2.events.received - t.events.received).sum

/-- **Every match is delivered exactly once and in order**, or dropped, or discarded, or still
waits, in every run, whatever the host does and whatever the scripts and callbacks do. -/
theorem delivery_law_of_create (options : SchedulerOptions) (library : ScriptLibrary)
    (searchPath : List ScriptPath) (world : L.World) (start : Millis) (clock : Clock)
    (ops : List (Millis × Operation L)) :
    DeliveryLaw ops (Scheduler.create (L := L) options library searchPath world start clock) := by
  have hacc := Scheduler.accord_create (L := L) options library searchPath world start clock
  have hempty : ∀ p, (Scheduler.create (L := L) options library searchPath world start
      clock).threads.find? p = none := fun _ => rfl
  generalize Scheduler.create options library searchPath world start clock = s₀ at hacc hempty ⊢
  have hattended : ∀ n p, View.Attended s₀.options.queueLimit? (moment ops s₀ n).nextPid
      (eventLog p ((history ops s₀).take n) s₀) ((moment ops s₀ n).view p) := by
    intro n p
    have hstart : View.Attended s₀.options.queueLimit? s₀.nextPid [] (s₀.view p) :=
      ⟨rfl, rfl, fun t ht => absurd ((hempty p).symm.trans ht) nofun, fun _ => ⟨rfl, hempty p⟩⟩
    exact (path_moment ops s₀ (Nat.zero_le n)).attended hacc hstart
  have hinvoked := fun n p =>
    (EventProcessor.delivered L.engine s₀.options.queueLimit?
      (EventDeed.calls (eventLog p ((history ops s₀).take n) s₀))).answered.trans
        (hattended n p).taken
  refine ⟨fun n p => (hattended n p).thread, fun n p => EventProcessor.delivered _ _ _, hinvoked,
    fun n p t ht hlimit hundisturbed => ?_, fun n => (moment ops s₀ n).count_feed⟩
  have hwhole := (EventProcessor.delivered L.engine none _).whole rfl hundisturbed
  have htaken := (hattended n p).taken
  have hevents := (hattended n p).thread t ht
  rw [hlimit] at htaken hevents
  rw [← htaken, hevents]
  exact hwhole

end Heartbeat

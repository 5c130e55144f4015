import Heartbeat.Proofs.Process.Roster
import Heartbeat.Proofs.Thread.Service
import Heartbeat.Scheduler.Tick

/-!
# What can become of a process identifier

A scheduler keeps a thread and an entry for a process identifier, in two maps. Whatever it does,
only a few things can happen to the two together: `Fate` lists them, with what the thread does and
what is reported of it.

* `Slot`: the thread and the entry of an identifier.
* `Slot.Accord`: the two fit together.
* `Fate.accord`: they fit together whatever happens.
* `Fate.run`: what happens is a piece of the life of the thread.
-/

namespace Heartbeat

variable {L : Language} {now : Millis}

/-! ## Ends -/

/-- The entry of a thread that ended. -/
def ThreadOutcome.close (outcome : ThreadOutcome) (now : Millis) (e : ProcessEntry) :
    ProcessEntry :=
  match outcome with
  | .exited values => e.exit now values
  | .stopped => e.exit now []
  | .errored fault => e.fail now fault.detail

/-- What is reported of a thread that ended. -/
def ThreadOutcome.report : ThreadOutcome → ThreadReport
  | .exited values => .exited values
  | .stopped => .stopped
  | .errored fault => .faulted fault.detail

namespace Thread.ServiceOutcome

/-- The end that a service led to, if it did. -/
def end? : ServiceOutcome → Option ThreadOutcome
  | .resumed (.finished outcome) => some outcome
  | _ => none

/-- The entry of a thread behind its service. -/
def close (outcome : ServiceOutcome) (now : Millis) (e : ProcessEntry) : ProcessEntry :=
  match outcome.end? with
  | some outcome => outcome.close now e
  | none => e

/-- What is reported of the end that a service led to. -/
def closing (outcome : ServiceOutcome) : List ThreadReport :=
  (outcome.end?.map ThreadOutcome.report).toList

end Thread.ServiceOutcome

/-! ## Slots -/

/-- What a scheduler knows of a process identifier. -/
structure Slot (L : Language) where
  thread? : Option (Thread L)
  listed? : Option ProcessEntry
  /-- Whether the identifier has been handed out. -/
  isTaken : Bool

/-- The slot of a process identifier. -/
def Scheduler.slot (s : Scheduler L) (p : Pid) : Slot L :=
  ⟨s.threads.find? p, s.table.find? p, decide (0 < p ∧ p < s.nextPid)⟩

/-- An entry describes the thread of a script that goes on. -/
structure ProcessEntry.Describes (e : ProcessEntry) (t : Thread L) : Prop where
  name : e.name = t.name
  path : e.path = t.path
  arguments : e.arguments = t.args
  endTime? : e.endTime? = none
  status : e.status = t.state.status

/-- An entry is closed: the run has ended, and its status says so. -/
structure ProcessEntry.IsClosed (e : ProcessEntry) : Prop where
  ended : e.endTime?.isSome = true
  terminal : e.status.isTerminal = true

theorem ProcessEntry.Describes.isLive {e : ProcessEntry} {t : Thread L} (h : e.Describes t) :
    e.isLive = true := by
  unfold ProcessEntry.isLive
  rw [h.endTime?]
  rfl

theorem ProcessEntry.IsClosed.not_live {e : ProcessEntry} (h : e.IsClosed) : e.isLive = false := by
  unfold ProcessEntry.isLive
  rw [← Option.not_isSome, h.ended]
  rfl

namespace Slot

/-- Where the thread of the identifier is in its life: one that was removed is at the end. -/
def life (slot : Slot L) : Life L.Condition :=
  match slot.thread? with
  | some t => t.life
  | none => if slot.isTaken then .finished else .unborn

/-- A life that is not over is that of an active thread. -/
theorem thread_of_awake {slot : Slot L} {state : ExecutionState L.Condition}
    (h : slot.life = .awake state) :
    ∃ t, slot.thread? = some t ∧ t.isActive = true ∧ t.state = state := by
  unfold life at h
  cases ht : slot.thread? with
  | none =>
    simp only [ht] at h
    split at h <;> exact absurd h nofun
  | some t =>
    simp only [ht] at h
    by_cases hactive : t.isActive = true
    · rw [Thread.life_of_active hactive] at h
      exact ⟨t, rfl, hactive, Life.awake.inj h⟩
    · have hover : t.life = .finished := if_neg hactive
      exact absurd (hover.symm.trans h) nofun

/-- **The entry belongs to the thread.** An identifier is free, or its script goes on and has a live
entry that describes it, or its script has ended and its entry is closed, as far as the two are
still there. -/
inductive Accord : Slot L → Prop
  | free : Accord ⟨none, none, false⟩
  | live {t : Thread L} {e : ProcessEntry} (hscript : t.isTerminated = false)
      (hdesc : e.Describes t) : Accord ⟨some t, some e, true⟩
  | closed {t? : Option (Thread L)} {e? : Option ProcessEntry}
      (ht : ∀ t, t? = some t → t.isTerminated = true) (he : ∀ e, e? = some e → e.IsClosed) :
      Accord ⟨t?, e?, true⟩

end Slot

/-! ## Fates -/

/-- **What can become of an identifier at a time**: what its thread does, what is reported of it,
and the slot behind it. -/
inductive Fate (now : Millis) : Slot L → List (Act L) → List ThreadReport → Slot L → Prop
  | idle (slot : Slot L) : Fate now slot [] [] slot
  | born (p : Pid) (name path : String) (args : List String) (script : L.Script)
      (queueLimit? : Option Nat) :
      Fate now ⟨none, none, false⟩ [.started] [.started]
        ⟨some (.start p name path args script queueLimit?),
          some (.started p name path args now), true⟩
  | rested {t : Thread L} {e? : Option ProcessEntry} {isTaken : Bool} (turbo : Nat)
      (hactive : t.isActive = true) (hpaused : t.state.isPaused = true) :
      Fate now ⟨some t, e?, isTaken⟩ [] [] ⟨some (t.beginTick turbo), e?, isTaken⟩
  | served {t : Thread L} {e : ProcessEntry} {isTaken : Bool} (turbo : Nat) (dispatchFirst : Bool)
      (world : L.World) (talk : List ThreadReport) (hactive : t.isActive = true)
      (hawake : t.state.isPaused = false) (htalk : ∀ r ∈ talk, r.isTalk = true) :
      Fate now ⟨some t, some e, isTaken⟩
        ((t.serviceDeeds turbo dispatchFirst now world).map .did)
        (talk ++ (t.service turbo dispatchFirst now world).value.closing)
        ⟨some (t.service turbo dispatchFirst now world).thread,
          some ((t.service turbo dispatchFirst now world).value.close now e), isTaken⟩
  | heard {t : Thread L} {e? : Option ProcessEntry} {isTaken : Bool} (line : String)
      (hactive : t.isActive = true) (hawake : t.state.isPaused = false) :
      Fate now ⟨some t, e?, isTaken⟩ [.heard line (t.feed line).1] []
        ⟨some (t.feed line).2, e?, isTaken⟩
  | paused {t : Thread L} {e : ProcessEntry} {isTaken : Bool} (hactive : t.isActive = true)
      (hawake : t.state.isPaused = false) :
      Fate now ⟨some t, some e, isTaken⟩ [.paused] [.paused]
        ⟨some { t with state := t.state.pause }, some { e with status := .paused }, isTaken⟩
  | resumed {t : Thread L} {e : ProcessEntry} {isTaken : Bool} (hactive : t.isActive = true)
      (hpaused : t.state.isPaused = true) :
      Fate now ⟨some t, some e, isTaken⟩ [.resumed] [.resumed]
        ⟨some { t with state := t.state.resume }, some { e with status := .running }, isTaken⟩
  | marked {t : Thread L} {e? : Option ProcessEntry} {isTaken : Bool}
      (hactive : t.isActive = true) :
      Fate now ⟨some t, e?, isTaken⟩ [.marked] [.stopping] ⟨some t.abandon, e?, isTaken⟩
  | stopped {t : Thread L} {e : ProcessEntry} {isTaken : Bool} (hmarked : t.abandoned = true)
      (hscript : t.isTerminated = false) :
      Fate now ⟨some t, some e, isTaken⟩ [.reaped] [.stopped]
        ⟨none, some (e.exit now []), isTaken⟩
  | buried {t : Thread L} {e? : Option ProcessEntry} {isTaken : Bool}
      (hended : t.isTerminated = true) :
      Fate now ⟨some t, e?, isTaken⟩ [.reaped] [] ⟨none, e?, isTaken⟩
  | forgotten {t? : Option (Thread L)} {e : ProcessEntry} {isTaken : Bool}
      (hclosed : e.endTime?.isSome = true) :
      Fate now ⟨t?, some e, isTaken⟩ [] [] ⟨t?, none, isTaken⟩

namespace Thread

variable {t : Thread L}

/-- A thread whose script goes on behind its service is the same thread, with its entry as before;
an ended one has a closed entry. -/
theorem service_closes (h : t.isActive = true) (turbo : Nat) (dispatchFirst : Bool) (now : Millis)
    (world : L.World) (e : ProcessEntry) :
    ((t.service turbo dispatchFirst now world).thread.isTerminated = false ∧
        (t.service turbo dispatchFirst now world).value.close now e = e ∧
        (t.service turbo dispatchFirst now world).value.closing = []) ∨
      ((t.service turbo dispatchFirst now world).thread.isTerminated = true ∧
        ∃ outcome : ThreadOutcome, outcome ≠ .stopped ∧
          (t.service turbo dispatchFirst now world).value.close now e = outcome.close now e ∧
          (t.service turbo dispatchFirst now world).value.closing = [outcome.report]) := by
  have hends := ends_service h turbo dispatchFirst now world
  revert hends
  generalize (t.service turbo dispatchFirst now world).thread = t'
  generalize (t.service turbo dispatchFirst now world).value = value
  intro hends
  cases value with
  | notEligible => exact .inl ⟨hends, rfl, rfl⟩
  | resumed outcome =>
    cases outcome with
    | suspended => exact .inl ⟨hends, rfl, rfl⟩
    | finished outcome => exact .inr ⟨hends.1, outcome, hends.2, rfl, rfl⟩

end Thread

theorem ThreadOutcome.isClosed_close (outcome : ThreadOutcome) (e : ProcessEntry) :
    (outcome.close now e).IsClosed := by
  cases outcome <;> exact ⟨rfl, rfl⟩

theorem Thread.feed_of_awake {t : Thread L} (hactive : t.isActive = true)
    (hawake : t.state.isPaused = false) (line : String) :
    t.feed line =
      ((t.events.feed L.engine line).1, { t with events := (t.events.feed L.engine line).2 }) := by
  unfold Thread.feed
  rw [hactive, hawake]
  rfl

namespace Slot.Accord

variable {t : Thread L} {e? : Option ProcessEntry} {e : ProcessEntry} {isTaken : Bool}

theorem eq_free {slot : Slot L} (h : slot.Accord) (hfree : slot.isTaken = false) :
    slot = ⟨none, none, false⟩ := by
  cases h with
  | free => rfl
  | live _ _ => exact absurd hfree nofun
  | closed _ _ => exact absurd hfree nofun

/-- The slot of a thread whose script goes on. -/
theorem of_script (h : Accord ⟨some t, e?, isTaken⟩) (hscript : t.isTerminated = false) :
    isTaken = true ∧ ∃ e, e? = some e ∧ e.Describes t := by
  cases h with
  | live _ hdesc => exact ⟨rfl, _, rfl, hdesc⟩
  | closed ht he =>
    rw [ht t rfl] at hscript
    exact absurd hscript (by simp)

/-- The slot of a thread whose script has ended. -/
theorem of_ended (h : Accord ⟨some t, e?, isTaken⟩) (hended : t.isTerminated = true) :
    isTaken = true ∧ ∀ e, e? = some e → e.IsClosed := by
  cases h with
  | live hscript _ =>
    rw [hended] at hscript
    exact absurd hscript (by simp)
  | closed ht he => exact ⟨rfl, he⟩

/-- A thread whose script goes on is still described when it changes in what its entry does not
show. -/
theorem change {t' : Thread L} (h : Accord ⟨some t, e?, isTaken⟩)
    (hscript : t.isTerminated = false) (hscript' : t'.isTerminated = false)
    (hname : t'.name = t.name) (hpath : t'.path = t.path) (hargs : t'.args = t.args)
    (hstatus : t'.state.status = t.state.status) : Accord ⟨some t', e?, isTaken⟩ := by
  obtain ⟨rfl, e, rfl, hdesc⟩ := h.of_script hscript
  exact .live hscript' ⟨hdesc.name.trans hname.symm, hdesc.path.trans hpath.symm,
    hdesc.arguments.trans hargs.symm, hdesc.endTime?, hdesc.status.trans hstatus.symm⟩

end Slot.Accord

namespace Fate

variable {slot slot' : Slot L} {acts : List (Act L)} {reports : List ThreadReport}

/-- **The entry belongs to the thread, whatever happens.** -/
theorem accord (h : Fate now slot acts reports slot') (hacc : slot.Accord) : slot'.Accord := by
  cases h with
  | idle => exact hacc
  | born p name path args script queueLimit? => exact .live rfl ⟨rfl, rfl, rfl, rfl, rfl⟩
  | rested turbo hactive hpaused =>
    have hscript := Thread.not_terminated_of_active hactive
    exact hacc.change hscript hscript rfl rfl rfl rfl
  | @served t e isTaken turbo dispatchFirst world talk hactive hawake htalk =>
    have hscript := Thread.not_terminated_of_active hactive
    have hstage := Thread.stage_service hactive turbo dispatchFirst now world
    rcases Thread.service_closes hactive turbo dispatchFirst now world e with
      ⟨hscript', hclose, -⟩ | ⟨hended, outcome, -, hclose, -⟩
    · rw [hclose]
      exact hacc.change hscript hscript' hstage.alike.name hstage.alike.path hstage.alike.args
        (ExecutionState.status_congr hstage.paused)
    · obtain ⟨rfl, -⟩ := hacc.of_script hscript
      rw [hclose]
      refine .closed (fun t' ht' => ?_) (fun e' he' => ?_)
      · rw [← Option.some.inj ht']
        exact hended
      · rw [← Option.some.inj he']
        exact outcome.isClosed_close e
  | heard line hactive hawake =>
    have hscript := Thread.not_terminated_of_active hactive
    rw [Thread.feed_of_awake hactive hawake]
    exact hacc.change hscript hscript rfl rfl rfl rfl
  | @paused t e isTaken hactive hawake =>
    obtain ⟨rfl, e₀, he₀, hdesc⟩ := hacc.of_script (Thread.not_terminated_of_active hactive)
    obtain rfl : e = e₀ := Option.some.inj he₀
    refine .live (Thread.not_terminated_of_active hactive)
      ⟨hdesc.name, hdesc.path, hdesc.arguments, hdesc.endTime?, ?_⟩
    exact ((ExecutionState.status_eq_ite _).trans
      (if_pos (ExecutionState.isPaused_pause t.state))).symm
  | @resumed t e isTaken hactive hpaused =>
    obtain ⟨rfl, e₀, he₀, hdesc⟩ := hacc.of_script (Thread.not_terminated_of_active hactive)
    obtain rfl : e = e₀ := Option.some.inj he₀
    refine .live (Thread.not_terminated_of_active hactive)
      ⟨hdesc.name, hdesc.path, hdesc.arguments, hdesc.endTime?, ?_⟩
    have hawake : ¬ t.state.resume.isPaused = true := by
      rw [ExecutionState.isPaused_resume]
      exact Bool.false_ne_true
    exact ((ExecutionState.status_eq_ite _).trans (if_neg hawake)).symm
  | marked hactive =>
    have hscript := Thread.not_terminated_of_active hactive
    exact hacc.change hscript hscript rfl rfl rfl rfl
  | stopped hmarked hscript =>
    obtain ⟨rfl, -⟩ := hacc.of_script hscript
    refine .closed nofun fun e he => ?_
    rw [← Option.some.inj he]
    exact ⟨rfl, rfl⟩
  | buried hended =>
    obtain ⟨rfl, hclosed⟩ := hacc.of_ended hended
    exact .closed nofun hclosed
  | forgotten hclosed =>
    cases hacc with
    | live hscript hdesc =>
      rw [hdesc.endTime?] at hclosed
      exact absurd hclosed (by simp)
    | closed ht he => exact .closed ht nofun

/-- **What happens to an identifier is a piece of the life of its thread.** -/
theorem run (h : Fate now slot acts reports slot') (hacc : slot.Accord) :
    Life.Run slot.life (acts.map (now, ·)) slot'.life := by
  cases h with
  | idle => exact .nil _
  | born p name path args script queueLimit? => exact .single .started
  | rested turbo hactive hpaused => exact .nil _
  | served turbo dispatchFirst world talk hactive hawake htalk =>
    have hstage := Thread.stage_service hactive turbo dispatchFirst now world
    rw [List.map_map]
    exact hstage.life
  | @heard t e? isTaken line hactive hawake =>
    show Life.Run t.life _ (t.feed line).2.life
    rw [Thread.feed_of_awake hactive hawake, Thread.life_of_active hactive,
      Thread.life_of_active (t := { t with events := (t.events.feed L.engine line).2 }) hactive]
    exact .single (.heard line _ hawake)
  | @paused t e isTaken hactive hawake =>
    show Life.Run t.life _ { t with state := t.state.pause }.life
    rw [Thread.life_of_active hactive,
      Thread.life_of_active (t := { t with state := t.state.pause }) hactive]
    exact .single (.paused hawake)
  | @resumed t e isTaken hactive hpaused =>
    show Life.Run t.life _ { t with state := t.state.resume }.life
    rw [Thread.life_of_active hactive,
      Thread.life_of_active (t := { t with state := t.state.resume }) hactive]
    exact .single (.resumed hpaused)
  | @marked t e? isTaken hactive =>
    have hover : t.abandon.life = .finished := if_neg Bool.false_ne_true
    show Life.Run t.life _ t.abandon.life
    rw [Thread.life_of_active hactive, hover]
    exact .single .marked
  | @stopped t e isTaken hmarked hscript =>
    obtain ⟨rfl, -⟩ := hacc.of_script hscript
    have hover : t.life = .finished := by
      unfold Thread.life Thread.isActive
      rw [hmarked]
      exact if_neg Bool.false_ne_true
    show Life.Run t.life _ .finished
    rw [hover]
    exact .single .reaped
  | @buried t e? isTaken hended =>
    obtain ⟨rfl, -⟩ := hacc.of_ended hended
    show Life.Run t.life _ .finished
    rw [Thread.life_of_terminated hended]
    exact .single .reaped
  | forgotten hclosed => exact .nil _

end Fate

end Heartbeat

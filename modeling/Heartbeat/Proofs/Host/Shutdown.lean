import Heartbeat.Proofs.Host.Loop
import Heartbeat.Proofs.Scheduler.Rest
import Heartbeat.Proofs.Scheduler.Round
import Heartbeat.StepScript.Interpreter

/-!
# Shutting down

A shutdown stops every script that is there, and the host ends with the next heartbeat, which clears
them away. But events are taken until then, and a script that one of them starts is stopped by
nobody: it may be live when the host has ended. Without such a start everything has been stopped.

* `Scheduler.IsStopped`: all threads were stopped or have ended, as behind `stopAll`.
* `Loop.last_beat`: a host that shuts down ends with the next heartbeat.
* `shutdown_law_of_create`: what is left when a host has ended behind a shutdown.
* `late_start_survives`: a script that is left.
-/

namespace Heartbeat

variable {L : Language} {now : Millis}

namespace Scheduler

variable {s : Scheduler L} {p : Pid}

/-- All threads were stopped or have ended. -/
def IsStopped (s : Scheduler L) : Prop := ∀ t ∈ s.threads.members, t.isActive = false

/-- A thread is not active behind a row of marks, if it was not before or is among the marked. -/
theorem inactive_abandonAll {pids : List Pid}
    (hmarked : ∀ t, s.threads.find? p = some t → t.isActive = true → p ∈ pids) :
    ∀ t, (s.abandonAll pids).threads.find? p = some t → t.isActive = false := by
  induction pids generalizing s with
  | nil =>
    intro t hfind
    exact Bool.eq_false_iff.mpr fun hactive => List.not_mem_nil (hmarked t hfind hactive)
  | cons q pids ih =>
    refine ih (s := s.abandon q) fun t hfind hactive => ?_
    by_cases hp : p = q
    · subst hp
      rw [find?_abandon_self] at hfind
      obtain ⟨t₀, -, rfl⟩ := Option.map_eq_some_iff.mp hfind
      exact absurd hactive nofun
    · rw [find?_abandon_of_ne hp] at hfind
      exact (List.mem_cons.mp (hmarked t hfind hactive)).resolve_left hp

theorem isStopped_stopAll (s : Scheduler L) : s.stopAll.2.IsStopped := by
  intro t ht
  refine inactive_abandonAll (s := s) (p := t.pid) (fun t' hfind hactive => ?_) t
    (Roster.find?_of_mem ht)
  have hpid : t'.pid = t.pid := Roster.key_of_find? hfind
  exact List.mem_map.mpr ⟨t', mem_activeThreads.mpr ⟨by rw [hpid]; exact hfind, hactive⟩, hpid⟩

/-- Where all threads are stopped, services do nothing. -/
theorem serviceAll_of_isStopped (hstopped : s.IsStopped) (now : Millis) (pids : List Pid) :
    serviceAll now pids s = ([], s) ∧ serviceAllMoves now pids s = [] := by
  have hidle : ∀ {q : Pid}, ¬ ∃ t, s.threads.find? q = some t ∧ t.isActive = true := by
    rintro q ⟨t, hfind, hactive⟩
    exact absurd ((hstopped t (Roster.mem_of_find? hfind)).symm.trans hactive) nofun
  induction pids with
  | nil => exact ⟨rfl, rfl⟩
  | cons q pids ih =>
    unfold serviceAll serviceAllMoves
    rw [service_of_idle hidle, serviceMoves_of_idle hidle]
    simp only [ih]
    exact ⟨rfl, rfl⟩

/-- A heartbeat launches nobody where all threads are stopped. -/
theorem nextPid_tick_of_isStopped (hstopped : s.IsStopped) (now : Millis) :
    (s.tick now).2.nextPid = s.nextPid := by
  refine (path_tick now s).path.nextPid_of_plain
    (List.forall_mem_append.mpr ⟨List.forall_mem_append.mpr ⟨?_, ?_⟩, ?_⟩)
  · rw [(serviceAll_of_isStopped hstopped now _).2]
    nofun
  · exact Move.plain_of_clearance (clearance_sweepMoves _)
  · exact Move.plain_of_clearance (clearance_collectIfDueMoves now _)

end Scheduler

namespace Path

variable {s s' : Scheduler L} {moves : List (Millis × Move L)}

/-- Of the threads that were stopped together, none is ever active again. -/
theorem inactive (h : Path s moves s') (hacc : s.Accord) (hstopped : s.IsStopped) {t : Thread L}
    (ht : t ∈ s'.threads.members) (hlt : t.pid < s.nextPid) : t.isActive = false := by
  have hpos : 0 < t.pid := ((h.accord hacc).consistent.threadPids t ht).1
  have hover : s.IsOver t.pid :=
    ⟨hpos, hlt, fun t₀ hfind => hstopped t₀ (Roster.mem_of_find? hfind)⟩
  have hfind := Roster.find?_of_mem ht
  rcases (h.finished hacc ((Scheduler.isOver_iff hacc).mp hover)).2 with hsame | hgone
  · exact hstopped t (Roster.mem_of_find? (hsame.symm.trans hfind))
  · exact absurd (hgone.symm.trans hfind) nofun

/-- Behind a path on which nobody is launched, all threads are still stopped. -/
theorem isStopped (h : Path s moves s') (hacc : s.Accord) (hstopped : s.IsStopped)
    (hnone : s'.nextPid = s.nextPid) : s'.IsStopped := fun t ht =>
  h.inactive hacc hstopped ht (hnone ▸ ((h.accord hacc).consistent.threadPids t ht).2)

end Path

/-! ## The host -/

/-- Whether a signal asks for the start of a script. -/
def HostSignal.isStart : HostSignal → Bool
  | .event (.run _ _) | .event (.parse _) => true
  | _ => false

namespace Host

variable {h h' : Host L} {signals : List (Millis × HostSignal)}

/-- A host that shuts down does so until it ends. -/
theorem shuttingDown_step (hdown : h.shuttingDown = true) (now : Millis) (signal : HostSignal) :
    (h.step now signal).host.shuttingDown = true := by
  cases signal with
  | beat => exact hdown
  | inputEnds => exact hdown
  | event event =>
    show (h.carryOut now event).2.shuttingDown = true
    unfold carryOut
    cases event with
    | shutdown => rfl
    | info target =>
      simp only
      split <;> exact hdown
    | _ => exact hdown

/-- **A host that shuts down ends with the next heartbeat.** -/
theorem Loop.last_beat (hloop : h.Loop signals h') (hdown : h.shuttingDown = true) :
    ∃ events last, signals = events ++ [(last, .beat)] ∧ ∀ x ∈ events, x.2 ≠ .beat := by
  induction hloop with
  | ends now hends => exact ⟨[], now, rfl, nofun⟩
  | @goesOn h h' signal signals now hopen hgoes hrest ih =>
    obtain ⟨events, last, rfl, hevents⟩ := ih (shuttingDown_step hdown now signal)
    refine ⟨(now, signal) :: events, last, rfl, List.forall_mem_cons.mpr ⟨?_, hevents⟩⟩
    rintro rfl
    have hdone : (h.beat now).ends = true := by
      show (h.shuttingDown || _) = true
      rw [hdown, Bool.true_or]
    exact absurd (hgoes.symm.trans hdone) nofun

/-- Only heartbeats and starts launch threads. -/
theorem nextPid_step {signal : HostSignal} (hbeat : signal ≠ .beat)
    (hquiet : signal.isStart = false) (now : Millis) (h : Host L) :
    (h.step now signal).host.scheduler.nextPid = h.scheduler.nextPid := by
  rw [scheduler_step]
  cases signal with
  | beat => exact absurd rfl hbeat
  | inputEnds => rfl
  | event event =>
    cases event with
    | run script args => exact absurd hquiet nofun
    | parse source => exact absurd hquiet nofun
    | stop target =>
      exact (Scheduler.path_stop h.scheduler target now).path.nextPid_of_plain
        (Move.plain_of_control (Scheduler.control_stopMoves _ target))
    | pause target =>
      exact (Scheduler.path_pause h.scheduler target now).path.nextPid_of_plain
        (Move.plain_of_control (Scheduler.control_pauseMoves _ target))
    | shutdown =>
      exact (Scheduler.path_abandonAll h.scheduler .all now).path.nextPid_of_plain
        (Move.plain_of_control (Scheduler.control_stopMoves _ .all))
    | _ => rfl

theorem nextPid_handleAll (hbeat : ∀ x ∈ signals, x.2 ≠ .beat)
    (hquiet : ∀ x ∈ signals, x.2.isStart = false) (h : Host L) :
    (handleAll signals h).scheduler.nextPid = h.scheduler.nextPid := by
  induction signals generalizing h with
  | nil => rfl
  | cons x signals ih =>
    rw [List.forall_mem_cons] at hbeat hquiet
    exact (ih hbeat.2 hquiet.2 _).trans (nextPid_step hbeat.1 hquiet.1 x.1 h)

end Host

/-- **What a host leaves behind** that has handled a shutdown, the rest of its signals, and so has
come to its end. -/
structure ShutdownLaw (stopped : Host L) (rest : List (Millis × HostSignal)) (h' : Host L) :
    Prop where
  /-- There is one heartbeat behind the shutdown, and it is the last signal. -/
  once : ∃ events last, rest = events ++ [(last, .beat)] ∧ ∀ x ∈ events, x.2 ≠ .beat
  /-- Whoever is live at the end was launched behind the shutdown. -/
  threads : ∀ p ∈ h'.scheduler.livePids, stopped.scheduler.nextPid ≤ p
  /-- So was everyone whose entry has no end. -/
  entries : ∀ e ∈ h'.scheduler.table.members, e.endTime? = none →
    stopped.scheduler.nextPid ≤ e.pid
  /-- If nobody was launched behind the shutdown, nobody is live and every entry has an end. -/
  unlaunched : h'.scheduler.nextPid = stopped.scheduler.nextPid →
    h'.scheduler.livePids = [] ∧ ∀ e ∈ h'.scheduler.table.members, e.endTime?.isSome = true
  /-- Nobody is launched if no event asks for it, whatever the scripts do. -/
  quiet : (∀ x ∈ rest, x.2.isStart = false) →
    h'.scheduler.nextPid = stopped.scheduler.nextPid

/-- The law holds of every end that a host comes to when it shuts down and all its threads are
stopped. -/
theorem shutdown_law_of_loop {stopped h' : Host L} {rest : List (Millis × HostSignal)}
    (hloop : stopped.Loop rest h') (hdown : stopped.shuttingDown = true)
    (hacc : stopped.scheduler.Accord) (hstopped : stopped.scheduler.IsStopped) :
    ShutdownLaw stopped rest h' := by
  have hpath := Host.path_handleAll rest stopped
  rw [hloop.handleAll_eq] at hpath
  obtain ⟨events, last, hrest, hevents⟩ := hloop.last_beat hdown
  have hend : h' = ((Host.handleAll events stopped).beat last).host := by
    rw [← hloop.handleAll_eq, hrest, Host.handleAll_append]
    rfl
  have hconsistent := (hpath.accord hacc).consistent
  -- the last heartbeat leaves active threads only
  have hlate : ∀ t ∈ h'.scheduler.threads.members, stopped.scheduler.nextPid ≤ t.pid := by
    intro t ht
    by_contra hearly
    have hactive : t.isActive = true := by
      rw [hend, Host.scheduler_beat] at ht
      exact Scheduler.active_of_mem_tick (Host.handleAll events stopped).scheduler t ht
    exact absurd ((hpath.inactive hacc hstopped ht (Nat.lt_of_not_le hearly)).symm.trans hactive)
      nofun
  have hentries : ∀ e ∈ h'.scheduler.table.members, e.endTime? = none →
      stopped.scheduler.nextPid ≤ e.pid := by
    intro e he hlive
    obtain ⟨t, ht, hpid, -⟩ := hconsistent.backed e he hlive
    rw [← hpid]
    exact hlate t ht
  refine ⟨⟨events, last, hrest, hevents⟩, fun p hp => ?_, hentries, fun hnone => ⟨?_, ?_⟩, ?_⟩
  · obtain ⟨t, ht, rfl⟩ := List.mem_map.mp hp
    exact hlate t ht
  · refine List.eq_nil_iff_forall_not_mem.mpr fun p hp => ?_
    obtain ⟨t, ht, rfl⟩ := List.mem_map.mp hp
    exact Nat.not_le_of_lt (hnone ▸ (hconsistent.threadPids t ht).2) (hlate t ht)
  · intro e he
    by_contra hlive
    refine Nat.not_le_of_lt (hnone ▸ (hconsistent.entryPids e he).2) (hentries e he ?_)
    simpa using hlive
  · intro hquiet
    rw [hrest, List.forall_mem_append] at hquiet
    have hsame := Host.nextPid_handleAll hevents hquiet.1 stopped
    have hidle := (Host.path_handleAll events stopped).isStopped hacc hstopped hsame
    rw [hend, Host.scheduler_beat]
    exact (Scheduler.nextPid_tick_of_isStopped hidle last).trans hsame

/-- **The law of shutting down holds in every run of a host**, from every state that its scheduler
gets into, in whatever order heartbeats and events come. -/
theorem shutdown_law_of_create (options : SchedulerOptions) (library : ScriptLibrary)
    (searchPath : List ScriptPath) (world : L.World) (start : Millis) (clock : Clock)
    (ops : List (Millis × Operation L)) {h h' : Host L}
    (hstate : h.scheduler = performAll ops (.create options library searchPath world start clock))
    {before rest : List (Millis × HostSignal)} {time : Millis}
    (hloop : h.Loop (before ++ (time, .event .shutdown) :: rest) h') :
    ShutdownLaw (Host.handleAll (before ++ [(time, .event .shutdown)]) h) rest h' := by
  have hacc : h.scheduler.Accord := by
    rw [hstate]
    exact (path_history ops _).accord
      (Scheduler.accord_create options library searchPath world start clock)
  have hbehind := (Host.path_handleAll (before ++ [(time, .event .shutdown)]) h).accord hacc
  rw [Host.handleAll_append] at hbehind ⊢
  cases hloop.rest (List.cons_ne_nil _ _) with
  | goesOn _ _ _ hrest =>
    exact shutdown_law_of_loop hrest rfl hbehind (Scheduler.isStopped_stopAll _)

namespace StepScript

/-- A script that goes on for good. -/
def spinner : String := ":top\nyield\ngoto top"

/-- A host that is kept alive, without a script. -/
def spinnerHost : Host (language Unit) where
  scheduler := .create {} (.ofFiles (.ofList []) "step") [] () 0
  options := { interval := 10, squelch := false, keepAlive := true }

/-- A script that is there at the shutdown is stopped. -/
theorem shutdown_law_of_spinner :
    let signals : List (Millis × HostSignal) :=
      [(0, .event (.parse spinner)), (5, .event .shutdown), (10, .beat)]
    let h' := Host.handleAll signals spinnerHost
    spinnerHost.Loop signals h' ∧
      ShutdownLaw (Host.handleAll (signals.take 2) spinnerHost) [(10, .beat)] h' ∧
      (Host.handleAll (signals.take 1) spinnerHost).scheduler.livePids = [1] ∧
      h'.scheduler.livePids = [] := by
  intro signals h'
  have hloop : spinnerHost.Loop signals h' :=
    .goesOn 0 (.inr rfl) rfl (.goesOn 5 (.inr rfl) rfl (.ends 10 rfl))
  have hlaw : ShutdownLaw
      (Host.handleAll ([(0, .event (.parse spinner))] ++ [(5, .event .shutdown)]) spinnerHost)
      [(10, .beat)] h' := shutdown_law_of_create _ _ _ _ _ _ [] rfl hloop
  exact ⟨hloop, hlaw, by decide +kernel, by decide +kernel⟩

/-- A script that is started between the shutdown and the last heartbeat is live when the host has
ended, and its entry has no end. -/
theorem late_start_survives :
    let signals : List (Millis × HostSignal) :=
      [(0, .beat), (5, .event .shutdown), (5, .event (.parse spinner)), (10, .beat)]
    let h' := Host.handleAll signals spinnerHost
    spinnerHost.Loop signals h' ∧ h'.scheduler.livePids = [1] ∧
      h'.scheduler.table.members.map (fun e => (e.pid, e.endTime?)) = [(1, none)] := by
  intro signals h'
  refine ⟨?_, by decide +kernel, by decide +kernel⟩
  exact .goesOn 0 (.inl rfl) rfl (.goesOn 5 (.inr rfl) rfl
    (.goesOn 5 (.inr rfl) rfl (.ends 10 rfl)))

end StepScript

end Heartbeat

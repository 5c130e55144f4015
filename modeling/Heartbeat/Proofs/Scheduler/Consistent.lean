import Heartbeat.Proofs.Scheduler.History
import Mathlib.Data.List.Intervals

/-!
# The process table and the live threads

The threads and the table are two maps, and most operations change one of them, or one after the
other. Between two moves they agree: slot by slot they are in accord, since no fate of an identifier
breaks the accord.

* `Scheduler.Consistent`: threads and table agree, member by member.
* `Scheduler.Settled`: what a heartbeat leaves behind.
* `consistent_of_create`: they agree in every state that a scheduler gets into, between operations
  and between the moves of one; identifiers are handed out one after another.
-/

namespace Heartbeat

variable {L : Language}

namespace Scheduler

variable {s : Scheduler L} {now : Millis}

/-- **Threads and table agree.** -/
structure Consistent (s : Scheduler L) : Prop where
  /-- A thread whose script goes on has a live entry, which shows whether it is paused. -/
  described : ∀ t ∈ s.threads.members, t.isTerminated = false →
    ∃ e ∈ s.table.members, e.pid = t.pid ∧ e.name = t.name ∧ e.path = t.path ∧
      e.arguments = t.args ∧ e.endTime? = none ∧
      e.status = if t.state.isPaused then .paused else .running
  /-- A live entry belongs to such a thread. -/
  backed : ∀ e ∈ s.table.members, e.endTime? = none →
    ∃ t ∈ s.threads.members, t.pid = e.pid ∧ t.isTerminated = false
  terminal : ∀ e ∈ s.table.members, e.status.isTerminal = true ↔ e.endTime?.isSome = true
  threadPids : ∀ t ∈ s.threads.members, 1 ≤ t.pid ∧ t.pid < s.nextPid
  entryPids : ∀ e ∈ s.table.members, 1 ≤ e.pid ∧ e.pid < s.nextPid

/-- **What a heartbeat leaves behind.** -/
structure Settled (s : Scheduler L) : Prop where
  active : ∀ t ∈ s.threads.members, t.isTerminated = false ∧ t.abandoned = false
  livePids_eq : s.livePids = (s.table.members.filter ProcessEntry.isLive).map ProcessEntry.pid
  isIdle_iff : s.isIdle = true ↔ s.list none = []

/-- A taken slot has a number that has been handed out. -/
theorem pid_of_taken {p : Pid} (h : (s.slot p).isTaken = true) : 1 ≤ p ∧ p < s.nextPid :=
  of_decide_eq_true h

theorem taken_of_accord {slot : Slot L} (h : slot.Accord)
    (hsome : slot.thread?.isSome = true ∨ slot.listed?.isSome = true) : slot.isTaken = true := by
  by_contra hfree
  rw [h.eq_free (Bool.eq_false_iff.mpr hfree)] at hsome
  rcases hsome with hsome | hsome <;> exact absurd hsome nofun

/-- Accord in every slot is agreement member by member. -/
theorem Accord.consistent (h : s.Accord) : s.Consistent := by
  have hthread : ∀ t ∈ s.threads.members, (s.slot t.pid).thread? = some t := fun t ht =>
    Roster.find?_of_mem ht
  have hentry : ∀ e ∈ s.table.members, (s.slot e.pid).listed? = some e := fun e he =>
    Roster.find?_of_mem he
  refine ⟨?_, ?_, ?_, ?_, ?_⟩
  · intro t ht hscript
    obtain ⟨e, he, hdesc⟩ := entry_of_script (hthread t ht) (h.slots t.pid) hscript
    exact ⟨e, Roster.mem_of_find? he, Roster.key_of_find? he, hdesc.name, hdesc.path,
      hdesc.arguments, hdesc.endTime?, hdesc.status.trans t.state.status_eq_ite⟩
  · intro e he hlive
    have hslot := h.slots e.pid
    have hfound := hentry e he
    rcases hs : s.slot e.pid with ⟨t?, e?, isTaken⟩
    rw [hs] at hslot hfound
    cases hslot with
    | free => exact absurd hfound nofun
    | @live t e' hscript hdesc =>
      have ht : s.threads.find? e.pid = some t := congrArg Slot.thread? hs
      exact ⟨t, Roster.mem_of_find? ht, Roster.key_of_find? ht, hscript⟩
    | closed ht hclosed =>
      have hended := (hclosed e hfound).ended
      rw [hlive] at hended
      exact absurd hended nofun
  · intro e he
    have hslot := h.slots e.pid
    have hfound := hentry e he
    rcases hs : s.slot e.pid with ⟨t?, e?, isTaken⟩
    rw [hs] at hslot hfound
    cases hslot with
    | free => exact absurd hfound nofun
    | @live t e' hscript hdesc =>
      obtain rfl : e' = e := Option.some.inj hfound
      rw [hdesc.endTime?, hdesc.status, ExecutionState.status_eq_ite]
      split <;> exact ⟨nofun, nofun⟩
    | closed ht hclosed =>
      exact ⟨fun _ => (hclosed e hfound).ended, fun _ => (hclosed e hfound).terminal⟩
  · intro t ht
    refine pid_of_taken (taken_of_accord (h.slots t.pid) (.inl ?_))
    rw [hthread t ht]
    rfl
  · intro e he
    refine pid_of_taken (taken_of_accord (h.slots e.pid) (.inr ?_))
    rw [hentry e he]
    rfl

theorem slot_create (options : SchedulerOptions) (library : ScriptLibrary)
    (searchPath : List ScriptPath) (world : L.World) (start : Millis) (clock : Clock) (p : Pid) :
    (create (L := L) options library searchPath world start clock).slot p =
      ⟨none, none, false⟩ := by
  have huntaken : decide (0 < p ∧ p < 1) = false :=
    decide_eq_false fun h => Nat.not_lt_of_le h.1 h.2
  exact congrArg (Slot.mk none none) huntaken

theorem accord_create (options : SchedulerOptions) (library : ScriptLibrary)
    (searchPath : List ScriptPath) (world : L.World) (start : Millis) (clock : Clock) :
    (create (L := L) options library searchPath world start clock).Accord := by
  refine ⟨Nat.one_pos, fun p => ?_⟩
  rw [slot_create]
  exact .free

theorem nextPid_create_le (options : SchedulerOptions) (library : ScriptLibrary)
    (searchPath : List ScriptPath) (world : L.World) (start : Millis) (clock : Clock) :
    (create (L := L) options library searchPath world start clock).nextPid ≤ Pid.limit := by
  show 1 ≤ Pid.limit
  decide

theorem life_create (options : SchedulerOptions) (library : ScriptLibrary)
    (searchPath : List ScriptPath) (world : L.World) (start : Millis) (clock : Clock) (p : Pid) :
    ((create (L := L) options library searchPath world start clock).slot p).life = .unborn := by
  rw [slot_create]
  rfl

/-! ## Heartbeats -/

/-- Only active threads are left, and a collection takes none of them away. -/
theorem active_of_mem_tick (s : Scheduler L) :
    ∀ t ∈ (s.tick now).2.threads.members, t.isActive = true := by
  have hrecord : ∀ (pids : List Pid) (s : Scheduler L),
      (pids.foldl (fun s pid => s.recordOutcome pid .stopped now) s).threads = s.threads := by
    intro pids
    induction pids with
    | nil => exact fun _ => rfl
    | cons pid pids ih => exact fun s => (ih _).trans (threads_recordOutcome _)
  have hcollect : ∀ s : Scheduler L, (s.collectIfDue now).2.threads = s.threads := by
    intro s
    unfold collectIfDue
    cases s.options.retention? with
    | none => rfl
    | some retention =>
      simp only
      split <;> rfl
  intro t ht
  unfold tick at ht
  simp only at ht
  rw [hcollect] at ht
  unfold sweep at ht
  simp only at ht
  rw [hrecord] at ht
  exact (List.mem_filter.mp ht).2

/-- Where all threads are active, they are those with live entries. -/
theorem Accord.keys_eq (h : s.Accord) (hactive : ∀ t ∈ s.threads.members, t.isActive = true) :
    s.threads.keys = (s.table.filter ProcessEntry.isLive).keys := by
  refine Roster.keys_eq_of_iff fun p => ?_
  rw [Roster.find?_filter]
  have hslot := h.slots p
  rcases hs : s.slot p with ⟨t?, e?, isTaken⟩
  have ht : s.threads.find? p = t? := congrArg Slot.thread? hs
  have he : s.table.find? p = e? := congrArg Slot.listed? hs
  rw [hs] at hslot
  rw [ht, he]
  cases hslot with
  | free => exact Iff.rfl
  | @live t e hscript hdesc =>
    rw [Option.filter_some_pos (hdesc.isLive)]
    exact Iff.rfl
  | @closed t? e? hended hclosed =>
    have hnone : t? = none := by
      refine Option.eq_none_iff_forall_ne_some.mpr fun t heq => ?_
      have hgoes := Thread.not_terminated_of_active
        (hactive t (Roster.mem_of_find? (ht.trans heq)))
      exact absurd ((hended t heq).symm.trans hgoes) nofun
    have hdead : e?.filter ProcessEntry.isLive = none :=
      Option.filter_eq_none_iff.mpr fun e he => by
        rw [(hclosed e he).not_live]
        exact Bool.false_ne_true
    rw [hnone, hdead]
    exact ⟨nofun, nofun⟩

/-- The live entries are those that a listing shows unless told otherwise. -/
theorem Consistent.list_none (h : s.Consistent) :
    s.list none = s.table.members.filter ProcessEntry.isLive := by
  refine List.filter_congr fun e he => ?_
  have hterminal := h.terminal e he
  unfold ProcessEntry.isLive
  cases hstatus : e.status <;> cases hend : e.endTime? <;> rw [hstatus, hend] at hterminal <;>
    first | rfl | exact absurd hterminal (by simp [ThreadStatus.isTerminal])

theorem Accord.settled (h : s.Accord) (hactive : ∀ t ∈ s.threads.members, t.isActive = true) :
    s.Settled := by
  have hkeys := h.keys_eq hactive
  refine ⟨fun t ht => ?_, hkeys, ?_⟩
  · exact ⟨Thread.not_terminated_of_active (hactive t ht),
      Thread.not_abandoned_of_active (hactive t ht)⟩
  · have hempty : s.threads.members = [] ↔ s.table.members.filter ProcessEntry.isLive = [] := by
      rw [← List.map_eq_nil_iff (f := Thread.pid), ← List.map_eq_nil_iff (f := ProcessEntry.pid)]
      show s.threads.keys = [] ↔ (s.table.filter ProcessEntry.isLive).keys = []
      rw [hkeys]
    rw [h.consistent.list_none]
    exact List.isEmpty_iff.trans hempty

end Scheduler

/-! ## Identifiers -/

/-- Along a path, the news tells of the identifiers one after another. -/
theorem Path.started {s s' : Scheduler L} {moves : List (Millis × Move L)} (h : Path s moves s')
    (hacc : s.Accord) :
    s.nextPid ≤ s'.nextPid ∧ (told moves s).filterMap StatusEvent.startedPid? =
      s.status.filterMap StatusEvent.startedPid? ++
        List.range' s.nextPid (s'.nextPid - s.nextPid) := by
  induction h with
  | nil s =>
    rw [Nat.sub_self]
    exact ⟨Nat.le_refl _, (List.append_nil _).symm⟩
  | @cons s s' m moves now hfits _ ih =>
    obtain ⟨news, hmove⟩ := Move.outcome hfits hacc now
    obtain ⟨hgrows, hrest⟩ := ih (Move.accord hfits hacc now)
    refine ⟨Nat.le_trans hmove.grows hgrows, ?_⟩
    have hadds := congrArg (List.filterMap StatusEvent.startedPid?) hmove.adds
    rw [List.filterMap_append, List.filterMap_append, hmove.started] at hadds
    show (m.taken s ++ told moves (m.apply now s)).filterMap _ = _
    rw [List.filterMap_append, hrest, ← List.append_assoc, hadds, List.append_assoc]
    have hranges : List.range' s.nextPid ((m.apply now s).nextPid - s.nextPid) ++
          List.range' (m.apply now s).nextPid (s'.nextPid - (m.apply now s).nextPid) =
        List.range' s.nextPid (s'.nextPid - s.nextPid) :=
      List.Ico.append_consecutive hmove.grows hgrows
    rw [hranges]

/-- **Threads and table agree in every state that a scheduler gets into**, whatever the host does,
whatever the scripts do, and also between the moves of an operation. Identifiers are handed out one
after another, and a heartbeat leaves only active threads behind. -/
theorem consistent_of_create (options : SchedulerOptions) (library : ScriptLibrary)
    (searchPath : List ScriptPath) (world : L.World) (start : Millis) (clock : Clock)
    (ops : List (Millis × Operation L)) :
    let s₀ := Scheduler.create (L := L) options library searchPath world start clock
    let s := performAll ops s₀
    s.Consistent ∧
      (newsOf ops s₀).filterMap StatusEvent.startedPid? = List.range' 1 (s.nextPid - 1) ∧
      (∀ now, (s.tick now).2.Settled) ∧
      replay (history ops s₀) s₀ = s ∧
      ∀ past, past <+: history ops s₀ → (replay past s₀).Consistent := by
  intro s₀ s
  have hacc : s₀.Accord := Scheduler.accord_create options library searchPath world start clock
  have hpath : Path s₀ (history ops s₀) s := path_history ops s₀
  have hlast : s.Accord := hpath.accord hacc
  refine ⟨hlast.consistent, ?_, fun now => ?_, hpath.replay_eq, ?_⟩
  · rw [newsOf_eq_told]
    exact (hpath.started hacc).2
  · have htick := (Scheduler.path_tick now s).path.accord hlast
    exact htick.settled (Scheduler.active_of_mem_tick s)
  · rintro past ⟨future, hsplit⟩
    rw [← hsplit] at hpath
    exact (hpath.split.1.accord hacc).consistent

end Heartbeat

import Heartbeat.Proofs.Scheduler.Pausing
import Heartbeat.Proofs.Scheduler.Relaunch
import Heartbeat.Proofs.Scheduler.Stopping

/-!
# Whom a request strikes

Code that asks for a stop or a pause gives up the rest of its budget if the target is its own
identifier, its own name or all threads. The scheduler finds out only behind the service whom the
target stands for, and a name stands for the oldest active thread of that name. So the two agree,
unless an older thread has the same name: then that one is struck, and the thread that asked goes
on.

* `Request.struck`, `Request.strike`: the threads that a request strikes, and what it does to them.
* `find?_carryOut`, `slot_carryOut`: these are changed, and no others.
* `Scheduler.Oldest`: the oldest active thread of a name; `mem_struck_iff`: whether an active thread
  is struck by a request that is aimed at it.
* `aim_law_of_create`: the law of aims.
-/

namespace Heartbeat

variable {L : Language} {now : Millis}

namespace Request

/-- The target of a stop or a pause. -/
def target? : Request → Option Target
  | .stop target => some target
  | .pause target => some target
  | .run _ _ => none

/-- The threads that a stop or a pause says it found. -/
def found : Except RequestError (List Pid) → List Pid
  | .ok pids => pids
  | .error _ => []

/-- The threads that a stop marks or a pause turns over, in a state. -/
def struck (s : Scheduler L) : Request → List Pid
  | .stop target => found (s.stop target).1
  | .pause target => found (s.pause target).1
  | .run _ _ => []

/-- What a stop or a pause makes of a thread that it strikes. -/
def strike (t : Thread L) : Request → Thread L
  | .stop _ => t.abandon
  | .pause _ => { t with state := t.state.toggle }
  | .run _ _ => t

variable {r : Request} {target : Target}

theorem aimsAtSelf_eq (h : r.target? = some target) (caller : Caller) :
    Context.aimsAtSelf caller r = target.includes caller.pid caller.name := by
  cases r with
  | run script args => exact absurd h nofun
  | stop target' | pause target' =>
    obtain rfl := Option.some.inj h
    rfl

end Request

namespace Scheduler

variable {s : Scheduler L} {p q : Pid} {t u : Thread L} {r : Request} {target : Target}
  {name : String}

/-! ## Targets -/

theorem activeThreads_pairwise (s : Scheduler L) :
    s.activeThreads.Pairwise (·.pid < ·.pid) :=
  (List.pairwise_map.mp (Roster.keys_pairwise s.threads)).sublist List.filter_sublist

/-- **The oldest active thread of a name.** -/
structure Oldest (s : Scheduler L) (name : String) (t : Thread L) : Prop where
  active : t ∈ s.activeThreads
  named : t.name = name
  first : ∀ u ∈ s.activeThreads, u.name = name → t.pid ≤ u.pid

/-- **A name stands for the oldest active thread of this name**, if there is any. -/
theorem resolveActive_name (ht : t ∈ s.activeThreads) (hname : t.name = name) :
    ∃ u, s.Oldest name u ∧ s.resolveActive (.name name) = [u.pid] := by
  have hsome : (s.activeThreads.find? (·.name == name)).isSome = true :=
    List.find?_isSome.mpr ⟨t, ht, beq_iff_eq.mpr hname⟩
  obtain ⟨u, hfound⟩ := Option.isSome_iff_exists.mp hsome
  obtain ⟨hown, before, after, hsplit, hbefore⟩ := List.find?_eq_some_iff_append.mp hfound
  have hordered := activeThreads_pairwise s
  rw [hsplit] at hordered
  refine ⟨u, ⟨List.mem_of_find?_eq_some hfound, beq_iff_eq.mp hown, fun v hv hsame => ?_⟩, ?_⟩
  · rw [hsplit] at hv
    rcases List.mem_append.mp hv with hv | hv
    · have hother := hbefore v hv
      rw [beq_iff_eq.mpr hsame] at hother
      exact absurd hother nofun
    · rcases List.mem_cons.mp hv with rfl | hv
      · exact Nat.le_refl _
      · exact Nat.le_of_lt (List.rel_of_pairwise_cons (List.pairwise_append.mp hordered).2.1 hv)
  · show ((s.activeThreads.find? (·.name == name)).map Thread.pid).toList = _
    rw [hfound]
    rfl

/-- A target includes the threads that it names. -/
theorem includes_of_mem_resolveActive (h : p ∈ s.resolveActive target) :
    ∃ t, s.threads.find? p = some t ∧ t.isActive = true ∧ target.includes p t.name = true := by
  cases target with
  | pid pid =>
    obtain ⟨t, hfound, rfl⟩ := Option.map_eq_some_iff.mp (Option.mem_toList.mp h)
    obtain ⟨hfind, hactive⟩ := mem_activeThreads.mp (List.mem_of_find?_eq_some hfound)
    have hpid : t.pid = pid := by simpa using List.find?_some hfound
    exact ⟨t, hfind, hactive, beq_iff_eq.mpr hpid.symm⟩
  | name name =>
    obtain ⟨t, hfound, rfl⟩ := Option.map_eq_some_iff.mp (Option.mem_toList.mp h)
    obtain ⟨hfind, hactive⟩ := mem_activeThreads.mp (List.mem_of_find?_eq_some hfound)
    have hname : t.name = name := by simpa using List.find?_some hfound
    exact ⟨t, hfind, hactive, beq_iff_eq.mpr hname.symm⟩
  | all =>
    obtain ⟨t, hfind, hactive⟩ := active_of_mem_resolveActive h
    exact ⟨t, hfind, hactive, rfl⟩

/-- **Whether a target stands for an active thread that it includes**: if it is a name, the thread
must be the oldest of this name. -/
theorem mem_resolveActive_iff (ht : t ∈ s.activeThreads)
    (hincludes : target.includes t.pid t.name = true) :
    t.pid ∈ s.resolveActive target ↔
      ∀ name, target = .name name → ∀ u ∈ s.activeThreads, u.name = name → t.pid ≤ u.pid := by
  cases target with
  | pid pid =>
    obtain rfl : pid = t.pid := beq_iff_eq.mp hincludes
    refine iff_of_true ?_ nofun
    have hsome : (s.activeThreads.find? (·.pid == t.pid)).isSome = true :=
      List.find?_isSome.mpr ⟨t, ht, beq_self_eq_true t.pid⟩
    obtain ⟨u, hfound⟩ := Option.isSome_iff_exists.mp hsome
    have hpid : u.pid = t.pid := by simpa using List.find?_some hfound
    exact Option.mem_toList.mpr (Option.map_eq_some_iff.mpr ⟨u, hfound, hpid⟩)
  | name name =>
    obtain rfl : name = t.name := beq_iff_eq.mp hincludes
    obtain ⟨u, hu, hresolve⟩ := resolveActive_name ht rfl
    rw [hresolve, List.mem_singleton]
    constructor
    · rintro hsame name' ⟨⟩ v hv hname
      exact hsame ▸ hu.first v hv hname
    · intro hfirst
      exact Nat.le_antisymm (hfirst _ rfl u hu.active hu.named) (hu.first t ht rfl)
  | all => exact iff_of_true (List.mem_map_of_mem ht) nofun

/-! ## Whom stops and pauses strike -/

theorem struck_stop (s : Scheduler L) (target : Target) :
    (Request.stop target).struck s = s.resolveActive target := by
  show Request.found (s.stop target).1 = _
  by_cases hnone : target ≠ .all ∧ s.resolveActive target = []
  · have hstop : s.stop target = (.error _, s) := if_pos hnone
    rw [hstop, hnone.2]
    rfl
  · have hstop : s.stop target = (.ok (s.resolveActive target), _) := if_neg hnone
    rw [hstop]
    rfl

theorem struck_pause (h : target ≠ .all) :
    (Request.pause target).struck s = s.resolveActive target := by
  show Request.found (s.pause target).1 = _
  cases hresolve : s.resolveActive target with
  | nil =>
    unfold pause
    rw [if_neg h, hresolve]
    rfl
  | cons p rest =>
    have hone := resolveActive_single h (hresolve ▸ List.mem_cons_self)
    rw [pause_of_resolved h hone, ← hresolve, hone]
    rfl

theorem found_toggleAll_of_paused (h : ∀ t ∈ s.activeThreads, t.state.isPaused = true) :
    Request.found s.toggleAll.1 = s.activeThreads.map Thread.pid := by
  have hnone : s.activeThreads.filter (fun t => !t.state.isPaused) = [] :=
    List.filter_eq_nil_iff.mpr fun t ht => by simp [h t ht]
  unfold toggleAll
  simp only [hnone]
  split
  · rename_i hidle
    rw [List.isEmpty_iff.mp hidle]
    rfl
  · rfl

theorem found_toggleAll_of_awake (ht : t ∈ s.activeThreads) (hawake : t.state.isPaused = false) :
    Request.found s.toggleAll.1 =
      (s.activeThreads.filter fun t => !t.state.isPaused).map Thread.pid := by
  have hmem : t ∈ s.activeThreads.filter fun t => !t.state.isPaused :=
    List.mem_filter.mpr ⟨ht, by simp [hawake]⟩
  unfold toggleAll
  simp only
  rw [if_neg (by rw [List.isEmpty_iff]; exact List.ne_nil_of_mem ht)]
  cases hrunning : s.activeThreads.filter fun t => !t.state.isPaused with
  | nil =>
    rw [hrunning] at hmem
    exact absurd hmem List.not_mem_nil
  | cons u rest => rfl

/-- A pause of all threads strikes those that are up, or all if none is. -/
theorem mem_struck_pause_all : p ∈ (Request.pause .all).struck s ↔
    ∃ t ∈ s.activeThreads, t.state.isPaused = s.allPaused ∧ t.pid = p := by
  have hpause : s.pause .all = s.toggleAll := if_pos rfl
  show p ∈ Request.found (s.pause .all).1 ↔ _
  rw [hpause]
  cases hall : s.allPaused with
  | true =>
    have hpaused : ∀ t ∈ s.activeThreads, t.state.isPaused = true := List.all_eq_true.mp hall
    rw [found_toggleAll_of_paused hpaused, List.mem_map]
    exact exists_congr fun t => and_congr_right fun ht => (and_iff_right (hpaused t ht)).symm
  | false =>
    obtain ⟨t, ht, hawake⟩ := List.all_eq_false.mp hall
    rw [found_toggleAll_of_awake ht (by simpa using hawake), List.mem_map]
    refine exists_congr fun u => ?_
    rw [List.mem_filter, Bool.not_eq_true', and_assoc]

/-- A request strikes those whom its target stands for, unless it is a pause of all. -/
theorem struck_eq (htarget : r.target? = some target) (hall : r ≠ .pause .all) :
    r.struck s = s.resolveActive target := by
  cases r with
  | run script args => exact absurd htarget nofun
  | stop target' =>
    obtain rfl := Option.some.inj htarget
    exact struck_stop s target'
  | pause target' =>
    obtain rfl := Option.some.inj htarget
    exact struck_pause fun heq => hall (congrArg _ heq)

/-- A request strikes threads that its target names. -/
theorem mem_resolveActive_of_struck (htarget : r.target? = some target) (h : p ∈ r.struck s) :
    p ∈ s.resolveActive target := by
  by_cases hall : r = .pause .all
  · subst hall
    obtain rfl := Option.some.inj htarget
    obtain ⟨t, ht, -, rfl⟩ := mem_struck_pause_all.mp h
    exact List.mem_map_of_mem ht
  · rwa [struck_eq htarget hall] at h

/-- **Whether an active thread is struck that a target includes**: if the target is a name, it must
be the oldest of this name. -/
theorem mem_struck_iff (ht : t ∈ s.activeThreads) (hawake : t.state.isPaused = false)
    (htarget : r.target? = some target) (hincludes : target.includes t.pid t.name = true) :
    t.pid ∈ r.struck s ↔
      ∀ name, target = .name name → ∀ u ∈ s.activeThreads, u.name = name → t.pid ≤ u.pid := by
  by_cases hall : r = .pause .all
  · subst hall
    obtain rfl := Option.some.inj htarget
    have hup : s.allPaused = false := List.all_eq_false.mpr ⟨t, ht, by simp [hawake]⟩
    exact iff_of_true (mem_struck_pause_all.mpr ⟨t, ht, hawake.trans hup.symm, rfl⟩) nofun
  · rw [struck_eq htarget hall]
    exact mem_resolveActive_iff ht hincludes

/-! ## What comes of it -/

/-- A pause turns over the states of those whom it strikes. -/
theorem turned_pause (hacc : s.Accord) (target : Target) :
    Turned (fun p => if p ∈ (Request.pause target).struck s then .toggle else id) s
      (s.pause target).2 := by
  by_cases hall : target = .all
  · subst hall
    have hpause : s.pause .all = s.toggleAll := if_pos rfl
    rw [hpause]
    refine (turned_toggleAll hacc).congr fun p t hfind hactive => ?_
    have hpid : t.pid = p := Roster.key_of_find? hfind
    have ht : t ∈ s.activeThreads := mem_activeThreads.mpr ⟨hpid ▸ hfind, hactive⟩
    have hstruck : p ∈ (Request.pause .all).struck s ↔ t.state.isPaused = s.allPaused := by
      rw [mem_struck_pause_all]
      refine ⟨?_, fun hsame => ⟨t, ht, hsame, hpid⟩⟩
      rintro ⟨u, hu, hsame, rfl⟩
      rwa [Option.some.inj (hfind.symm.trans (mem_activeThreads.mp hu).1)]
    unfold direction
    simp only [hstruck]
    cases hall : s.allPaused with
    | true =>
      have hpaused : t.state.isPaused = true := List.all_eq_true.mp hall t ht
      simp [hpaused, ExecutionState.toggle_of_paused]
    | false =>
      cases hpaused : t.state.isPaused with
      | true => simp [ExecutionState.pause_of_paused hpaused]
      | false => simp [ExecutionState.toggle_of_awake hpaused]
  · rw [struck_pause hall]
    have hnodup : (s.resolveActive target).Nodup :=
      (activeThreads_nodup s).sublist (resolveActive_sublist s target)
    have hturned := turned_changeEach .toggle hnodup
      (fun p hp => active_of_mem_resolveActive hp) hacc
    cases hresolve : s.resolveActive target with
    | nil =>
      rw [hresolve] at hturned
      unfold pause
      rw [if_neg hall, hresolve]
      exact hturned
    | cons p rest =>
      have hone := resolveActive_single hall (hresolve ▸ List.mem_cons_self)
      rw [pause_of_resolved hall hone, ← hresolve, hone]
      rw [hone] at hturned
      exact hturned

theorem stop_snd (s : Scheduler L) (target : Target) :
    (s.stop target).2 = s.abandonAll ((Request.stop target).struck s) := by
  rw [struck_stop]
  by_cases hnone : target ≠ .all ∧ s.resolveActive target = []
  · have hstop : s.stop target = (.error _, s) := if_pos hnone
    rw [hstop, hnone.2]
    rfl
  · have hstop : s.stop target = (.ok _, s.abandonAll (s.resolveActive target)) := if_neg hnone
    rw [hstop]

theorem nextPid_abandonAll (s : Scheduler L) (pids : List Pid) :
    (s.abandonAll pids).nextPid = s.nextPid := by
  induction pids generalizing s with
  | nil => rfl
  | cons q pids ih => exact (ih (s.abandon q)).trans (Frame.abandon q s).nextPid

end Scheduler

namespace Request

variable {s : Scheduler L} {p : Pid} {r : Request} {target : Target}

/-- A request is carried out as the stop or the pause that it asks for, but for the news. -/
theorem slot_carryOut_eq (now : Millis) (r : Request) (s : Scheduler L) (p : Pid) :
    (r.carryOut now s).slot p = (r.operation.perform (r.time now s) s).slot p := by
  unfold carryOut
  split <;> rfl

/-- **A request leaves alone whom it does not strike.** -/
theorem slot_carryOut (hacc : s.Accord) (htarget : r.target? = some target)
    (hp : p ∉ r.struck s) : (r.carryOut now s).slot p = s.slot p := by
  rw [slot_carryOut_eq]
  cases r with
  | run script args => exact absurd htarget nofun
  | stop target' =>
    show (s.stop target').2.slot p = s.slot p
    rw [Scheduler.stop_snd]
    refine Scheduler.slot_congr ?_ ?_ (Scheduler.nextPid_abandonAll s _)
    · rw [Scheduler.find?_abandonAll, if_neg hp]
    · rw [Scheduler.table_abandonAll]
  | pause target' =>
    show (s.pause target').2.slot p = s.slot p
    rw [(Scheduler.turned_pause hacc target').slots p, if_neg hp, (hacc.slots p).turn_id]

/-- **A request changes whom it strikes**: a stop marks the thread, and a pause turns it over. -/
theorem find?_carryOut (hacc : s.Accord) (htarget : r.target? = some target)
    (hp : p ∈ r.struck s) : ∃ t, s.threads.find? p = some t ∧ t.isActive = true ∧
      (r.carryOut now s).threads.find? p = some (r.strike t) := by
  obtain ⟨t, hfind, hactive⟩ :=
    Scheduler.active_of_mem_resolveActive (Scheduler.mem_resolveActive_of_struck htarget hp)
  refine ⟨t, hfind, hactive, (congrArg Slot.thread? (slot_carryOut_eq now r s p)).trans ?_⟩
  cases r with
  | run script args => exact absurd htarget nofun
  | stop target' =>
    show (s.stop target').2.threads.find? p = some t.abandon
    rw [Scheduler.stop_snd, Scheduler.find?_abandonAll, if_pos hp, hfind]
    rfl
  | pause target' =>
    show (s.pause target').2.threads.find? p = some { t with state := t.state.toggle }
    rw [(Scheduler.turned_pause hacc target').find?_eq, hfind, Option.map_some, if_pos hactive,
      if_pos hp]

end Request

/-! ## Behind a service -/

section Service

variable {s s' x y : Scheduler L} {p : Pid} {t : Thread L} {job job' : Job L}
  {before mid rest : List (Job L × Scheduler L)}

/-- A service keeps what identifies its thread, and whether this is paused. -/
theorem Scheduler.exists_served (hacc : x.Accord) (hfind : x.threads.find? p = some t)
    (hactive : t.isActive = true) (now : Millis) :
    ∃ t', (x.serve now p).threads.find? p = some t' ∧ Thread.Alike t t' ∧
      t'.state.isPaused = t.state.isPaused := by
  obtain ⟨e, he, -⟩ := entry_of_script hfind (hacc.slots p)
    (Thread.not_terminated_of_active hactive)
  have hstage := Thread.stage_service hactive x.options.turbo (x.options.dispatch == .onResume) now
    x.world
  have hthreads := (recordService_spec (s := x.absorb (x.activityOf now t)) (q := p) he
    (x.activityOf now t).value now).1
  refine ⟨(x.activityOf now t).thread, ?_, hstage.alike, hstage.paused⟩
  rw [serve_eq hfind, hthreads, ← Roster.key_of_find? hfind]
  exact (find?_setThread x _ _).trans (if_pos hstage.alike.pid.symm)

/-- A thread that asks for anything is not paused. -/
theorem Scheduler.awake_of_asked (hfind : x.threads.find? p = some t) (hactive : t.isActive = true)
    (hasked : x.asked now p ≠ []) : t.state.isPaused = false := by
  by_contra hpaused
  rw [Bool.not_eq_false] at hpaused
  refine hasked ?_
  rw [asked_of_active hfind hactive]
  unfold activityOf
  rw [(Thread.service_of_paused hactive hpaused _ _ _ _).1]

/-- The moves between two jobs of a log lead from the one to the other. -/
theorem RequestLaw.between {op : Operation L} {done : List (Job L × Scheduler L)}
    (h : RequestLaw now op s done)
    (hdone : done = before ++ (job, x) :: (mid ++ (job', y) :: rest)) :
    Path s (movesOf before) x ∧ Path x (movesOf ((job, x) :: mid)) y := by
  obtain ⟨s', closing, -, hpath, -⟩ := h.works
  have hx := h.begun before job x _ hdone
  have hy := h.begun (before ++ (job, x) :: mid) job' y rest (by rw [hdone]; simp)
  rw [movesOf_append, replay_append, ← hx] at hy
  rw [hdone, movesOf_append] at hpath
  obtain ⟨hfirst, hbehind⟩ := hpath.split
  rw [← hx] at hfirst hbehind
  rw [← List.cons_append, movesOf_append] at hbehind
  exact ⟨hfirst, hy ▸ hbehind.split.1⟩

/-- A thread goes on under its name. -/
theorem Path.name_eq {moves : List (Millis × Move L)} {t' : Thread L} (h : Path x moves y)
    (hacc : x.Accord) (hfind : x.threads.find? p = some t) (hactive : t.isActive = true)
    (hfind' : y.threads.find? p = some t') (hactive' : t'.isActive = true) : t'.name = t.name := by
  obtain ⟨e, he, hdesc⟩ := Scheduler.entry_of_script hfind (hacc.slots p)
    (Thread.not_terminated_of_active hactive)
  obtain ⟨e', he', hdesc'⟩ := Scheduler.entry_of_script hfind' ((h.accord hacc).slots p)
    (Thread.not_terminated_of_active hactive')
  rw [← hdesc'.name, (h.sameRun hacc he he').name, hdesc.name]

end Service

/-! ## The law -/

/-- **The law of aims** in an operation, by the log of its work. -/
structure AimLaw (done : List (Job L × Scheduler L)) : Prop where
  /-- A stop or a pause changes those whom it strikes, which were active, and leaves all others and
  their entries alone. -/
  strikes : ∀ time p r target y, (.request time p r, y) ∈ done → r.target? = some target →
    (∀ q ∈ r.struck y, ∃ t, y.threads.find? q = some t ∧ t.isActive = true ∧
      (r.carryOut time y).threads.find? q = some (r.strike t)) ∧
    ∀ q, q ∉ r.struck y → (r.carryOut time y).slot q = y.slot q
  /-- If the target is a name, the oldest active thread of this name is struck, and no other. -/
  named : ∀ time p r name y, (.request time p r, y) ∈ done → r.target? = some (.name name) →
    ∀ t ∈ y.activeThreads, t.name = name → ∃ u, y.Oldest name u ∧ r.struck y = [u.pid]
  /-- The first request behind the service of a thread that did not end in it, if the code took it
  to be aimed at this thread: the thread is struck, unless the target is its name and an older
  active thread has the same. -/
  aimed : ∀ before time time' p x r target y rest t t',
    done = before ++ (.service time p, x) :: (.request time' p r, y) :: rest →
      x.threads.find? p = some t → t.isActive = true → r.target? = some target →
      Context.aimsAtSelf (t.caller time) r = true →
      y.threads.find? p = some t' → t'.isTerminated = false →
        t' ∈ y.activeThreads ∧ t'.name = t.name ∧
          (p ∈ r.struck y ↔ ∀ name, target = .name name →
            ∀ u ∈ y.activeThreads, u.name = name → p ≤ u.pid)
  /-- No request of a thread strikes it that its code did not take to be aimed at it. -/
  apart : ∀ before time time' p x mid r target y rest t,
    done = before ++ (.service time p, x) :: (mid ++ (.request time' p r, y) :: rest) →
      x.threads.find? p = some t → t.isActive = true → r.target? = some target →
      Context.aimsAtSelf (t.caller time) r = false → p ∉ r.struck y

section Law

variable {s x y : Scheduler L} {op : Operation L} {p : Pid} {r : Request} {target : Target}
  {t t' : Thread L} {time time' : Millis} {done before mid rest : List (Job L × Scheduler L)}

/-- Behind its service a thread is struck if it is the oldest of those that the target names. -/
theorem RequestLaw.aimed (h : RequestLaw now op s done) (hacc : s.Accord)
    (hdone : done = before ++ (.service time p, x) :: (.request time' p r, y) :: rest)
    (hfind : x.threads.find? p = some t) (hactive : t.isActive = true)
    (htarget : r.target? = some target) (haims : Context.aimsAtSelf (t.caller time) r = true)
    (hfind' : y.threads.find? p = some t') (hscript : t'.isTerminated = false) :
    t' ∈ y.activeThreads ∧ t'.name = t.name ∧
      (p ∈ r.struck y ↔ ∀ name, target = .name name →
        ∀ u ∈ y.activeThreads, u.name = name → p ≤ u.pid) := by
  have hnext : done = before ++ (.service time p, x) :: ([] ++ (.request time' p r, y) :: rest) :=
    hdone
  obtain ⟨hbefore, hservice⟩ := h.between hnext
  have hserved : y = x.serve time p := by
    rw [movesOf_cons, Job.moves_of_active time hfind hactive] at hservice
    exact hservice.of_single.2
  obtain ⟨t'', hfound, halike, hpaused⟩ :=
    Scheduler.exists_served (hbefore.accord hacc) hfind hactive time
  rw [← hserved, hfind'] at hfound
  obtain rfl := Option.some.inj hfound
  have hasked : x.asked time p ≠ [] := by
    rw [← h.once before time p x _ t hdone hfind hactive, hdone, requestsOf_append, requestsOf_cons,
      requestsOf_cons]
    simp [Job.requestOf?]
  have hawake : t'.state.isPaused = false :=
    hpaused.trans (Scheduler.awake_of_asked hfind hactive hasked)
  have hactive' : t'.isActive = true := by
    unfold Thread.isActive
    rw [halike.abandoned, Thread.not_abandoned_of_active hactive, hscript]
    rfl
  have hpid : t'.pid = p := Roster.key_of_find? hfind'
  have hmem : t' ∈ y.activeThreads := Scheduler.mem_activeThreads.mpr ⟨hpid ▸ hfind', hactive'⟩
  rw [Request.aimsAtSelf_eq htarget] at haims
  have hincludes : target.includes t'.pid t'.name = true := by
    rw [halike.pid, halike.name]
    exact haims
  rw [← hpid]
  exact ⟨hmem, halike.name, Scheduler.mem_struck_iff hmem hawake htarget hincludes⟩

/-- A request does not strike the thread that made it if it does not aim at it. -/
theorem RequestLaw.apart (h : RequestLaw now op s done) (hacc : s.Accord)
    (hdone : done = before ++ (.service time p, x) :: (mid ++ (.request time' p r, y) :: rest))
    (hfind : x.threads.find? p = some t) (hactive : t.isActive = true)
    (htarget : r.target? = some target) (haims : Context.aimsAtSelf (t.caller time) r = false) :
    p ∉ r.struck y := by
  intro hstruck
  obtain ⟨hbefore, hbetween⟩ := h.between hdone
  obtain ⟨t', hfind', hactive', hincludes⟩ := Scheduler.includes_of_mem_resolveActive
    (Scheduler.mem_resolveActive_of_struck htarget hstruck)
  have hname := hbetween.name_eq (hbefore.accord hacc) hfind hactive hfind' hactive'
  have hpid : t.pid = p := Roster.key_of_find? hfind
  rw [Request.aimsAtSelf_eq htarget] at haims
  rw [hname, ← hpid] at hincludes
  exact absurd (hincludes.symm.trans haims) nofun

theorem RequestLaw.aimLaw (h : RequestLaw now op s done) (hacc : s.Accord) : AimLaw done := by
  have hbegun : ∀ {time p r y}, (.request time p r, y) ∈ done → y.Accord := by
    intro time p r y hmem
    obtain ⟨before, rest, hdone⟩ := List.append_of_mem hmem
    obtain ⟨s', closing, -, hpath, -⟩ := h.works
    rw [hdone, movesOf_append] at hpath
    have hy := hpath.split.1.accord hacc
    rwa [← h.begun before _ y rest hdone] at hy
  refine ⟨fun time p r target y hmem htarget => ⟨fun q hq => ?_, fun q hq => ?_⟩, ?_,
    fun before time time' p x r target y rest t t' => h.aimed hacc,
    fun before time time' p x mid r target y rest t => h.apart hacc⟩
  · exact Request.find?_carryOut (hbegun hmem) htarget hq
  · exact Request.slot_carryOut (hbegun hmem) htarget hq
  · intro time p r name y _ htarget t ht hname
    have hsingle : r ≠ .pause .all := by
      rintro rfl
      exact absurd htarget nofun
    rw [Scheduler.struck_eq htarget hsingle]
    exact Scheduler.resolveActive_name ht hname

end Law

/-- **The law of aims holds in every operation of every run**, whatever the scripts ask for. -/
theorem aim_law_of_create (options : SchedulerOptions) (library : ScriptLibrary)
    (searchPath : List ScriptPath) (world : L.World) (start : Millis) (clock : Clock)
    (ops : List (Millis × Operation L)) (now : Millis) (op : Operation L) :
    ∃ done, RequestLaw now op
        (performAll ops (Scheduler.create (L := L) options library searchPath world start clock))
        done ∧
      AimLaw done := by
  have hpath := path_history ops
    (Scheduler.create (L := L) options library searchPath world start clock)
  have hacc := hpath.accord (Scheduler.accord_create options library searchPath world start clock)
  have hfirst :=
    Scheduler.nextPid_create_le (L := L) options library searchPath world start clock
  obtain ⟨done, hlaw⟩ := requestLaw hacc (hpath.nextPid_le_limit hfirst) now op
  exact ⟨done, hlaw, hlaw.aimLaw hacc⟩

namespace StepScript

/-- A script that asks for a stop of the name twin and then goes on. -/
def hunter : Program := ⟨[⟨1, .stop (some "twin")⟩, ⟨2, .print "on"⟩, ⟨3, .yield⟩], []⟩

/-- A script that goes on. -/
def idler : Program := ⟨[⟨1, .yield⟩], []⟩

/-- A scheduler in which a thread of the name twin is live. -/
def twinStart : Scheduler (language Unit) :=
  (Operation.startScript "twin" "one" idler []).perform 0
    (.create {} (.ofFiles (.ofList []) "step") [] () 0)

/-- A younger thread of the name twin asks for a stop of this name. Its code takes the request to be
aimed at the own thread and closes its budget; the request is the first behind its service, and it
strikes the older thread alone. The younger one did not end, and goes on. -/
theorem younger_twin_goes_on :
    let start : Operation (language Unit) := .startScript "twin" "two" hunter []
    let request : Request := .stop (.name "twin")
    ∃ x y s', Works (start.agenda 0 twinStart) twinStart
        [(.start 0 (.startScript "twin" "two" hunter []), twinStart), (.service 0 2, x),
          (.request 0 2 request, y)] s' ∧
      (x.threads.find? 2).map (fun t => (t.isActive, Context.aimsAtSelf (t.caller 0) request)) =
        some (true, true) ∧
      (y.threads.find? 2).map (fun t => (t.isTerminated, t.budget.remaining)) = some (false, 0) ∧
      request.struck y = [1] ∧ (s'.threads.find? 2).map Thread.isActive = some true := by
  intro start request
  let call : StartCall (language Unit) := .startScript "twin" "two" hunter []
  let x := (Job.start 0 call).apply twinStart
  let y := (Job.service 0 2).apply x
  have hstart : (Job.start 0 call).leaves twinStart = [.service 0 2] := by
    have hresult : call.result twinStart = .ok 2 := by decide +kernel
    exact congrArg (Job.opening 0) hresult
  have hasked : (Job.service 0 2).leaves x = [.request 0 2 request] := by
    have hasked : x.asked 0 2 = [request] := by decide +kernel
    exact congrArg (List.map (Job.request 0 2)) hasked
  refine ⟨x, y, (Job.request 0 2 request).apply y, ?_, by decide +kernel, by decide +kernel,
    by decide +kernel, by decide +kernel⟩
  refine .cons ?_
  rw [hstart]
  refine .cons ?_
  rw [hasked]
  exact .cons (.nil _)

end StepScript

end Heartbeat

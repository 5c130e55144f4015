import Heartbeat.Proofs.Scheduler.View
import Heartbeat.Proofs.Thread.Insular

/-!
# What an operation is to one script

Where no script leaves the world or a request behind, nothing that one script does reaches another
one: what an operation of the host makes of a scheduler is then, for each script, what it makes of
the view of this script alone.

* `View.perform`: what an operation makes of a view.
* `Evolves`: what happens to a scheduler is, for every script, what happens to its view.
* `evolves_tick`, `evolves_perform`: so it is for heartbeats and for the other operations.
* `mem_resumed_tick`, `mem_reaped_tick`, `mem_collected_tick`: the report of a heartbeat.
-/

namespace Heartbeat

variable {L : Language} {now : Millis} {tame : L.Script → Prop}

/-! ## Operations on views -/

namespace View

/-- Whether the thread is active. -/
def isActive (v : View L) : Bool := v.thread?.any Thread.isActive

/-- A heartbeat of the thread, if it is active. -/
def service (now : Millis) (world : L.World) (v : View L) : View L :=
  if v.isActive then v.serve now world else v

/-- Whether the thread is resumed in a heartbeat. -/
def isResumed (now : Millis) (world : L.World) (v : View L) : Bool :=
  match v.thread? with
  | none => false
  | some t => t.isActive && (v.activityOf now world t).value != .notEligible

/-- Whether the thread is there and has ended or was stopped. -/
def isGone (v : View L) : Bool := v.thread?.any (!·.isActive)

/-- A sweep. -/
def sweep (now : Millis) (v : View L) : View L := if v.isGone then v.reap now else v

/-- Whether the entry is dropped if a collection is due. -/
def isCollected (now : Millis) (v : View L) : Bool :=
  match v.options.retention? with
  | none => false
  | some retention =>
    !decide (now - v.lastCollection < retention) && v.listed?.any (·.isExpired now retention)

/-- A collection, if one is due. -/
def collectIfDue (now : Millis) (v : View L) : View L :=
  match v.options.retention? with
  | none => v
  | some retention =>
    if now - v.lastCollection < retention then v else v.collect now retention

/-- A heartbeat of the scheduler. -/
def tick (now : Millis) (world : L.World) (v : View L) : View L :=
  ((v.service now world).sweep now).collectIfDue now

/-- **What an operation makes of a view.** -/
def perform (now : Millis) (world : L.World) (op : Operation L) (v : View L) : View L :=
  match op with
  | .tick => v.tick now world
  | .feed line => v.feed line
  | .setTurbo turbo => { v with options := { v.options with turbo := max turbo 1 } }
  | .drainStatus => { v with news := [] }
  | .stop (.pid pid) => if v.pid = pid ∧ v.isActive = true then v.abandon else v
  | .pause (.pid pid) => if v.pid = pid ∧ v.isActive = true then v.changeState .toggle else v
  | _ => v

/-- The script, if it goes on, is tame. -/
def IsTame (tame : L.Script → Prop) (v : View L) : Prop := ∀ t ∈ v.thread?, t.Plays tame

/-- A change of the thread that leaves its script alone. -/
theorem IsTame.of_map {v v' : View L} {f : Thread L → Thread L} (ht : v.IsTame tame)
    (hthread : v'.thread? = v.thread?.map f) (hscript : ∀ t, (f t).script? = t.script?) :
    v'.IsTame tame := by
  intro t' ht'
  rw [hthread] at ht'
  obtain ⟨t, hfind, rfl⟩ := Option.map_eq_some_iff.mp ht'
  intro script hs
  exact ht t hfind script (hscript t ▸ hs)

theorem IsTame.abandon {v : View L} (ht : v.IsTame tame) : v.abandon.IsTame tame :=
  ht.of_map (thread_abandon v) fun _ => rfl

theorem IsTame.changeState {v : View L} (ht : v.IsTame tame)
    (change : ExecutionState L.Condition → ExecutionState L.Condition) :
    (v.changeState change).IsTame tame :=
  ht.of_map (thread_changeState change v) fun _ => rfl

/-- A thread that is removed plays nothing. -/
theorem isTame_reap (v : View L) (now : Millis) : (v.reap now).IsTame tame := by
  intro t hfind
  rw [thread_reap] at hfind
  exact absurd hfind (Option.not_mem_none t)

/-- A service keeps a script tame. -/
theorem IsTame.service {may : Request → Prop} {v : View L} (ht : v.IsTame tame)
    (h : L.IsInsular may tame) (now : Millis) (world : L.World) :
    (v.service now world).IsTame tame := by
  unfold View.service
  split
  · rename_i hactive
    obtain ⟨t, hthread, hactive⟩ := (Option.any_eq_true _ _).mp hactive
    intro t' ht'
    rw [thread_serve hthread] at ht'
    rw [← Option.some.inj ht']
    exact (Thread.kept_service h (ht t hthread) hactive _ _ now world).plays
  · exact ht

end View

namespace Scheduler

variable {s s' s'' : Scheduler L} {q : Pid} {f g : Pid → View L → View L}

/-- All scripts that go on are tame. -/
def IsTame (tame : L.Script → Prop) (s : Scheduler L) : Prop := ∀ p, (s.view p).IsTame tame

/-- A start brings a tame script. -/
theorem isTame_enroll {script : L.Script} (ht : s.IsTame tame) (hscript : tame script)
    (now : Millis) (name path : String) (args : List String) :
    ((s.forgetFinished path).enroll now name path script args).IsTame tame := by
  intro q
  rw [view_enroll]
  split
  · intro t hfind script' hs
    obtain rfl := Option.some.inj hfind
    obtain rfl : script = script' := Option.some.inj hs
    exact hscript
  · exact ht q

/-- **For every script, what happens to the scheduler is what happens to its view**; the world and
the next identifier stay as they are. -/
structure Evolves (f : Pid → View L → View L) (s s' : Scheduler L) : Prop where
  view : ∀ p, s'.view p = f p (s.view p)
  world : s'.world = s.world
  nextPid : s'.nextPid = s.nextPid

namespace Evolves

theorem refl (s : Scheduler L) : Evolves (fun _ v => v) s s := ⟨fun _ => rfl, rfl, rfl⟩

theorem trans (h : Evolves f s s') (h' : Evolves g s' s'') :
    Evolves (fun p v => g p (f p v)) s s'' where
  view p := by rw [h'.view, h.view]
  world := h'.world.trans h.world
  nextPid := h'.nextPid.trans h.nextPid

/-- What happens may be told in another way that agrees on the views that there are. -/
theorem congr (h : Evolves f s s') (hfg : ∀ p, f p (s.view p) = g p (s.view p)) :
    Evolves g s s' :=
  ⟨fun p => (h.view p).trans (hfg p), h.world, h.nextPid⟩

theorem isTame (h : Evolves f s s') (ht : s.IsTame tame)
    (hf : ∀ p, (s.view p).IsTame tame → (f p (s.view p)).IsTame tame) : s'.IsTame tame := by
  intro p
  rw [h.view]
  exact hf p (ht p)

/-- The same change for many scripts, one after another, is made for each of them. -/
theorem foldl (change : Pid → Scheduler L → Scheduler L) (f : View L → View L)
    (good : Scheduler L → Prop) (hstep : ∀ q s, good s → good (change q s) ∧
      Evolves (fun p v => if p = q then f v else v) s (change q s)) {pids : List Pid}
    (hnodup : pids.Nodup) (hgood : good s) :
    good (pids.foldl (fun s q => change q s) s) ∧
      Evolves (fun p v => if p ∈ pids then f v else v) s
        (pids.foldl (fun s q => change q s) s) := by
  induction pids generalizing s with
  | nil => exact ⟨hgood, (refl s).congr fun p => (if_neg List.not_mem_nil).symm⟩
  | cons q pids ih =>
    obtain ⟨hnew, hnodup⟩ := List.nodup_cons.mp hnodup
    obtain ⟨hgood, hfirst⟩ := hstep q s hgood
    obtain ⟨hlast, hrest⟩ := ih hnodup hgood
    refine ⟨hlast, (hfirst.trans hrest).congr fun p => ?_⟩
    by_cases hp : p = q
    · subst hp
      rw [if_pos rfl, if_neg hnew, if_pos List.mem_cons_self]
    · rw [if_neg hp]
      by_cases hmem : p ∈ pids
      · rw [if_pos hmem, if_pos (List.mem_cons_of_mem q hmem)]
      · rw [if_neg hmem, if_neg fun h => (List.mem_cons.mp h).elim hp hmem]

end Evolves

/-! ## Heartbeats -/

theorem world_recordOutcome (s : Scheduler L) (q : Pid) (outcome : ThreadOutcome) (now : Millis) :
    (s.recordOutcome q outcome now).world = s.world := by
  unfold recordOutcome
  cases s.table.find? q <;> rfl

theorem world_recordService (s : Scheduler L) (q : Pid) (outcome : Thread.ServiceOutcome)
    (now : Millis) : (s.recordService q now outcome).world = s.world := by
  unfold recordService
  split
  · exact world_recordOutcome s q _ now
  · rfl

theorem world_reap (now : Millis) (q : Pid) (s : Scheduler L) : (s.reap now q).world = s.world := by
  unfold reap
  split
  · rfl
  · simp only
    split
    · rfl
    · exact world_recordOutcome _ q .stopped now

theorem isActive_view (s : Scheduler L) (q : Pid) :
    (s.view q).isActive = true ↔ ∃ t, s.threads.find? q = some t ∧ t.isActive = true :=
  Option.any_eq_true _ _

section Tame

variable (h : L.IsInsular (fun _ => False) tame)

include h

theorem evolves_service (ht : s.IsTame tame) (now : Millis) (q : Pid) :
    (service spawn now q s).1 = (s.view q).isResumed now s.world ∧
      Evolves (fun p v => if p = q then v.service now s.world else v) s
        (service spawn now q s).2 := by
  by_cases hactive : ∃ t, s.threads.find? q = some t ∧ t.isActive = true
  · have hview := (isActive_view s q).mpr hactive
    obtain ⟨t, hfind, hactive⟩ := hactive
    have hkept := Thread.kept_service h (ht q t hfind) hactive s.options.turbo
      (s.options.dispatch == .onResume) now s.world
    have hquiet : (s.activityOf now t).requests = [] :=
      List.eq_nil_iff_forall_not_mem.mpr hkept.requests
    have hworld : (s.serve now q).world = s.world := by
      rw [serve_eq hfind, world_recordService]
      exact hkept.world
    rw [service_of_active hfind hactive, hquiet]
    refine ⟨?_, fun p => ?_, hworld, (Frame.serve now q s).nextPid⟩
    · show _ = (s.view q).isResumed now s.world
      unfold View.isResumed
      simp only [view, hfind, hactive, Bool.true_and]
      rfl
    · refine (view_serve hfind hactive now p).trans ?_
      split
      · rename_i hp
        subst hp
        exact (if_pos hview).symm
      · rfl
  · have hview : ¬ (s.view q).isActive = true := fun hv => hactive ((isActive_view s q).mp hv)
    rw [service_of_idle hactive]
    refine ⟨?_, (Evolves.refl s).congr fun p => ?_⟩
    · show false = _
      unfold View.isResumed
      cases hfind : s.threads.find? q with
      | none => simp only [view, hfind]
      | some t =>
        have hidle : t.isActive = false :=
          Bool.eq_false_iff.mpr fun ha => hactive ⟨t, hfind, ha⟩
        simp only [view, hfind, hidle, Bool.false_and]
    · split
      · rename_i hp
        subst hp
        exact (if_neg hview).symm
      · rfl

/-- A service keeps the scripts tame. -/
theorem tame_service (ht : s.IsTame tame) (now : Millis) (q : Pid) :
    (service spawn now q s).2.IsTame tame := by
  refine (evolves_service h ht now q).2.isTame ht fun p hp => ?_
  split
  · exact hp.service h now s.world
  · exact hp

omit h in
theorem serviceAll_snd (now : Millis) (pids : List Pid) (s : Scheduler L) :
    (serviceAll now pids s).2 = pids.foldl (fun s q => (service spawn now q s).2) s := by
  induction pids generalizing s with
  | nil => rfl
  | cons q pids ih => exact ih _

/-- **A row of services is, for every script in the row, its own service.** -/
theorem evolves_serviceAll (ht : s.IsTame tame) (now : Millis) {pids : List Pid}
    (hnodup : pids.Nodup) :
    (serviceAll now pids s).2.IsTame tame ∧
      Evolves (fun p v => if p ∈ pids then v.service now s.world else v) s
        (serviceAll now pids s).2 := by
  rw [serviceAll_snd]
  have hall := Evolves.foldl (fun q s => (service spawn now q s).2) (View.service now s.world)
    (fun s' => s'.IsTame tame ∧ s'.world = s.world) ?_ hnodup ⟨ht, rfl⟩
  · exact ⟨hall.1.1, hall.2⟩
  · rintro q s' ⟨ht', hworld⟩
    have hstep := (evolves_service h ht' now q).2
    refine ⟨⟨tame_service h ht' now q, hstep.world.trans hworld⟩, ?_⟩
    rw [← hworld]
    exact hstep

/-- Those that are resumed in a row of services are those that would be resumed alone. -/
theorem mem_serviceAll (ht : s.IsTame tame) (now : Millis) {pids : List Pid} (hnodup : pids.Nodup)
    (p : Pid) :
    p ∈ (serviceAll now pids s).1 ↔ p ∈ pids ∧ (s.view p).isResumed now s.world = true := by
  induction pids generalizing s with
  | nil => exact ⟨fun hp => absurd hp List.not_mem_nil, fun hp => absurd hp.1 List.not_mem_nil⟩
  | cons q pids ih =>
    obtain ⟨hnew, hnodup⟩ := List.nodup_cons.mp hnodup
    obtain ⟨hresumed, hstep⟩ := evolves_service h ht now q
    have hrest := ih (tame_service h ht now q) hnodup
    have hcons : (serviceAll now (q :: pids) s).1 =
        if (service spawn now q s).1 then q :: (serviceAll now pids (service spawn now q s).2).1
        else (serviceAll now pids (service spawn now q s).2).1 := rfl
    rw [hcons, hresumed]
    rw [hstep.world, hstep.view] at hrest
    by_cases hp : p = q
    · subst hp
      by_cases hown : (s.view p).isResumed now s.world = true
      · rw [if_pos hown]
        exact iff_of_true List.mem_cons_self ⟨List.mem_cons_self, hown⟩
      · rw [if_neg hown, hrest]
        exact iff_of_false (fun hmem => hnew hmem.1) fun hmem => hown hmem.2
    · rw [if_neg hp] at hrest
      have hmem : p ∈ q :: pids ↔ p ∈ pids := List.mem_cons.trans (or_iff_right hp)
      split
      · rw [List.mem_cons, or_iff_right hp, hrest, hmem]
      · rw [hrest, hmem]

end Tame

/-! ### The sweep and the collection -/

theorem evolves_reap (now : Millis) (q : Pid) (s : Scheduler L) :
    Evolves (fun p v => if p = q then v.reap now else v) s (s.reap now q) := by
  refine ⟨fun p => ?_, world_reap now q s, (Frame.reap now q s).nextPid⟩
  cases hfind : s.threads.find? q with
  | some t => exact view_reap hfind now p
  | none =>
    have hsame : s.reap now q = s := by
      unfold reap
      rw [hfind]
    rw [hsame]
    split
    · rename_i hp
      subst hp
      unfold View.reap
      simp only [view, hfind]
    · rfl

theorem mem_gone {p : Pid} :
    p ∈ (s.threads.members.filter (!·.isActive)).map Thread.pid ↔ (s.view p).isGone = true := by
  have hgone : (s.view p).isGone = true ↔
      ∃ t, s.threads.find? p = some t ∧ (!t.isActive) = true := Option.any_eq_true _ _
  rw [hgone, List.mem_map]
  constructor
  · rintro ⟨t, ht, rfl⟩
    exact ⟨t, Roster.find?_of_mem (List.mem_filter.mp ht).1, (List.mem_filter.mp ht).2⟩
  · rintro ⟨t, hfind, hidle⟩
    exact ⟨t, List.mem_filter.mpr ⟨Roster.mem_of_find? hfind, hidle⟩, Roster.key_of_find? hfind⟩

theorem evolves_sweep (now : Millis) (s : Scheduler L) :
    Evolves (fun _ v => v.sweep now) s (s.sweep now).2 := by
  rw [sweep_eq_foldl]
  have hall := Evolves.foldl (s := s) (fun q s => s.reap now q) (View.reap now) (fun _ => True)
    (fun q s _ => ⟨trivial, evolves_reap now q s⟩) (gone_spec s).2 trivial
  refine hall.2.congr fun p => ?_
  simp only [mem_gone]
  rfl

theorem evolves_collectIfDue (now : Millis) (s : Scheduler L) :
    Evolves (fun _ v => v.collectIfDue now) s (s.collectIfDue now).2 := by
  have hsame : ∀ p, (s.view p).options = s.options ∧
      (s.view p).lastCollection = s.lastCollection := fun p => ⟨rfl, rfl⟩
  unfold collectIfDue
  cases hretention : s.options.retention? with
  | none =>
    refine (Evolves.refl s).congr fun p => ?_
    unfold View.collectIfDue
    rw [(hsame p).1, hretention]
  | some retention =>
    simp only
    split
    · rename_i hearly
      refine (Evolves.refl s).congr fun p => ?_
      unfold View.collectIfDue
      rw [(hsame p).1, (hsame p).2, hretention]
      exact (if_pos hearly).symm
    · rename_i hdue
      refine ⟨fun p => (view_collect s now retention p).trans ?_, rfl, rfl⟩
      unfold View.collectIfDue
      rw [(hsame p).1, (hsame p).2, hretention]
      exact (if_neg hdue).symm

theorem mem_collectIfDue (now : Millis) (s : Scheduler L) (p : Pid) :
    p ∈ (s.collectIfDue now).1 ↔ (s.view p).isCollected now = true := by
  have hsame : (s.view p).options = s.options ∧ (s.view p).lastCollection = s.lastCollection :=
    ⟨rfl, rfl⟩
  unfold collectIfDue View.isCollected
  rw [hsame.1, hsame.2]
  cases s.options.retention? with
  | none => exact iff_of_false List.not_mem_nil Bool.false_ne_true
  | some retention =>
    simp only
    by_cases hearly : now - s.lastCollection < retention
    · rw [if_pos hearly, decide_eq_true hearly]
      exact iff_of_false List.not_mem_nil Bool.false_ne_true
    · rw [if_neg hearly, decide_eq_false hearly, Bool.not_false, Bool.true_and]
      show p ∈ (s.table.members.filter (·.isExpired now retention)).map (·.pid) ↔ _
      rw [Option.any_eq_true, List.mem_map]
      constructor
      · rintro ⟨e, he, rfl⟩
        exact ⟨e, Roster.find?_of_mem (List.mem_filter.mp he).1, (List.mem_filter.mp he).2⟩
      · rintro ⟨e, hfind, hexpired⟩
        exact ⟨e, List.mem_filter.mpr ⟨Roster.mem_of_find? hfind, hexpired⟩,
          Roster.key_of_find? hfind⟩

section Tame

variable (h : L.IsInsular (fun _ => False) tame)

include h

/-- All services of a heartbeat are, for every script, its own service. -/
theorem evolves_livePids (ht : s.IsTame tame) (now : Millis) :
    Evolves (fun _ v => v.service now s.world) s (serviceAll now s.livePids s).2 := by
  refine (evolves_serviceAll h ht now (Roster.keys_nodup s.threads)).2.congr fun p => ?_
  split
  · rfl
  · rename_i hnone
    -- a script without a thread is not serviced
    have hidle : ¬ (s.view p).isActive = true := by
      intro hactive
      obtain ⟨t, hfind, -⟩ := (isActive_view s p).mp hactive
      exact hnone (Roster.mem_keys.mpr (Option.isSome_iff_exists.mpr ⟨t, hfind⟩))
    exact (if_neg hidle).symm

/-- **A heartbeat is, for every script, a heartbeat of its own.** -/
theorem evolves_tick (ht : s.IsTame tame) (now : Millis) :
    Evolves (fun _ v => v.tick now s.world) s (s.tick now).2 :=
  ((evolves_livePids h ht now).trans (evolves_sweep now _)).trans (evolves_collectIfDue now _)

/-- The threads that a heartbeat resumes are those that would be resumed alone. -/
theorem mem_resumed_tick (ht : s.IsTame tame) (now : Millis) (p : Pid) :
    p ∈ (s.tick now).1.resumed ↔ (s.view p).isResumed now s.world = true := by
  refine (mem_serviceAll h ht now (Roster.keys_nodup s.threads) p).trans
    (and_iff_right_of_imp fun hresumed => Roster.mem_keys.mpr ?_)
  unfold View.isResumed at hresumed
  have hthread : (s.view p).thread? = s.threads.find? p := rfl
  rw [hthread] at hresumed
  cases hfind : s.threads.find? p with
  | none =>
    rw [hfind] at hresumed
    exact absurd hresumed nofun
  | some t => rfl

/-- So are those that it removes. -/
theorem mem_reaped_tick (ht : s.IsTame tame) (now : Millis) (p : Pid) :
    p ∈ (s.tick now).1.reaped ↔ ((s.view p).service now s.world).isGone = true := by
  rw [← (evolves_livePids h ht now).view]
  exact mem_gone

/-- So are the entries that it drops. -/
theorem mem_collected_tick (ht : s.IsTame tame) (now : Millis) (p : Pid) :
    p ∈ (s.tick now).1.collected ↔
      (((s.view p).service now s.world).sweep now).isCollected now = true := by
  rw [← (evolves_livePids h ht now).view, ← (evolves_sweep now _).view]
  exact mem_collectIfDue now _ p

end Tame

/-! ## Operations -/

theorem resolveActive_pid (s : Scheduler L) (q : Pid) :
    s.resolveActive (.pid q) = if (s.view q).isActive then [q] else [] := by
  have hfound : ∀ t, s.activeThreads.find? (·.pid == q) = some t →
      s.threads.find? q = some t ∧ t.isActive = true := by
    intro t ht
    have hpid : t.pid = q := by simpa using List.find?_some ht
    exact hpid ▸ mem_activeThreads.mp (List.mem_of_find?_eq_some ht)
  unfold resolveActive
  simp only
  cases hfind : s.activeThreads.find? (·.pid == q) with
  | some t =>
    obtain ⟨hthread, hactive⟩ := hfound t hfind
    rw [if_pos ((isActive_view s q).mpr ⟨t, hthread, hactive⟩), Option.map_some,
      show t.pid = q from Roster.key_of_find? hthread]
    rfl
  | none =>
    rw [if_neg, Option.map_none]
    · rfl
    · intro hactive
      obtain ⟨t, hthread, hrunning⟩ := (isActive_view s q).mp hactive
      obtain rfl : t.pid = q := Roster.key_of_find? hthread
      have hnone := List.find?_eq_none.mp hfind t (mem_activeThreads.mpr ⟨hthread, hrunning⟩)
      exact hnone (beq_self_eq_true t.pid)

theorem evolves_stop (s : Scheduler L) (q : Pid) :
    Evolves (fun p v => if p = q ∧ v.isActive = true then v.abandon else v) s
      (s.stop (.pid q)).2 := by
  unfold stop
  simp only [resolveActive_pid]
  by_cases hactive : (s.view q).isActive = true
  · obtain ⟨t, hfind, -⟩ := (isActive_view s q).mp hactive
    rw [if_pos hactive, if_neg fun h => absurd h.2 (List.cons_ne_nil _ _)]
    refine ⟨fun p => (view_abandon hfind p).trans ?_, ?_, (Frame.abandon q s).nextPid⟩
    · by_cases hp : p = q
      · subst hp
        rw [if_pos rfl, if_pos ⟨rfl, hactive⟩]
      · rw [if_neg hp, if_neg fun h => hp h.1]
    · show (s.abandon q).world = s.world
      unfold abandon
      simp only [hfind]
      rfl
  · rw [if_neg hactive, if_pos ⟨nofun, rfl⟩]
    refine (Evolves.refl s).congr fun p => (if_neg ?_).symm
    rintro ⟨rfl, hp⟩
    exact hactive hp

theorem evolves_pause (s : Scheduler L) (q : Pid) :
    Evolves (fun p v => if p = q ∧ v.isActive = true then v.changeState .toggle else v) s
      (s.pause (.pid q)).2 := by
  unfold pause
  simp only [resolveActive_pid, reduceCtorEq, if_false]
  by_cases hactive : (s.view q).isActive = true
  · obtain ⟨t, hfind, -⟩ := (isActive_view s q).mp hactive
    rw [if_pos hactive]
    refine ⟨fun p => (view_changeState hfind .toggle p).trans ?_, ?_,
      (Frame.changeState .toggle q s).nextPid⟩
    · by_cases hp : p = q
      · subst hp
        rw [if_pos rfl, if_pos ⟨rfl, hactive⟩]
      · rw [if_neg hp, if_neg fun h => hp h.1]
    · show (s.changeState .toggle q).world = s.world
      unfold changeState
      simp only [hfind]
      rfl
  · rw [if_neg hactive]
    refine (Evolves.refl s).congr fun p => (if_neg ?_).symm
    rintro ⟨rfl, hp⟩
    exact hactive hp

end Scheduler

/-- The host lets time pass, feeds a line, sets the allowance, takes the news, or stops or pauses
one script. -/
def Operation.IsPlain : Operation L → Prop
  | .tick | .feed _ | .setTurbo _ | .drainStatus | .stop (.pid _) | .pause (.pid _) => True
  | _ => False

namespace Scheduler

variable {s : Scheduler L}

/-- **What an operation makes of a scheduler is, for every script, what it makes of its view.** -/
theorem evolves_perform (h : L.IsInsular (fun _ => False) tame) (ht : s.IsTame tame)
    {op : Operation L} (hop : op.IsPlain) (now : Millis) :
    Evolves (fun _ v => v.perform now s.world op) s (op.perform now s) := by
  cases op with
  | tick => exact evolves_tick h ht now
  | feed line => exact ⟨view_feed s line, rfl, rfl⟩
  | setTurbo turbo => exact ⟨fun _ => rfl, rfl, rfl⟩
  | drainStatus => exact ⟨fun _ => rfl, rfl, rfl⟩
  | stop target =>
    cases target with
    | pid q => exact (evolves_stop s q).congr fun _ => rfl
    | _ => exact absurd hop id
  | pause target =>
    cases target with
    | pid q => exact (evolves_pause s q).congr fun _ => rfl
    | _ => exact absurd hop id
  | _ => exact absurd hop id

end Scheduler

end Heartbeat

import Heartbeat.Proofs.Scheduler.Entry
import Heartbeat.Proofs.Scheduler.Inner
import Heartbeat.Proofs.Scheduler.Waiting

/-!
# The census of a run

Every thread that was launched is live or was removed, and is removed once at most. So the report of
a heartbeat can be read off the threads: it names as removed those that left in the heartbeat, and
as resumed those that were due when their turn came.

* `Move.mem_livePids`: who is live behind a move.
* `Path.census`: the live threads and the removed ones are those that were launched.
* `Thread.IsDue`, `service_resumes_iff`: which threads a service resumes.
* `report_law_of_create`: what the report of every heartbeat says, and the census of every run.
-/

namespace Heartbeat

variable {L : Language} {now : Millis}

/-- The thread that is removed in a move. -/
def Move.reaped? : Move L → Option Pid
  | .reap pid => some pid
  | _ => none

/-- The threads that are removed in a row of moves, in order. -/
def reaped (moves : List (Millis × Move L)) : List Pid := moves.filterMap (·.2.reaped?)

/-- The threads that an operation reports as removed. -/
def Operation.reaped (now : Millis) (s : Scheduler L) : Operation L → List Pid
  | .tick => (s.tick now).1.reaped
  | _ => []

/-- All threads that are reported as removed in a row of operations. -/
def reapedOf : List (Millis × Operation L) → Scheduler L → List Pid
  | [], _ => []
  | (now, op) :: ops, s => op.reaped now s ++ reapedOf ops (op.perform now s)

/-! ## Who is live -/

/-- A thread is there behind a fate if it was born, or was there and is not removed. -/
theorem Fate.isSome_thread {slot slot' : Slot L} {acts : List (Act L)}
    {reports : List ThreadReport} (h : Fate now slot acts reports slot') :
    slot'.thread?.isSome = true ↔
      .started ∈ acts ∨ slot.thread?.isSome = true ∧ .reaped ∉ acts := by
  cases h with
  | served turbo dispatchFirst world talk hactive hawake htalk =>
    have hdid : ∀ {deeds : List (Deed L)} {act : Act L}, (∀ deed, act ≠ .did deed) →
        act ∉ deeds.map .did := by
      intro deeds act hne hmem
      obtain ⟨deed, -, hdeed⟩ := List.mem_map.mp hmem
      exact hne deed hdeed.symm
    exact iff_of_true rfl (.inr ⟨rfl, hdid nofun⟩)
  | idle => simp
  | born p name path args script queueLimit? => simp
  | rested turbo hactive hpaused => simp
  | heard line hactive hawake => simp
  | paused hactive hawake => simp
  | resumed hactive hpaused => simp
  | marked hactive => simp
  | stopped hmarked hscript => simp
  | buried hended => simp
  | forgotten hclosed => simp

namespace Scheduler

variable {s : Scheduler L} {p : Pid}

theorem mem_livePids : p ∈ s.livePids ↔ (s.slot p).thread?.isSome = true := Roster.mem_keys

theorem lt_of_mem_livePids (hacc : s.Accord) (hlive : p ∈ s.livePids) : p < s.nextPid :=
  (pid_of_taken (taken_of_accord (hacc.slots p) (.inl (mem_livePids.mp hlive)))).2

end Scheduler

namespace Move

variable {s : Scheduler L} {p : Pid}

/-- An act that code does not do is one of the thread that the move is about. -/
theorem not_mem_acts_serve {act : Act L} (hnot : ∀ deed, act ≠ .did deed) (pid : Pid) :
    act ∉ (Move.serve pid).acts now s p := by
  cases hfind : s.threads.find? pid with
  | none => simp [acts, hfind]
  | some t =>
    simp only [acts, hfind, List.mem_ite_nil_right, List.mem_map, not_and, not_exists]
    exact fun _ deed _ hdeed => hnot deed hdeed.symm

theorem started_mem_acts (m : Move L) (now : Millis) (s : Scheduler L) (p : Pid) :
    .started ∈ m.acts now s p ↔ s.nextPid ≤ p ∧ p < (m.apply now s).nextPid := by
  rw [nextPid_apply]
  have hnobody : ¬ (s.nextPid ≤ p ∧ p < s.nextPid + 0) := fun h => Nat.not_lt_of_le h.1 h.2
  cases m with
  | enroll name path script args =>
    have hnext : s.nextPid ≤ p ∧ p < s.nextPid + 1 ↔ p = s.nextPid := by
      rw [Nat.lt_succ_iff, Nat.le_antisymm_iff, and_comm]
    simp only [acts, handsOut, hnext, List.mem_ite_nil_right, List.mem_singleton, and_true]
  | serve pid => exact iff_of_false (not_mem_acts_serve (by simp) pid) hnobody
  | feed line =>
    refine iff_of_false ?_ hnobody
    cases hfind : s.threads.find? p <;> simp [acts, hfind]
  | _ => exact iff_of_false (by simp [acts]) hnobody

theorem reaped_mem_acts (m : Move L) (now : Millis) (s : Scheduler L) (p : Pid) :
    .reaped ∈ m.acts now s p ↔ m.reaped? = some p := by
  cases m with
  | serve pid => exact iff_of_false (not_mem_acts_serve (by simp) pid) nofun
  | feed line =>
    refine iff_of_false ?_ nofun
    cases hfind : s.threads.find? p <;> simp [acts, hfind]
  | reap pid => simp [acts, reaped?, eq_comm]
  | _ => simp [acts, reaped?]

/-- **Who is live behind a move**: who is launched in it, and who was live and is not removed. -/
theorem mem_livePids {m : Move L} (hfits : m.Fits s) (hacc : s.Accord) (now : Millis) (p : Pid) :
    p ∈ (m.apply now s).livePids ↔
      (s.nextPid ≤ p ∧ p < (m.apply now s).nextPid) ∨ p ∈ s.livePids ∧ m.reaped? ≠ some p := by
  obtain ⟨news, hmove⟩ := outcome hfits hacc now
  rw [Scheduler.mem_livePids, (hmove.fates p).isSome_thread, started_mem_acts, reaped_mem_acts,
    Scheduler.mem_livePids]

/-- A thread that is removed was live. -/
theorem live_of_reaped {m : Move L} (hfits : m.Fits s) (hreaped : m.reaped? = some p) :
    p ∈ s.livePids := by
  cases m with
  | reap pid =>
    obtain ⟨t, hfind, -⟩ := hfits
    rw [← Option.some.inj hreaped]
    exact Roster.mem_keys.mpr (Option.isSome_iff_exists.mpr ⟨t, hfind⟩)
  | _ => exact absurd hreaped nofun

/-- **The census of a move**: who is live behind it or is removed in it was live before it or is
launched in it. -/
theorem census {m : Move L} (hfits : m.Fits s) (hacc : s.Accord) (now : Millis) :
    ((m.apply now s).livePids ++ m.reaped?.toList).Perm
      (s.livePids ++ List.range' s.nextPid ((m.apply now s).nextPid - s.nextPid)) := by
  have hlive := mem_livePids hfits hacc now
  have hnew : ∀ p, p ∈ List.range' s.nextPid ((m.apply now s).nextPid - s.nextPid) ↔
      s.nextPid ≤ p ∧ p < (m.apply now s).nextPid := by
    intro p
    rw [List.mem_range'_1, Nat.add_sub_cancel' (nextPid_le m now s)]
  have hold : ∀ p ∈ s.livePids, ¬ s.nextPid ≤ p := fun p hp =>
    Nat.not_le_of_lt (Scheduler.lt_of_mem_livePids hacc hp)
  have hbefore : (s.livePids ++
      List.range' s.nextPid ((m.apply now s).nextPid - s.nextPid)).Nodup := by
    refine List.nodup_append'.mpr ⟨Roster.keys_nodup _, List.nodup_range', fun p hp hp' => ?_⟩
    exact hold p hp ((hnew p).mp hp').1
  have hone : ∀ p? : Option Pid, p?.toList.Nodup := by
    rintro (_ | p)
    · exact List.nodup_nil
    · exact List.nodup_singleton p
  have hbehind : ((m.apply now s).livePids ++ m.reaped?.toList).Nodup := by
    refine List.nodup_append'.mpr ⟨Roster.keys_nodup _, hone m.reaped?, fun p hp hp' => ?_⟩
    have hreaped := Option.mem_toList.mp hp'
    rcases (hlive p).mp hp with hstarted | hkept
    · exact hold p (live_of_reaped hfits hreaped) hstarted.1
    · exact hkept.2 hreaped
  refine (List.perm_ext_iff_of_nodup hbehind hbefore).mpr fun p => ?_
  rw [List.mem_append, List.mem_append, hlive, hnew, Option.mem_toList]
  constructor
  · rintro ((hstarted | hkept) | hreaped)
    · exact .inr hstarted
    · exact .inl hkept.1
    · exact .inl (live_of_reaped hfits hreaped)
  · rintro (hp | hstarted)
    · by_cases hreaped : m.reaped? = some p
      · exact .inr hreaped
      · exact .inl (.inr ⟨hp, hreaped⟩)
    · exact .inl (.inl hstarted)

end Move

/-- **The census of a path**: who is live at its end or is removed on it was live at its start or is
launched on it. -/
theorem Path.census {s s' : Scheduler L} {moves : List (Millis × Move L)} (h : Path s moves s')
    (hacc : s.Accord) :
    (s'.livePids ++ reaped moves).Perm
      (s.livePids ++ List.range' s.nextPid (s'.nextPid - s.nextPid)) := by
  induction h with
  | nil s =>
    rw [Nat.sub_self]
    exact .refl _
  | @cons s s' m moves now hfits hrest ih =>
    have hmove := Move.census hfits hacc now
    have hranges : List.range' s.nextPid ((m.apply now s).nextPid - s.nextPid) ++
          List.range' (m.apply now s).nextPid (s'.nextPid - (m.apply now s).nextPid) =
        List.range' s.nextPid (s'.nextPid - s.nextPid) :=
      List.Ico.append_consecutive (Move.nextPid_le m now s) hrest.nextPid_le
    have hsplit : reaped ((now, m) :: moves) = m.reaped?.toList ++ reaped moves := by
      unfold reaped
      rw [List.filterMap_eq_flatMap_toList, List.filterMap_eq_flatMap_toList, List.flatMap_cons]
    rw [hsplit, ← hranges, ← List.append_assoc s.livePids]
    -- the removal of the move changes places with the threads that are live at the end
    refine (List.perm_append_comm_assoc _ _ _).trans ?_
    refine ((ih (Move.accord hfits hacc now)).append_left _).trans ?_
    rw [← List.append_assoc]
    exact (List.perm_append_comm.trans hmove).append_right _

/-! ## Who is resumed -/

/-- **A thread that goes on is due in its turn** at a time: it is not paused and does not wait, or
its wait is over. A condition is looked at behind the callbacks of the turn, and ends the wait when
it holds or breaks down. -/
inductive Thread.IsDue (turbo : Nat) (dispatchFirst : Bool) (now : Millis) (world : L.World)
    (t : Thread L) : Prop
  | running (h : t.state = .running)
  | elapsed {w : Wait L.Condition} (h : t.state = .delayed w) (hdue : w.deadline ≤ now)
      (hcond : w.condition? = none)
  | held {w : Wait L.Condition} {c : L.Condition} (h : t.state = .delayed w)
      (hdue : w.deadline ≤ now) (hcond : w.condition? = some c)
      (heval : (L.evaluate c ((t.opening turbo dispatchFirst now world).thread.memory,
        (t.opening turbo dispatchFirst now world).world)).1 = .known true)
  | broke {w : Wait L.Condition} {c : L.Condition} {text? : Option String}
      (h : t.state = .delayed w) (hdue : w.deadline ≤ now) (hcond : w.condition? = some c)
      (heval : (L.evaluate c ((t.opening turbo dispatchFirst now world).thread.memory,
        (t.opening turbo dispatchFirst now world).world)).1 = .panicked text?)

namespace Thread

variable {t : Thread L} {turbo : Nat} {dispatchFirst : Bool} {world : L.World}

/-- A thread that is due does not wait, or its condition does not refuse. -/
theorem IsDue.state (h : t.IsDue turbo dispatchFirst now world) :
    t.state = .running ∨ ∃ w, t.state = .delayed w ∧ w.deadline ≤ now ∧
      ∀ c, w.condition? = some c →
        (L.evaluate c ((t.opening turbo dispatchFirst now world).thread.memory,
          (t.opening turbo dispatchFirst now world).world)).1 ≠ .known false := by
  cases h with
  | running hs => exact .inl hs
  | @elapsed w hs hdue hcond =>
    exact .inr ⟨w, hs, hdue, fun c hc => absurd (hcond.symm.trans hc) nofun⟩
  | @held w c hs hdue hcond heval =>
    refine .inr ⟨w, hs, hdue, fun c' hc => ?_⟩
    rw [← Option.some.inj (hcond.symm.trans hc), heval]
    exact nofun
  | @broke w c text? hs hdue hcond heval =>
    refine .inr ⟨w, hs, hdue, fun c' hc => ?_⟩
    rw [← Option.some.inj (hcond.symm.trans hc), heval]
    exact nofun

/-- **A service resumes a thread iff it is due.** -/
theorem service_resumes_iff (hactive : t.isActive = true) :
    (t.service turbo dispatchFirst now world).value ≠ .notEligible ↔
      t.IsDue turbo dispatchFirst now world := by
  obtain ⟨hsame, -⟩ := opening_state hactive turbo dispatchFirst now world
  obtain ⟨deeds, a, hp, hservice, -⟩ := serviced hactive turbo dispatchFirst now world
  rw [hservice]
  cases hp with
  | running hs =>
    exact iff_of_true (afterPoll_ne_notEligible _ now _) (.running (hsame.symm.trans hs))
  | paused hs =>
    rw [hsame] at hs
    refine iff_of_false (fun h => h rfl) fun hdue => ?_
    rcases hdue.state with hstate | ⟨w, hstate, -⟩
    · rw [hstate] at hs
      exact absurd hs nofun
    · rw [hstate] at hs
      exact absurd hs nofun
  | early hs hlt =>
    refine iff_of_false (fun h => h rfl) fun hdue => ?_
    rcases hdue.state with hstate | ⟨w, hstate, htime, -⟩
    · exact absurd (hs.symm.trans (hsame.trans hstate)) nofun
    · rw [ExecutionState.delayed.inj (hs.symm.trans (hsame.trans hstate))] at hlt
      exact absurd htime (Nat.not_le_of_lt hlt)
  | elapsed hs hdue hcond =>
    exact iff_of_true (afterPoll_ne_notEligible _ now _)
      (.elapsed (hsame.symm.trans hs) hdue hcond)
  | held hs hdue hcond heval =>
    exact iff_of_true (afterPoll_ne_notEligible _ now _)
      (.held (hsame.symm.trans hs) hdue hcond (by rw [heval]))
  | refused hs _ hcond heval =>
    refine iff_of_false (fun h => h rfl) fun hdue => ?_
    rcases hdue.state with hstate | ⟨w, hstate, -, hverdict⟩
    · exact absurd (hs.symm.trans (hsame.trans hstate)) nofun
    · rw [ExecutionState.delayed.inj (hs.symm.trans (hsame.trans hstate))] at hcond
      exact hverdict _ hcond (by rw [heval])
  | broke hs hdue hcond heval =>
    exact iff_of_true nofun (.broke (hsame.symm.trans hs) hdue hcond (by rw [heval]))

end Thread

namespace Scheduler

variable {s : Scheduler L} {p : Pid}

/-- The thread of an identifier was neither stopped nor has it ended, and it is due. -/
def IsDue (now : Millis) (p : Pid) (s : Scheduler L) : Prop :=
  ∃ t, s.threads.find? p = some t ∧ t.abandoned = false ∧ t.isTerminated = false ∧
    t.IsDue s.options.turbo (s.options.dispatch == .onResume) now s.world

theorem service_resumes_iff :
    (service spawn now p s).1 = true ↔ s.IsDue now p := by
  by_cases hactive : ∃ t, s.threads.find? p = some t ∧ t.isActive = true
  · obtain ⟨t, hfind, hactive⟩ := hactive
    rw [service_fst hfind hactive]
    refine (Thread.service_resumes_iff hactive).trans ⟨fun hdue => ?_, ?_⟩
    · exact ⟨t, hfind, Thread.not_abandoned_of_active hactive,
        Thread.not_terminated_of_active hactive, hdue⟩
    · rintro ⟨t', hfind', -, -, hdue⟩
      rw [Option.some.inj (hfind.symm.trans hfind')]
      exact hdue
  · rw [service_of_idle hactive]
    refine iff_of_false Bool.false_ne_true ?_
    rintro ⟨t, hfind, hunmarked, hscript, -⟩
    refine hactive ⟨t, hfind, ?_⟩
    unfold Thread.isActive
    rw [hunmarked, hscript]
    rfl

end Scheduler

/-! ## The reports of a run -/

theorem reaped_append (moves moves' : List (Millis × Move L)) :
    reaped (moves ++ moves') = reaped moves ++ reaped moves' :=
  List.filterMap_append

theorem reaped_eq_nil {moves : List (Millis × Move L)} (h : ∀ x ∈ moves, x.2.reaped? = none) :
    reaped moves = [] :=
  List.filterMap_eq_nil_iff.mpr h

theorem Move.reaped?_of_inner {m : Move L} (h : m.isInner = true) : m.reaped? = none := by
  cases m with
  | reap pid => exact absurd h nofun
  | _ => rfl

/-- A heartbeat reports as removed the threads that its sweep removes. -/
theorem Scheduler.reaped_tickMoves (now : Millis) (s : Scheduler L) :
    Heartbeat.reaped (s.tickMoves now) = (s.tick now).1.reaped := by
  have hservices : Heartbeat.reaped (serviceAllMoves now s.livePids s) = [] :=
    reaped_eq_nil fun x hx => Move.reaped?_of_inner (inner_serviceAllMoves now s.livePids s x hx)
  have hcollect : ∀ s : Scheduler L,
      Heartbeat.reaped ((s.collectIfDueMoves now).map (now, ·)) = [] := by
    intro s
    refine reaped_eq_nil (List.forall_mem_map.mpr fun m hm => ?_)
    obtain ⟨retention, -, -, rfl⟩ := mem_collectIfDueMoves hm
    rfl
  unfold tickMoves
  rw [reaped_append, reaped_append, hservices, hcollect, List.nil_append, List.append_nil]
  unfold Heartbeat.reaped sweepMoves
  rw [List.map_map, List.filterMap_map]
  exact congrFun (List.filterMap_eq_map (f := Thread.pid)) _

/-- **An operation reports as removed the threads that its moves remove.** -/
theorem Operation.reaped_moves (now : Millis) (op : Operation L) (s : Scheduler L) :
    Heartbeat.reaped (op.moves now s) = op.reaped now s := by
  have hinner : ∀ {moves : List (Millis × Move L)}, (∀ x ∈ moves, x.2.isInner = true) →
      Heartbeat.reaped moves = [] := fun h =>
    reaped_eq_nil fun x hx => Move.reaped?_of_inner (h x hx)
  cases op with
  | tick => exact s.reaped_tickMoves now
  | run identity args =>
    refine hinner ?_
    unfold moves
    exact Scheduler.inner_startWithMoves Scheduler.inner_spawn now identity s.searchPath args s
  | start identity searchPath args =>
    refine hinner ?_
    unfold moves
    exact Scheduler.inner_startWithMoves Scheduler.inner_spawn now identity searchPath args s
  | startScript name label script args =>
    exact hinner (Scheduler.inner_startScriptMoves now name label script args s)
  | parse source => exact hinner (Scheduler.inner_parseMoves now source s)
  | stop target => exact hinner (Move.inner_of_control (Scheduler.control_stopMoves s target))
  | stopAll => exact hinner (Move.inner_of_control (Scheduler.control_stopMoves s .all))
  | pause target =>
    exact hinner (Move.inner_of_control (Scheduler.control_pauseMoves s target))
  | toggleAll => exact hinner (Move.inner_of_control (Scheduler.control_toggleAllMoves s))
  | collectGarbage =>
    refine reaped_eq_nil (List.forall_mem_map.mpr fun m hm => ?_)
    obtain ⟨retention, -, rfl⟩ := Scheduler.mem_collectGarbageMoves hm
    rfl
  | feed | setTurbo | drainStatus | outside => rfl

theorem reaped_history (ops : List (Millis × Operation L)) (s : Scheduler L) :
    reaped (history ops s) = reapedOf ops s := by
  induction ops generalizing s with
  | nil => rfl
  | cons op ops ih =>
    unfold history reapedOf
    rw [reaped_append, Operation.reaped_moves, ih]

/-- **The law of the report** of a heartbeat in a state. -/
structure ReportLaw (now : Millis) (s : Scheduler L) : Prop where
  resumedOrder : (s.tick now).1.resumed.Pairwise (· < ·)
  /-- Resumed are the threads that were live when the heartbeat began and were due when their turn
  came, behind the turns of those before them. -/
  resumed : ∀ p, p ∈ (s.tick now).1.resumed ↔
    ∃ earlier later, s.livePids = earlier ++ p :: later ∧
      (Scheduler.serviceAll now earlier s).2.IsDue now p
  reapedOrder : (s.tick now).1.reaped.Pairwise (· < ·)
  /-- Removed are the threads that were live when the heartbeat began, or were launched in it, and
  are not live any more. -/
  reaped : ∀ p, p ∈ (s.tick now).1.reaped ↔
    (p ∈ s.livePids ∨ s.nextPid ≤ p ∧ p < (s.tick now).2.nextPid) ∧ p ∉ (s.tick now).2.livePids

/-- **The census** of the run of a row of operations from a state. -/
structure CensusLaw (ops : List (Millis × Operation L)) (s₀ : Scheduler L) : Prop where
  /-- The threads that the news tells the start of are those that are live and those that were
  reported as removed. -/
  whole : ((performAll ops s₀).livePids ++ reapedOf ops s₀).Perm
    ((newsOf ops s₀).filterMap StatusEvent.startedPid?)
  /-- No thread is reported as removed twice, or while it is live. -/
  once : ((performAll ops s₀).livePids ++ reapedOf ops s₀).Nodup

theorem Scheduler.Accord.reportLaw {s : Scheduler L} (hacc : s.Accord) (now : Millis) :
    ReportLaw now s := by
  have hpath := (Scheduler.path_tick now s).path
  have hcensus := hpath.census hacc
  rw [Scheduler.reaped_tickMoves] at hcensus
  have hnew : ∀ p, p ∈ List.range' s.nextPid ((s.tick now).2.nextPid - s.nextPid) ↔
      s.nextPid ≤ p ∧ p < (s.tick now).2.nextPid := by
    intro p
    rw [List.mem_range'_1, Nat.add_sub_cancel' hpath.nextPid_le]
  have hapart : ((s.tick now).2.livePids ++ (s.tick now).1.reaped).Nodup := by
    refine hcensus.nodup_iff.mpr (List.nodup_append'.mpr
      ⟨Roster.keys_nodup _, List.nodup_range', fun p hp hp' => ?_⟩)
    exact Nat.not_lt_of_le ((hnew p).mp hp').1 (Scheduler.lt_of_mem_livePids hacc hp)
  refine ⟨?_, fun p => ⟨fun hp => ?_, ?_⟩, ?_, fun p => ?_⟩
  · exact (Roster.keys_pairwise s.threads).sublist (Scheduler.resumed_sublist now s.livePids s)
  · obtain ⟨earlier, later, hlive⟩ :=
      List.append_of_mem (Scheduler.resumed_subset now s.livePids s hp)
    exact ⟨earlier, later, hlive,
      Scheduler.service_resumes_iff.mp ((Scheduler.mem_resumed hlive).mp hp)⟩
  · rintro ⟨earlier, later, hlive, hdue⟩
    exact (Scheduler.mem_resumed hlive).mpr (Scheduler.service_resumes_iff.mpr hdue)
  · exact (Roster.keys_pairwise (Scheduler.serviceAll now s.livePids s).2.threads).sublist
      (List.filter_sublist.map Thread.pid)
  · have hmem := hcensus.mem_iff (a := p)
    rw [List.mem_append, List.mem_append, hnew] at hmem
    rw [← hmem]
    constructor
    · intro hp
      exact ⟨.inr hp, fun hlive => (List.nodup_append'.mp hapart).2.2 hlive hp⟩
    · rintro ⟨hp, hgone⟩
      exact hp.resolve_left hgone

/-- **What a heartbeat reports, and the census, hold in every run**, whatever the host does and
whatever the scripts do. -/
theorem report_law_of_create (options : SchedulerOptions) (library : ScriptLibrary)
    (searchPath : List ScriptPath) (world : L.World) (start : Millis) (clock : Clock)
    (ops : List (Millis × Operation L)) :
    let s₀ := Scheduler.create (L := L) options library searchPath world start clock
    (∀ now, ReportLaw now (performAll ops s₀)) ∧ CensusLaw ops s₀ := by
  intro s₀
  have hacc : s₀.Accord := Scheduler.accord_create options library searchPath world start clock
  have hpath : Path s₀ (history ops s₀) (performAll ops s₀) := path_history ops s₀
  have hcensus := hpath.census hacc
  rw [reaped_history] at hcensus
  have hlaunched : (newsOf ops s₀).filterMap StatusEvent.startedPid? =
      List.range' s₀.nextPid ((performAll ops s₀).nextPid - s₀.nextPid) := by
    rw [newsOf_eq_told]
    exact (hpath.started hacc).2
  refine ⟨(hpath.accord hacc).reportLaw, ?_, ?_⟩
  · rw [hlaunched]
    exact hcensus
  · exact hcensus.nodup_iff.mpr List.nodup_range'

end Heartbeat

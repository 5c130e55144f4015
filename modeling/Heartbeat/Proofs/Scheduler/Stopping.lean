import Heartbeat.Proofs.Scheduler.Census
import Heartbeat.Proofs.Scheduler.Collection
import Heartbeat.Proofs.Scheduler.Requests

/-!
# Stopping

A stop marks threads, and the next sweep clears them away. Between the two nothing happens to a
marked thread any more: no service, no pause, no start of its path and no collection touches it or
its entry, whatever the host and the scripts do meanwhile.

* `Scheduler.Marked`: a thread that was marked, with its entry; `Path.marked`: it stays so until it
  is removed.
* `Marked.doomed`: what can be tried with a marked thread, and fails.
* `Marked.swept`: a sweep removes it and closes its entry.
* `StopAt`: where a stop is issued in a run, by the host or on the request of a script.
* `stop_law_of_create`: the law of stops.
-/

namespace Heartbeat

variable {L : Language} {now : Millis}

/-! ## Live entries -/

/-- Nothing is kept in a live entry. -/
def Scheduler.Fresh (s : Scheduler L) : Prop :=
  ∀ p e, s.table.find? p = some e → e.isLive = true → e.IsFresh

theorem Passage.fresh {s : Scheduler L} {m : Move L} {p : Pid} {e? e?' : Option ProcessEntry}
    (h : Passage now s m p e? e?') (hfresh : ∀ e, e? = some e → e.isLive = true → e.IsFresh) :
    ∀ e, e?' = some e → e.isLive = true → e.IsFresh := by
  cases h with
  | kept => exact hfresh
  | entered hmove hpid =>
    intro e he _
    obtain rfl := Option.some.inj he
    exact ⟨rfl, rfl, rfl⟩
  | @shown e₀ hlive status =>
    intro e he _
    obtain rfl := Option.some.inj he
    obtain ⟨-, hvalues, herror⟩ := hfresh e₀ rfl hlive
    exact ⟨hlive, hvalues, herror⟩
  | closed _ outcome =>
    intro e he hlive
    obtain rfl := Option.some.inj he
    exact absurd (hlive.symm.trans (ProcessEntry.not_live_of_endTime (outcome.endTime_close _)))
      nofun
  | replaced => nofun
  | collected => nofun

theorem Path.fresh {s s' : Scheduler L} {moves : List (Millis × Move L)} (h : Path s moves s')
    (hacc : s.Accord) (hfresh : s.Fresh) : s'.Fresh := by
  induction h with
  | nil => exact hfresh
  | cons now hfits _ ih =>
    exact ih (Move.accord hfits hacc now) fun p =>
      (Move.passage hfits hacc now p).fresh (hfresh p)

/-! ## Marked threads -/

namespace Scheduler

/-- **A thread is marked for stopping**; its script goes on as far as its entry knows. -/
structure Marked (s : Scheduler L) (p : Pid) (t : Thread L) (e : ProcessEntry) : Prop where
  thread : s.threads.find? p = some t
  entry : s.table.find? p = some e
  marked : t.abandoned = true
  script : t.isTerminated = false

namespace Marked

variable {s : Scheduler L} {p : Pid} {t : Thread L} {e : ProcessEntry}

theorem inactive (h : s.Marked p t e) : t.isActive = false := by
  unfold Thread.isActive
  rw [h.marked]
  rfl

theorem live (h : s.Marked p t e) (hacc : s.Accord) : e.isLive = true := by
  obtain ⟨e', he', hdesc⟩ := entry_of_script h.thread (hacc.slots p) h.script
  obtain rfl := Option.some.inj (h.entry.symm.trans he')
  exact hdesc.isLive

theorem slot (h : s.Marked p t e) (hacc : s.Accord) : s.slot p = ⟨some t, some e, true⟩ := by
  have hslot := hacc.slots p
  unfold Scheduler.slot at hslot ⊢
  rw [h.thread, h.entry] at hslot ⊢
  rw [(hslot.of_script h.script).1]

end Marked

end Scheduler

/-- What becomes of a marked thread: nothing, or it is removed and its entry closed. -/
theorem Fate.of_marked {t : Thread L} {e : ProcessEntry} {slot' : Slot L} {acts : List (Act L)}
    {reports : List ThreadReport} (h : Fate now ⟨some t, some e, true⟩ acts reports slot')
    (hmarked : t.abandoned = true) (hscript : t.isTerminated = false) (hlive : e.isLive = true) :
    slot' = ⟨some t, some e, true⟩ ∧ .reaped ∉ acts ∨
      .reaped ∈ acts ∧ slot' = ⟨none, some (e.exit now []), true⟩ := by
  have hidle : t.isActive ≠ true := by
    unfold Thread.isActive
    rw [hmarked]
    exact Bool.false_ne_true
  cases h with
  | idle => exact .inl ⟨rfl, List.not_mem_nil⟩
  | stopped => exact .inr ⟨List.mem_cons_self, rfl⟩
  | buried hended => exact absurd (hended.symm.trans hscript) nofun
  | forgotten hclosed =>
    unfold ProcessEntry.isLive at hlive
    rw [← Option.not_isSome, hclosed] at hlive
    exact absurd hlive nofun
  | rested _ hactive => exact absurd hactive hidle
  | served _ _ _ _ hactive => exact absurd hactive hidle
  | heard _ hactive => exact absurd hactive hidle
  | paused hactive => exact absurd hactive hidle
  | resumed hactive => exact absurd hactive hidle
  | marked hactive => exact absurd hactive hidle

section Marked

variable {s s' : Scheduler L} {m : Move L} {moves : List (Millis × Move L)} {p : Pid}
  {t : Thread L} {e : ProcessEntry}

/-- A marked thread and its entry stay as they are in every move that does not remove it. -/
theorem Move.marked (hfits : m.Fits s) (hacc : s.Accord) (now : Millis) (h : s.Marked p t e)
    (hkept : m.reaped? ≠ some p) : (m.apply now s).Marked p t e := by
  obtain ⟨news, hmove⟩ := Move.outcome hfits hacc now
  have hfate := hmove.fates p
  rw [h.slot hacc] at hfate
  rcases hfate.of_marked h.marked h.script (h.live hacc) with ⟨hsame, -⟩ | ⟨hreaped, -⟩
  · exact ⟨congrArg Slot.thread? hsame, congrArg Slot.listed? hsame, h.marked, h.script⟩
  · exact absurd ((Move.reaped_mem_acts m now s p).mp hreaped) hkept

/-- The removal of a marked thread closes its entry. -/
theorem Move.marked_reap (hfits : (Move.reap p).Fits s) (hacc : s.Accord) (now : Millis)
    (h : s.Marked p t e) :
    ((Move.reap p).apply now s).table.find? p = some (e.exit now []) := by
  obtain ⟨news, hmove⟩ := Move.outcome hfits hacc now
  have hfate := hmove.fates p
  rw [h.slot hacc] at hfate
  rcases hfate.of_marked h.marked h.script (h.live hacc) with ⟨-, hkept⟩ | ⟨-, hgone⟩
  · exact absurd ((Move.reaped_mem_acts (.reap p) now s p).mpr rfl) hkept
  · exact congrArg Slot.listed? hgone

/-- **A marked thread and its entry stay as they are** on every path that does not remove it. -/
theorem Path.marked (hpath : Path s moves s') (hacc : s.Accord) (h : s.Marked p t e)
    (hkept : ∀ x ∈ moves, x.2.reaped? ≠ some p) : s'.Marked p t e := by
  induction hpath with
  | nil => exact h
  | cons now hfits _ ih =>
    rw [List.forall_mem_cons] at hkept
    exact ih (Move.accord hfits hacc now) (Move.marked hfits hacc now h hkept.1) hkept.2

/-- Where entries are neither collected nor make room, a finished one is kept. -/
theorem Path.kept (hpath : Path s moves s') (hacc : s.Accord)
    (hmoves : ∀ x ∈ moves, x.2.roomFor? = none ∧ ∀ retention, x.2 ≠ .collect retention)
    (he : s.table.find? p = some e) (hended : e.isLive = false) : s'.table.find? p = some e := by
  induction hpath with
  | nil => exact he
  | @cons s _ m _ now hfits _ ih =>
    rw [List.forall_mem_cons] at hmoves
    refine ih (Move.accord hfits hacc now) hmoves.2 ?_
    have hpassage := Move.passage hfits hacc now p
    rw [he] at hpassage
    rcases hpassage.of_ended hended with hsame | ⟨-, hroom | ⟨_, retention, hcollect, -⟩⟩
    · exact hsame
    · rw [hmoves.1.1] at hroom
      exact absurd hroom nofun
    · exact absurd hcollect (hmoves.1.2 retention)

end Marked

/-! ## Until the sweep -/

namespace Scheduler

/-- **What a thread is up to that is to be cleared away**, whatever is tried with it. -/
structure Doomed (s : Scheduler L) (p : Pid) (e : ProcessEntry) : Prop where
  /-- Its entry stays, and stays live. -/
  entry : s.table.find? p = some e
  live : e.isLive = true
  /-- No start of its path gets through, or changes anything. -/
  start : ∀ now (c : StartCall L), c.path s = .ok e.path →
    c.perform now s = (.error (.alreadyRunning e.name p), s)
  /-- Neither a stop nor a pause finds it. -/
  stop : s.stop (.pid p) = (.error (.noMatch (.pid p)), s)
  pause : s.pause (.pid p) = (.error (.noMatch (.pid p)), s)
  stopped : ∀ target pids, (s.stop target).1 = .ok pids → p ∉ pids
  stopAll : p ∉ s.stopAll.1

variable {s : Scheduler L} {p : Pid} {t : Thread L} {e : ProcessEntry}

theorem stop_all (s : Scheduler L) : s.stop .all = (.ok s.stopAll.1, s.stopAll.2) := by
  unfold stop
  exact if_neg fun h => h.1 rfl

/-- A stop that finds something stops all that it finds. -/
theorem stop_of_ok {target : Target} {pids : List Pid} (h : (s.stop target).1 = .ok pids) :
    pids = s.resolveActive target ∧ (s.stop target).2 = s.abandonAll pids := by
  by_cases hnone : target ≠ .all ∧ s.resolveActive target = []
  · have hstop : s.stop target = (.error _, _) := if_pos hnone
    rw [hstop] at h
    exact absurd h nofun
  · have hstop : s.stop target = (.ok _, _) := if_neg hnone
    rw [hstop] at h ⊢
    obtain rfl := Except.ok.inj h
    exact ⟨rfl, rfl⟩

namespace Marked

/-- No target names a marked thread. -/
theorem unresolved (h : s.Marked p t e) (target : Target) : p ∉ s.resolveActive target := by
  intro hmem
  obtain ⟨t', hfind, hactive⟩ := active_of_mem_resolveActive hmem
  obtain rfl := Option.some.inj (h.thread.symm.trans hfind)
  exact absurd (hactive.symm.trans h.inactive) nofun

/-- **A marked thread is up to nothing more.** -/
theorem doomed (h : s.Marked p t e) (hacc : s.Accord) (hsingle : s.table.SinglePaths) :
    s.Doomed p e := by
  have hnone : s.resolveActive (.pid p) = [] := by
    refine List.eq_nil_iff_forall_not_mem.mpr fun q hq => ?_
    obtain ⟨t', hfound, hq'⟩ := Option.map_eq_some_iff.mp (Option.mem_toList.mp hq)
    have hpid : t'.pid = p := by simpa using List.find?_some hfound
    exact h.unresolved (.pid p) ((hq'.symm.trans hpid) ▸ hq)
  refine ⟨h.entry, h.live hacc, ?_, ?_, ?_, ?_, h.unresolved .all⟩
  · intro now c hpath
    rw [← Roster.key_of_find? h.entry]
    exact perform_of_live hsingle now c (Roster.mem_of_find? h.entry) hpath (h.live hacc)
  · exact if_pos ⟨nofun, hnone⟩
  · unfold pause
    rw [if_neg nofun, hnone]
  · intro target pids hok
    rw [(stop_of_ok hok).1]
    exact h.unresolved target

/-- **A sweep removes a marked thread**, and closes its entry. -/
theorem swept (h : s.Marked p t e) (hacc : s.Accord) (now : Millis) :
    p ∈ (s.sweep now).1 ∧ (s.sweep now).2.table.find? p = some (e.exit now []) := by
  have hgone : t ∈ s.threads.members.filter (!·.isActive) :=
    List.mem_filter.mpr ⟨Roster.mem_of_find? h.thread, by rw [h.inactive]; rfl⟩
  have hpid : t.pid = p := Roster.key_of_find? h.thread
  have hreap : ∀ m ∈ s.sweepMoves, ∃ q, m = Move.reap q :=
    List.forall_mem_map.mpr fun _ _ => ⟨_, rfl⟩
  have hmem : Move.reap p ∈ s.sweepMoves := List.mem_map.mpr ⟨t, hgone, by rw [hpid]⟩
  refine ⟨List.mem_map.mpr ⟨t, hgone, hpid⟩, ?_⟩
  -- the threads before it leave it alone, and those behind it leave its entry alone
  have hpath := (path_sweep now s).path
  obtain ⟨before, after, hmoves, hfirst⟩ := List.eq_append_cons_of_mem hmem
  rw [hmoves, List.map_append] at hpath
  rw [hmoves, List.forall_mem_append, List.forall_mem_cons] at hreap
  obtain ⟨hpast, hlast⟩ := hpath.split
  have hacc' := hpast.accord hacc
  have hmarked := hpast.marked hacc h (List.forall_mem_map.mpr fun m hm => ?_)
  · cases hlast with
    | cons _ hfits hrest =>
      refine hrest.kept (Move.accord hfits hacc' now) (List.forall_mem_map.mpr fun m hm => ?_)
        (Move.marked_reap hfits hacc' now hmarked) (ProcessEntry.not_live_of_endTime rfl)
      obtain ⟨q, rfl⟩ := hreap.2.2 m hm
      exact ⟨rfl, nofun⟩
  · obtain ⟨q, rfl⟩ := hreap.1 m hm
    rintro hq
    rw [Option.some.inj hq] at hm
    exact hfirst hm

end Marked

/-! ## Marking -/

theorem table_abandonAll (s : Scheduler L) (pids : List Pid) :
    (s.abandonAll pids).table = s.table := by
  induction pids generalizing s with
  | nil => rfl
  | cons q pids ih => exact (ih (s.abandon q)).trans (table_abandon s q)

theorem find?_abandonAll (s : Scheduler L) (pids : List Pid) (p : Pid) :
    (s.abandonAll pids).threads.find? p =
      if p ∈ pids then (s.threads.find? p).map Thread.abandon else s.threads.find? p := by
  induction pids generalizing s with
  | nil => exact (if_neg List.not_mem_nil).symm
  | cons q pids ih =>
    refine (ih (s.abandon q)).trans ?_
    by_cases hp : p = q
    · subst hp
      rw [find?_abandon_self, if_pos List.mem_cons_self, Option.map_map]
      exact ite_self _
    · have hmem : p ∈ q :: pids ↔ p ∈ pids := List.mem_cons.trans (or_iff_right hp)
      rw [find?_abandon_of_ne hp]
      simp only [hmem]

/-- A stop finds active threads, and marks them. -/
theorem marked_of_stop (hacc : s.Accord) {target : Target} {pids : List Pid}
    (hok : (s.stop target).1 = .ok pids) (hp : p ∈ pids) :
    ∃ t e, s.threads.find? p = some t ∧ t.isActive = true ∧ s.table.find? p = some e ∧
      (s.stop target).2.Marked p t.abandon e := by
  obtain ⟨hpids, hlast⟩ := stop_of_ok hok
  obtain ⟨t, hfind, hactive⟩ := active_of_mem_resolveActive (hpids ▸ hp)
  have hscript := Thread.not_terminated_of_active hactive
  obtain ⟨e, he, -⟩ := entry_of_script hfind (hacc.slots p) hscript
  refine ⟨t, e, hfind, hactive, he, ?_, ?_, rfl, hscript⟩
  · rw [hlast, find?_abandonAll, if_pos hp, hfind]
    rfl
  · rw [hlast, table_abandonAll, he]

end Scheduler

/-! ## Stops in a run -/

/-- The moment when an operation of a run begins. -/
def openingOf (ops : List (Millis × Operation L)) (s₀ : Scheduler L) (k : Nat) : Nat :=
  (history (ops.take k) s₀).length

/-- The moment when the sweep of a heartbeat begins: all its services are over. -/
def sweepOf (ops : List (Millis × Operation L)) (s₀ : Scheduler L) (k : Nat) (time : Millis) :
    Nat :=
  let s := performAll (ops.take k) s₀
  openingOf ops s₀ k + (Scheduler.serviceAllMoves time s.livePids s).length

/-- **Where a stop is issued** in a run, by the operation, the moment, the target and the state. -/
inductive StopAt (ops : List (Millis × Operation L)) (s₀ : Scheduler L) (k : Nat) :
    Nat → Target → Scheduler L → Prop
  /-- By the host. -/
  | host {now : Millis} {target : Target} (hop : ops[k]? = some (now, .stop target)) :
      StopAt ops s₀ k (openingOf ops s₀ k) target (performAll (ops.take k) s₀)
  | hostAll {now : Millis} (hop : ops[k]? = some (now, .stopAll)) :
      StopAt ops s₀ k (openingOf ops s₀ k) .all (performAll (ops.take k) s₀)
  /-- On the request of a script, which is in the log of the operation. -/
  | script {now time : Millis} {op : Operation L} {asker : Pid} {target : Target}
      {x s' : Scheduler L} {before rest : List (Job L × Scheduler L)}
      (hop : ops[k]? = some (now, op))
      (hworks : Works (op.agenda now (performAll (ops.take k) s₀)) (performAll (ops.take k) s₀)
        (before ++ (.request time asker (.stop target), x) :: rest) s') :
      StopAt ops s₀ k (openingOf ops s₀ k + (movesOf before).length) target x

/-- **The first heartbeat** of a run that is not over before an operation begins. -/
structure FirstTick (ops : List (Millis × Operation L)) (k j : Nat) (time : Millis) : Prop where
  le : k ≤ j
  tick : ops[j]? = some (time, .tick)
  first : ∀ i, k ≤ i → i < j → ∀ time', ops[i]? ≠ some (time', .tick)

/-- There is one first heartbeat at most. -/
theorem FirstTick.unique {ops : List (Millis × Operation L)} {k j j' : Nat} {time time' : Millis}
    (h : FirstTick ops k j time) (h' : FirstTick ops k j' time') : j = j' ∧ time = time' := by
  have hsame : j = j' := by
    rcases Nat.lt_trichotomy j j' with hlt | heq | hlt
    · exact absurd h.tick (h'.first j h.le hlt time)
    · exact heq
    · exact absurd h'.tick (h.first j' h'.le hlt time')
  subst hsame
  exact ⟨rfl, congrArg Prod.fst (Option.some.inj (h.tick.symm.trans h'.tick))⟩

section Run

variable {ops : List (Millis × Operation L)} {s₀ : Scheduler L} {k n j m : Nat} {time : Millis}
  {target : Target} {x : Scheduler L}

/-- The moment behind a part of the history. -/
theorem moment_of_append {past rest : List (Millis × Move L)}
    (h : history ops s₀ = past ++ rest) : moment ops s₀ past.length = replay past s₀ := by
  unfold moment
  rw [h, List.take_left' rfl]

theorem history_split (ops : List (Millis × Operation L)) (s₀ : Scheduler L) (k : Nat) :
    history ops s₀ =
      history (ops.take k) s₀ ++ history (ops.drop k) (performAll (ops.take k) s₀) := by
  rw [← history_append, List.take_append_drop]

/-- The history around an operation. -/
theorem history_at {op : Operation L} (hop : ops[k]? = some (now, op)) (s₀ : Scheduler L) :
    history ops s₀ = history (ops.take k) s₀ ++
      (op.moves now (performAll (ops.take k) s₀) ++
        history (ops.drop (k + 1)) (op.perform now (performAll (ops.take k) s₀))) := by
  obtain ⟨hk, hget⟩ := List.getElem?_eq_some_iff.mp hop
  rw [history_split ops s₀ k, List.drop_eq_getElem_cons hk, hget]
  rfl

theorem moment_opening (ops : List (Millis × Operation L)) (s₀ : Scheduler L) (k : Nat) :
    moment ops s₀ (openingOf ops s₀ k) = performAll (ops.take k) s₀ :=
  (moment_of_append (history_split ops s₀ k)).trans (path_history (ops.take k) s₀).replay_eq

/-- The history of a heartbeat up to its sweep. -/
theorem history_tick (htick : ops[k]? = some (time, .tick)) (s₀ : Scheduler L) :
    ∃ rest, history ops s₀ = (history (ops.take k) s₀ ++
      Scheduler.serviceAllMoves time (performAll (ops.take k) s₀).livePids
        (performAll (ops.take k) s₀)) ++ rest := by
  have hall := history_at htick s₀
  unfold Operation.moves Scheduler.tickMoves at hall
  simp only [List.append_assoc] at hall
  rw [← List.append_assoc] at hall
  exact ⟨_, hall⟩

/-- At the sweep of a heartbeat, the threads have been serviced. -/
theorem moment_sweep (htick : ops[k]? = some (time, .tick)) (s₀ : Scheduler L) :
    moment ops s₀ (sweepOf ops s₀ k time) =
      (Scheduler.serviceAll time (performAll (ops.take k) s₀).livePids
        (performAll (ops.take k) s₀)).2 := by
  obtain ⟨rest, hall⟩ := history_tick htick s₀
  have hmoment := moment_of_append hall
  rw [List.length_append, replay_append, (path_history (ops.take k) s₀).replay_eq,
    (Scheduler.path_serviceAll time _ _).path.replay_eq] at hmoment
  exact hmoment

/-- What comes behind the first part of a list. -/
theorem mem_of_mem_drop_append {α : Type} {a : α} {l l' : List α} {n : Nat} (hle : l.length ≤ n)
    (h : a ∈ (l ++ l').drop n) : a ∈ l' := by
  rw [List.drop_append, List.drop_eq_nil_of_le hle, List.nil_append] at h
  exact List.mem_of_mem_drop h

/-- Operations that are no heartbeats remove nobody. -/
theorem reapedOf_eq_nil {ops : List (Millis × Operation L)}
    (h : ∀ (i : Nat) (time : Millis), ops[i]? ≠ some (time, .tick)) (s : Scheduler L) :
    reapedOf ops s = [] := by
  induction ops generalizing s with
  | nil => rfl
  | cons first ops ih =>
    obtain ⟨now, op⟩ := first
    have hquiet : op.reaped now s = [] := by
      cases op with
      | tick => exact absurd rfl (h 0 now)
      | _ => rfl
    unfold reapedOf
    rw [hquiet, ih fun i => h (i + 1)]
    rfl

theorem not_reaped_of_quiet {ops : List (Millis × Operation L)}
    (h : ∀ (i : Nat) (time : Millis), ops[i]? ≠ some (time, .tick)) (s : Scheduler L) :
    ∀ y ∈ history ops s, y.2.reaped? = none :=
  List.filterMap_eq_nil_iff.mp ((reaped_history ops s).trans (reapedOf_eq_nil h s))

/-- Nobody is removed before the sweep of the first heartbeat. -/
theorem not_reaped_before (hfirst : FirstTick ops k j time) (s₀ : Scheduler L)
    (hn : openingOf ops s₀ k ≤ n) (hm : m ≤ sweepOf ops s₀ j time) :
    ∀ y ∈ ((history ops s₀).take m).drop n, y.2.reaped? = none := by
  intro y hy
  obtain ⟨rest, hall⟩ := history_tick hfirst.tick s₀
  have hsplit := history_split (ops.take j) s₀ k
  rw [List.take_take, Nat.min_eq_left hfirst.le] at hsplit
  have hfar : y ∈ ((history ops s₀).take (sweepOf ops s₀ j time)).drop n :=
    (((List.take_sublist_take_left hm)).drop n).subset hy
  rw [hall, List.take_left' (by rw [List.length_append]; rfl), hsplit, List.append_assoc] at hfar
  rcases List.mem_append.mp (mem_of_mem_drop_append hn hfar) with hy | hy
  · refine not_reaped_of_quiet (fun i time' => ?_) _ y hy
    rw [List.getElem?_drop, List.getElem?_take]
    split
    · exact hfirst.first (k + i) (Nat.le_add_right k i) ‹_› time'
    · nofun
  · exact Move.reaped?_of_inner (Scheduler.inner_serviceAllMoves time _ _ y hy)

/-- **Nobody is removed until the next sweep begins.** -/
theorem not_reaped_until (s₀ : Scheduler L) (hn : openingOf ops s₀ k ≤ n)
    (hm : ∀ j time, FirstTick ops k j time → m ≤ sweepOf ops s₀ j time) :
    ∀ y ∈ ((history ops s₀).take m).drop n, y.2.reaped? = none := by
  classical
  by_cases htick : ∃ j, k ≤ j ∧ ∃ time, ops[j]? = some (time, .tick)
  · obtain ⟨hle, time, htime⟩ := Nat.find_spec htick
    have hfirst : FirstTick ops k (Nat.find htick) time :=
      ⟨hle, htime, fun i hki hij time' hi => Nat.find_min htick hij ⟨hki, time', hi⟩⟩
    exact not_reaped_before hfirst s₀ hn (hm _ time hfirst)
  · intro y hy
    rw [history_split ops s₀ k] at hy
    have hfar := ((List.take_sublist m _).drop n).subset hy
    refine not_reaped_of_quiet (fun i time hi => htick ⟨k + i, Nat.le_add_right k i, time, ?_⟩) _ y
      (mem_of_mem_drop_append hn hfar)
    rwa [List.getElem?_drop] at hi

theorem opening_le (ops : List (Millis × Operation L)) (s₀ : Scheduler L) (hle : k ≤ j) :
    openingOf ops s₀ k ≤ openingOf ops s₀ j := by
  have hsplit := history_split (ops.take j) s₀ k
  rw [List.take_take, Nat.min_eq_left hle] at hsplit
  unfold openingOf
  rw [hsplit, List.length_append]
  exact Nat.le_add_right _ _

theorem opening_succ {op : Operation L} (hop : ops[k]? = some (now, op)) (s₀ : Scheduler L) :
    openingOf ops s₀ (k + 1) =
      openingOf ops s₀ k + (op.moves now (performAll (ops.take k) s₀)).length := by
  unfold openingOf
  rw [List.take_add_one, hop, history_append, List.length_append]
  simp [history]

namespace StopAt

/-- The moves of a stop stand among those of its operation; in a heartbeat, among those of the
services. -/
theorem among (h : StopAt ops s₀ k n target x) (hacc : s₀.Accord)
    (hlimit : s₀.nextPid ≤ Pid.limit) :
    ∃ now op time before after closing, ops[k]? = some (now, op) ∧
      op.moves now (performAll (ops.take k) s₀) =
        before ++ ((x.stopMoves target).map (time, ·) ++ after) ++ closing ∧
      (op = .tick → Scheduler.serviceAllMoves now (performAll (ops.take k) s₀).livePids
        (performAll (ops.take k) s₀) =
          before ++ ((x.stopMoves target).map (time, ·) ++ after)) ∧
      n = openingOf ops s₀ k + before.length ∧
      x = replay before (performAll (ops.take k) s₀) := by
  cases h with
  | @host now target hop =>
    refine ⟨now, _, now, [], [], [], hop, ?_, nofun, rfl, rfl⟩
    rw [List.append_nil, List.append_nil]
    rfl
  | @hostAll now hop =>
    refine ⟨now, _, now, [], [], [], hop, ?_, nofun, rfl, rfl⟩
    rw [List.append_nil, List.append_nil]
    rfl
  | @script now time op asker target x s' before rest hop hworks =>
    have hpath := path_history (ops.take k) s₀
    have hpos := (hpath.accord hacc).positive
    have hleft := hpath.nextPid_le_limit hlimit
    generalize performAll (ops.take k) s₀ = s at hworks hpos hleft ⊢
    obtain ⟨done, s'', closing, hdone, hmoves, -⟩ := works_operation now op hpos hleft
    obtain ⟨rfl, -⟩ := hdone.unique hworks
    have hsplit : movesOf (before ++ (.request time asker (.stop target), x) :: rest) =
        movesOf before ++ ((x.stopMoves target).map (time, ·) ++
          (Scheduler.refusal time (x.stop target).1 ++ movesOf rest)) := by
      rw [movesOf_append, movesOf_cons, ← List.append_assoc ((x.stopMoves target).map _)]
      rfl
    refine ⟨now, op, time, movesOf before,
      Scheduler.refusal time (x.stop target).1 ++ movesOf rest, closing, hop, ?_, ?_, rfl,
      (hworks.at_job rfl).1⟩
    · rw [hmoves, hsplit]
    · rintro rfl
      obtain ⟨done, hdone, hservices⟩ := Scheduler.settles_serviceAll now s.livePids hpos hleft
      obtain ⟨rfl, -⟩ := hdone.unique hworks
      rw [← hservices, hsplit]

/-- **A stop in a run**: its state and what comes of it are moments of the run, and no sweep begins
between them. -/
theorem spec (h : StopAt ops s₀ k n target x) (hacc : s₀.Accord)
    (hlimit : s₀.nextPid ≤ Pid.limit) :
    x = moment ops s₀ n ∧ openingOf ops s₀ k ≤ n ∧
      moment ops s₀ (n + (x.stopMoves target).length) = (x.stop target).2 ∧
      ∀ j time, FirstTick ops k j time →
        n + (x.stopMoves target).length ≤ sweepOf ops s₀ j time := by
  obtain ⟨now, op, issued, before, after, closing, hop, hmoves, hservices, rfl, hx⟩ :=
    h.among hacc hlimit
  have hstart := (path_history (ops.take k) s₀).replay_eq
  have hall := history_at hop s₀
  rw [hmoves] at hall
  simp only [List.append_assoc] at hall
  rw [← List.append_assoc] at hall
  have hbefore := moment_of_append hall
  rw [List.length_append, replay_append, hstart, ← hx] at hbefore
  rw [← List.append_assoc] at hall
  have hbehind := moment_of_append hall
  rw [List.length_append, List.length_append, List.length_map, replay_append, replay_append,
    hstart, ← hx, (Scheduler.path_stop x target issued).path.replay_eq] at hbehind
  refine ⟨hbefore.symm, Nat.le_add_right _ _, hbehind, fun j time hfirst => ?_⟩
  rcases Nat.eq_or_lt_of_le hfirst.le with rfl | hlt
  · obtain ⟨rfl, rfl⟩ := Prod.mk.inj (Option.some.inj (hop.symm.trans hfirst.tick))
    unfold sweepOf
    simp only [hservices rfl, List.length_append, List.length_map]
    omega
  · have hsucc := opening_succ hop s₀
    have hnext : k + 1 ≤ j := hlt
    have hle := opening_le ops s₀ hnext
    rw [hmoves] at hsucc
    simp only [List.length_append, List.length_map] at hsucc
    unfold sweepOf
    simp only
    omega

end StopAt

end Run

/-! ## The law -/

/-- **What becomes of a thread that a stop found**, which was issued in an operation of a run and
was over at a moment of it. -/
structure StoppedLaw (ops : List (Millis × Operation L)) (s₀ : Scheduler L) (k last : Nat)
    (x : Scheduler L) (p : Pid) (e : ProcessEntry) : Prop where
  /-- It had neither been stopped nor ended. -/
  found : ∃ t, x.threads.find? p = some t ∧ t.abandoned = false ∧ t.isTerminated = false
  entry : x.table.find? p = some e
  /-- Until the next sweep begins, whatever the host and the scripts try with it fails. -/
  doomed : ∀ m, last ≤ m →
    (∀ j time, FirstTick ops k j time → m ≤ sweepOf ops s₀ j time) → (moment ops s₀ m).Doomed p e
  /-- That sweep comes behind the stop, in the same operation if this is a heartbeat. It removes the
  thread, and closes its entry. -/
  reaped : ∀ j time, FirstTick ops k j time →
    last ≤ sweepOf ops s₀ j time ∧
      p ∈ ((performAll (ops.take j) s₀).tick time).1.reaped ∧
      ((performAll (ops.take j) s₀).swept time).table.find? p =
        some { e with
          endTime? := some time, returnValues := [], status := .exited, error? := none }

/-- **The law of stops** in the run of a row of operations from a state. -/
structure StopLaw (ops : List (Millis × Operation L)) (s₀ : Scheduler L) : Prop where
  /-- A stop of all threads finds what it finds, be it nothing. -/
  all : ∀ n, (moment ops s₀ n).stop .all =
    (.ok (moment ops s₀ n).stopAll.1, (moment ops s₀ n).stopAll.2)
  /-- Any other stop that finds nothing says so, and changes nothing. -/
  failed : ∀ n target e, ((moment ops s₀ n).stop target).1 = .error e →
    e = .noMatch target ∧ ((moment ops s₀ n).stop target).2 = moment ops s₀ n
  /-- Operations and sweeps begin at moments of the run. -/
  opens : ∀ k, moment ops s₀ (openingOf ops s₀ k) = performAll (ops.take k) s₀
  sweeps : ∀ k time, ops[k]? = some (time, .tick) →
    moment ops s₀ (sweepOf ops s₀ k time) =
      (Scheduler.serviceAll time (performAll (ops.take k) s₀).livePids
        (performAll (ops.take k) s₀)).2
  /-- So do stops. -/
  begins : ∀ k n target x, StopAt ops s₀ k n target x → x = moment ops s₀ n
  /-- What a stop found is on its way out. -/
  stopped : ∀ k n target x pids, StopAt ops s₀ k n target x → (x.stop target).1 = .ok pids →
    moment ops s₀ (n + pids.length) = (x.stop target).2 ∧
      ∀ p ∈ pids, ∃ e, StoppedLaw ops s₀ k (n + pids.length) x p e

/-- What a stop found is cleared away by the next sweep, and doomed until then. -/
theorem StopAt.stopped {ops : List (Millis × Operation L)} {s₀ x : Scheduler L} {k n : Nat}
    {target : Target} {pids : List Pid} (h : StopAt ops s₀ k n target x) (hacc : s₀.Accord)
    (hlimit : s₀.nextPid ≤ Pid.limit) (hfresh : s₀.Fresh) (hsingle : s₀.table.SinglePaths)
    (hok : (x.stop target).1 = .ok pids) :
    moment ops s₀ (n + pids.length) = (x.stop target).2 ∧
      ∀ p ∈ pids, ∃ e, StoppedLaw ops s₀ k (n + pids.length) x p e := by
  obtain ⟨hx, hopen, hbehind, hsweep⟩ := h.spec hacc hlimit
  have hlength : (x.stopMoves target).length = pids.length := by
    rw [(Scheduler.stop_of_ok hok).1]
    exact List.length_map _
  rw [hlength] at hbehind hsweep
  have hacc' : x.Accord := hx ▸ accord_moment hacc n
  refine ⟨hbehind, fun p hp => ?_⟩
  obtain ⟨t, e, hfind, hactive, he, hmarked⟩ := Scheduler.marked_of_stop hacc' hok hp
  rw [← hbehind] at hmarked
  have huntil : ∀ m, n + pids.length ≤ m →
      (∀ j time, FirstTick ops k j time → m ≤ sweepOf ops s₀ j time) →
        (moment ops s₀ m).Marked p t.abandon e := by
    intro m hle hm
    refine (path_moment ops s₀ hle).marked (accord_moment hacc _) hmarked fun y hy => ?_
    rw [not_reaped_until s₀ (Nat.le_trans hopen (Nat.le_add_right _ _)) hm y hy]
    nofun
  refine ⟨e, ⟨t, hfind, Thread.not_abandoned_of_active hactive,
    Thread.not_terminated_of_active hactive⟩, he, fun m hle hm => ?_, fun j time hfirst => ?_⟩
  · exact (huntil m hle hm).doomed (accord_moment hacc m)
      ((path_moment ops s₀ (Nat.zero_le m)).singlePaths hacc hsingle)
  · have hlast := huntil (sweepOf ops s₀ j time) (hsweep j time hfirst) fun j' time' hfirst' => by
      obtain ⟨rfl, rfl⟩ := hfirst.unique hfirst'
      exact Nat.le_refl _
    have hacc'' : (moment ops s₀ (sweepOf ops s₀ j time)).Accord := accord_moment hacc _
    have hkept := (path_moment ops s₀ (Nat.zero_le (sweepOf ops s₀ j time))).fresh hacc hfresh p e
      hlast.entry (hlast.live hacc'')
    rw [moment_sweep hfirst.tick] at hlast hacc''
    obtain ⟨hgone, hclosed⟩ := hlast.swept hacc'' time
    refine ⟨hsweep j time hfirst, hgone, hclosed.trans ?_⟩
    rw [← hkept.error]
    rfl

/-- **The law of stops holds in every run**, whatever the host does and whatever the scripts do. -/
theorem stop_law_of_create (options : SchedulerOptions) (library : ScriptLibrary)
    (searchPath : List ScriptPath) (world : L.World) (start : Millis) (clock : Clock)
    (ops : List (Millis × Operation L)) :
    StopLaw ops (Scheduler.create (L := L) options library searchPath world start clock) := by
  have hacc := Scheduler.accord_create (L := L) options library searchPath world start clock
  have hfresh : (Scheduler.create (L := L) options library searchPath world start clock).Fresh :=
    nofun
  have hsingle :
      (Scheduler.create (L := L) options library searchPath world start clock).table.SinglePaths :=
    List.nodup_nil
  have hlimit :=
    Scheduler.nextPid_create_le (L := L) options library searchPath world start clock
  generalize Scheduler.create options library searchPath world start clock = s₀ at *
  refine ⟨fun n => Scheduler.stop_all _, fun n target e herror => ?_, moment_opening ops s₀,
    fun k time htick => moment_sweep htick s₀, fun k n target x h => (h.spec hacc hlimit).1, ?_⟩
  · obtain ⟨-, he, hsame⟩ := Scheduler.stop_of_error herror
    exact ⟨he, hsame⟩
  · intro k n target x pids hstop hok
    exact hstop.stopped hacc hlimit hfresh hsingle hok

end Heartbeat

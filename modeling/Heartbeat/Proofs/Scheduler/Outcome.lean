import Heartbeat.Proofs.Scheduler.Move
import Heartbeat.Proofs.Scheduler.Slot

/-!
# What a move leads to

A move touches one thread, or drops closed entries, or feeds a line to all threads. In each case
every identifier meets one of the fates of `Slot.lean`, the news is what the fates report, and new
identifiers are handed out in order.

* `Move.outcome`: every identifier meets one of its fates in a move.
* `Path.accord`: the entries belong to the threads along every path.
* `Path.run`: the timeline of a path is a piece of the life of the thread.
-/

namespace Heartbeat

variable {L : Language} {now : Millis}

/-! ## What the operations do to a slot -/

namespace Scheduler

variable {s s' : Scheduler L} {p q : Pid} {t : Thread L} {e : ProcessEntry}

theorem slot_congr (hthreads : s'.threads.find? p = s.threads.find? p)
    (htable : s'.table.find? p = s.table.find? p) (hnext : s'.nextPid = s.nextPid) :
    s'.slot p = s.slot p := by
  unfold slot
  rw [hthreads, htable, hnext]

/-- A change touches one identifier, which meets a fate; it is silent about all others. -/
structure Touches (now : Millis) (q : Pid) (acts : List (Act L)) (s s' : Scheduler L) : Prop where
  nextPid : s'.nextPid = s.nextPid
  others : ∀ p, p ≠ q → s'.slot p = s.slot p
  own : ∃ name reports, s'.status = s.status ++ reports.map (StatusEvent.thread q name) ∧
    Fate now (s.slot q) acts reports (s'.slot q)

theorem find?_setThread (s : Scheduler L) (t : Thread L) (p : Pid) :
    (s.setThread t).threads.find? p = if p = t.pid then some t else s.threads.find? p :=
  Roster.find?_insert _ _ _

theorem pid_close (outcome : ThreadOutcome) (now : Millis) (e : ProcessEntry) :
    (outcome.close now e).pid = e.pid := by
  cases outcome <;> rfl

theorem recordOutcome_eq (h : s.table.find? q = some e) (outcome : ThreadOutcome) (now : Millis) :
    s.recordOutcome q outcome now =
      { s with
        table := s.table.insert (outcome.close now e)
        status := s.status ++ [.thread q e.name outcome.report] } := by
  unfold recordOutcome
  rw [h]
  cases outcome <;> rfl

theorem find?_recordOutcome (h : s.table.find? q = some e) (outcome : ThreadOutcome) (now : Millis)
    (p : Pid) :
    (s.recordOutcome q outcome now).table.find? p =
      if p = q then some (outcome.close now e) else s.table.find? p := by
  have hpid : (outcome.close now e).pid = q :=
    (pid_close outcome now e).trans (Roster.key_of_find? h)
  rw [recordOutcome_eq h]
  show (s.table.insert _).find? p = _
  rw [Roster.find?_insert, hpid]

/-- The record of a service closes the entry iff the service led to an end. -/
theorem recordService_spec (h : s.table.find? q = some e) (outcome : Thread.ServiceOutcome)
    (now : Millis) :
    (s.recordService q now outcome).threads = s.threads ∧
      (s.recordService q now outcome).nextPid = s.nextPid ∧
      (s.recordService q now outcome).status =
        s.status ++ outcome.closing.map (StatusEvent.thread q e.name) ∧
      ∀ p, (s.recordService q now outcome).table.find? p =
        if p = q then some (outcome.close now e) else s.table.find? p := by
  have hsame : ∀ p, s.table.find? p = if p = q then some e else s.table.find? p := by
    intro p
    split
    · rename_i hp
      rw [hp, h]
    · rfl
  cases outcome with
  | notEligible => exact ⟨rfl, rfl, (List.append_nil _).symm, hsame⟩
  | resumed outcome =>
    cases outcome with
    | suspended => exact ⟨rfl, rfl, (List.append_nil _).symm, hsame⟩
    | finished outcome =>
      show (s.recordOutcome q outcome now).threads = _ ∧
        (s.recordOutcome q outcome now).nextPid = _ ∧
        (s.recordOutcome q outcome now).status = _ ∧
        ∀ p, (s.recordOutcome q outcome now).table.find? p = _
      refine ⟨?_, ?_, ?_, find?_recordOutcome h outcome now⟩
      · rw [recordOutcome_eq h]
      · rw [recordOutcome_eq h]
      · rw [recordOutcome_eq h]
        rfl

/-- Dropping closed entries is the only way to lose an entry. -/
theorem fate_filter {keep : ProcessEntry → Bool}
    (hkeep : ∀ e, keep e = false → e.endTime?.isSome = true) (t? : Option (Thread L))
    (e? : Option ProcessEntry) (isTaken : Bool) :
    Fate now ⟨t?, e?, isTaken⟩ [] [] ⟨t?, e?.filter keep, isTaken⟩ := by
  cases e? with
  | none => exact .idle _
  | some e =>
    cases hk : keep e with
    | true =>
      rw [Option.filter_some_pos hk]
      exact .idle _
    | false =>
      rw [Option.filter_some_neg (by simp [hk])]
      exact .forgotten (hkeep e hk)

theorem fate_forget (s : Scheduler L) (path : String) (p : Pid) :
    Fate now (s.slot p) [] [] ((s.forgetFinished path).slot p) := by
  have hkeep : ∀ e : ProcessEntry, (!(e.path == path && !e.isLive)) = false →
      e.endTime?.isSome = true := by
    intro e he
    rw [Bool.not_eq_false', Bool.and_eq_true, Bool.not_eq_true'] at he
    simpa [ProcessEntry.isLive] using he.2
  have hslot : (s.forgetFinished path).slot p =
      ⟨s.threads.find? p, (s.table.find? p).filter fun e => !(e.path == path && !e.isLive),
        decide (0 < p ∧ p < s.nextPid)⟩ := by
    unfold slot
    rw [← Roster.find?_filter]
    rfl
  rw [hslot]
  exact fate_filter hkeep _ _ _

theorem fate_collect (s : Scheduler L) (retention : Millis) (p : Pid) :
    Fate now (s.slot p) [] [] ((s.collect now retention).2.slot p) := by
  have hkeep : ∀ e : ProcessEntry, (!e.isExpired now retention) = false →
      e.endTime?.isSome = true := by
    intro e he
    rw [Bool.not_eq_false'] at he
    unfold ProcessEntry.isExpired at he
    cases hend : e.endTime? with
    | none => simp [hend] at he
    | some time => rfl
  have hslot : (s.collect now retention).2.slot p =
      ⟨s.threads.find? p, (s.table.find? p).filter (!·.isExpired now retention),
        decide (0 < p ∧ p < s.nextPid)⟩ := by
    unfold slot
    rw [← Roster.find?_filter]
    rfl
  rw [hslot]
  exact fate_filter hkeep _ _ _

theorem fate_feed (s : Scheduler L) (line : String) (p : Pid) :
    Fate now (s.slot p) ((Move.feed line).acts now s p) [] ((s.feed line).2.slot p) := by
  have hslot : (s.feed line).2.slot p =
      ⟨(s.threads.find? p).map fun t => (t.feed line).2, s.table.find? p,
        decide (0 < p ∧ p < s.nextPid)⟩ := by
    unfold slot
    rw [← Roster.find?_map _ _ (pid_feed line)]
    rfl
  rw [hslot]
  unfold slot Move.acts
  cases ht : s.threads.find? p with
  | none => exact .idle _
  | some t =>
    by_cases hdeaf : (!t.isActive || t.state.isPaused) = true
    · have hfed : (t.feed line).2 = t := by
        unfold Thread.feed
        rw [if_pos hdeaf]
      simp only [if_pos hdeaf, Option.map_some, hfed]
      exact .idle _
    · simp only [if_neg hdeaf, Option.map_some]
      simp only [Bool.or_eq_true, Bool.not_eq_true', not_or, Bool.not_eq_false,
        Bool.not_eq_true] at hdeaf
      exact .heard line hdeaf.1 hdeaf.2

/-- A new thread takes the next identifier, and the finished entries of its path are dropped. -/
theorem fate_enroll (hpos : 0 < s.nextPid) (hacc : (s.slot s.nextPid).Accord) (name path : String)
    (script : L.Script) (args : List String) (p : Pid) :
    Fate now (s.slot p) (if p = s.nextPid then [.started] else [])
      (if p = s.nextPid then [.started] else [])
      (((s.forgetFinished path).enroll now name path script args).slot p) := by
  have hslot : ((s.forgetFinished path).enroll now name path script args).slot p =
      if p = s.nextPid then
        ⟨some (.start p name path args script s.options.queueLimit?),
          some (.started p name path args now), true⟩
      else (s.forgetFinished path).slot p := by
    have hthreads := Roster.find?_insert s.threads
      (.start s.nextPid name path args script s.options.queueLimit?) p
    have htable := Roster.find?_insert (s.forgetFinished path).table
      (.started s.nextPid name path args now) p
    show Slot.mk
      ((s.threads.insert (.start s.nextPid name path args script s.options.queueLimit?)).find? p)
      (((s.forgetFinished path).table.insert (.started s.nextPid name path args now)).find? p)
      (decide (0 < p ∧ p < s.nextPid + 1)) = _
    rw [hthreads, htable]
    by_cases hp : p = s.nextPid
    · subst hp
      have htaken : decide (0 < s.nextPid ∧ s.nextPid < s.nextPid + 1) = true :=
        decide_eq_true ⟨hpos, Nat.lt_succ_self _⟩
      rw [if_pos rfl, htaken]
      exact congrArg₂ (Slot.mk · · true) (if_pos rfl) (if_pos rfl)
    · have htaken : decide (0 < p ∧ p < s.nextPid + 1) = decide (0 < p ∧ p < s.nextPid) :=
        decide_eq_decide.mpr (and_congr_right fun _ =>
          ⟨fun h => Nat.lt_of_le_of_ne (Nat.lt_succ_iff.mp h) hp, fun h => Nat.lt_succ_of_lt h⟩)
      rw [if_neg hp, htaken]
      exact congrArg₂ (Slot.mk · · _) (if_neg hp) (if_neg hp)
  rw [hslot]
  by_cases hp : p = s.nextPid
  · rw [if_pos hp, if_pos hp, if_pos hp, hp]
    have hfree : s.slot s.nextPid = ⟨none, none, false⟩ :=
      hacc.eq_free (decide_eq_false fun h => Nat.lt_irrefl _ h.2)
    rw [hfree]
    exact .born _ name path args script _
  · rw [if_neg hp, if_neg hp, if_neg hp]
    exact fate_forget s path p

/-! ### Moves of one thread -/

section Own

variable (hfind : s.threads.find? q = some t)

include hfind

theorem slot_of_find? (hentry : s.table.find? q = some e) :
    s.slot q = ⟨some t, some e, decide (0 < q ∧ q < s.nextPid)⟩ := by
  unfold slot
  rw [hfind, hentry]

/-- The entry of a thread whose script goes on. -/
theorem entry_of_script (hacc : (s.slot q).Accord) (hscript : t.isTerminated = false) :
    ∃ e, s.table.find? q = some e ∧ e.Describes t := by
  unfold slot at hacc
  rw [hfind] at hacc
  exact (hacc.of_script hscript).2

theorem touches_abandon (hactive : t.isActive = true) :
    Touches now q [.marked] s (s.abandon q) := by
  have hpid := Roster.key_of_find? hfind
  have habandon : s.abandon q =
      (s.setThread t.abandon).announce (.thread q t.name .stopping) := by
    unfold abandon
    rw [hfind]
  have hthreads : ∀ p, (s.abandon q).threads.find? p =
      if p = q then some t.abandon else s.threads.find? p := by
    intro p
    rw [habandon, ← hpid]
    exact find?_setThread s t.abandon p
  refine ⟨by rw [habandon]; rfl, fun p hp => ?_, t.name, [.stopping], by rw [habandon]; rfl, ?_⟩
  · exact slot_congr ((hthreads p).trans (if_neg hp)) (by rw [habandon]; rfl)
      (by rw [habandon]; rfl)
  · have hslot : (s.abandon q).slot q =
        ⟨some t.abandon, s.table.find? q, decide (0 < q ∧ q < s.nextPid)⟩ := by
      unfold slot
      rw [hthreads q, if_pos rfl, habandon]
      rfl
    rw [hslot]
    unfold slot
    rw [hfind]
    exact .marked hactive

/-- What a change of state does, whichever it is. -/
theorem changeState_spec (change : ExecutionState L.Condition → ExecutionState L.Condition)
    (hentry : s.table.find? q = some e) :
    (s.changeState change q).nextPid = s.nextPid ∧
      (s.changeState change q).status = s.status ++
        [.thread q t.name (if (change t.state).isPaused then .paused else .resumed)] ∧
      (∀ p, p ≠ q → (s.changeState change q).slot p = s.slot p) ∧
      (s.changeState change q).slot q =
        ⟨some { t with state := change t.state }, some { e with status := (change t.state).status },
          decide (0 < q ∧ q < s.nextPid)⟩ := by
  have hpid := Roster.key_of_find? hfind
  have hthreads : ∀ p, (s.changeState change q).threads.find? p =
      if p = q then some { t with state := change t.state } else s.threads.find? p := by
    intro p
    unfold changeState
    rw [hfind, ← hpid]
    exact find?_setThread s { t with state := change t.state } p
  have htable : ∀ p, (s.changeState change q).table.find? p =
      if p = q then (s.table.find? p).map fun e => { e with status := (change t.state).status }
      else s.table.find? p := by
    intro p
    unfold changeState
    rw [hfind]
    exact ProcessTable.find?_update s.table q
      (fun e => { e with status := (change t.state).status }) (fun _ => rfl) p
  have hnext : (s.changeState change q).nextPid = s.nextPid := by
    unfold changeState
    rw [hfind]
    rfl
  refine ⟨hnext, ?_, fun p hp => ?_, ?_⟩
  · unfold changeState
    rw [hfind]
    rfl
  · exact slot_congr ((hthreads p).trans (if_neg hp)) ((htable p).trans (if_neg hp)) hnext
  · unfold slot
    rw [hthreads q, htable q, if_pos rfl, if_pos rfl, hentry, hnext]
    rfl

theorem touches_pause (hacc : (s.slot q).Accord) (hactive : t.isActive = true)
    (hawake : t.state.isPaused = false) :
    Touches now q [.paused] s (s.changeState .pause q) := by
  obtain ⟨e, hentry, -⟩ :=
    entry_of_script hfind hacc (Thread.not_terminated_of_active hactive)
  obtain ⟨hnext, hstatus, hothers, hown⟩ := changeState_spec hfind .pause hentry
  rw [ExecutionState.isPaused_pause] at hstatus
  rw [ExecutionState.status_eq_ite, ExecutionState.isPaused_pause] at hown
  refine ⟨hnext, hothers, t.name, [.paused], hstatus, ?_⟩
  rw [hown, slot_of_find? hfind hentry]
  exact .paused hactive hawake

theorem touches_resume (hacc : (s.slot q).Accord) (hactive : t.isActive = true)
    (hpaused : t.state.isPaused = true) :
    Touches now q [.resumed] s (s.changeState .resume q) := by
  obtain ⟨e, hentry, -⟩ :=
    entry_of_script hfind hacc (Thread.not_terminated_of_active hactive)
  obtain ⟨hnext, hstatus, hothers, hown⟩ := changeState_spec hfind .resume hentry
  rw [ExecutionState.isPaused_resume] at hstatus
  rw [ExecutionState.status_eq_ite, ExecutionState.isPaused_resume] at hown
  refine ⟨hnext, hothers, t.name, [.resumed], hstatus, ?_⟩
  rw [hown, slot_of_find? hfind hentry]
  exact .resumed hactive hpaused

theorem touches_serve (hacc : (s.slot q).Accord) (hactive : t.isActive = true) :
    Touches now q ((s.deedsOf now t).map .did) s (s.serve now q) := by
  obtain ⟨e, hentry, hdesc⟩ :=
    entry_of_script hfind hacc (Thread.not_terminated_of_active hactive)
  have hpid := Roster.key_of_find? hfind
  have hstage := Thread.stage_service hactive s.options.turbo (s.options.dispatch == .onResume) now
    s.world
  obtain ⟨hthreads, hnext, hstatus, htable⟩ :=
    recordService_spec (s := s.absorb (s.activityOf now t)) (q := q) hentry
      (s.activityOf now t).value now
  have hserve : s.serve now q =
      (s.absorb (s.activityOf now t)).recordService q now (s.activityOf now t).value := by
    unfold serve
    rw [hfind]
  have hfound : ∀ p, (s.serve now q).threads.find? p =
      if p = q then some (s.activityOf now t).thread else s.threads.find? p := by
    intro p
    rw [hserve, hthreads, ← hpid, ← hstage.alike.pid]
    exact find?_setThread s (s.activityOf now t).thread p
  have hown : (s.serve now q).slot q = ⟨some (s.activityOf now t).thread,
      some ((s.activityOf now t).value.close now e), decide (0 < q ∧ q < s.nextPid)⟩ := by
    unfold slot
    rw [hfound q, if_pos rfl, hserve, htable q, if_pos rfl, hnext]
    rfl
  obtain ⟨talk, htalk, hsaid⟩ := hstage.talk
  refine ⟨by rw [hserve, hnext]; rfl, fun p hp => ?_, t.name,
    talk ++ (s.activityOf now t).value.closing, ?_, ?_⟩
  · exact slot_congr ((hfound p).trans (if_neg hp))
      (by rw [hserve, htable p, if_neg hp]; rfl) (by rw [hserve, hnext]; rfl)
  · rw [hserve, hstatus, hdesc.name, List.map_append, ← List.append_assoc]
    show s.status ++ (s.activityOf now t).status ++ _ = _
    rw [← hpid]
    exact congrArg (s.status ++ · ++ _) hsaid
  · rw [hown, slot_of_find? hfind hentry]
    by_cases hpaused : t.state.isPaused = true
    · obtain ⟨hactivity, hdeeds⟩ := Thread.service_of_paused hactive hpaused s.options.turbo
        (s.options.dispatch == .onResume) now s.world
      have htalk' : talk = [] := by
        rw [hactivity] at hsaid
        exact List.map_eq_nil_iff.mp hsaid.symm
      unfold activityOf deedsOf
      rw [hactivity, hdeeds, htalk']
      exact .rested _ hactive hpaused
    · rw [Bool.not_eq_true] at hpaused
      exact .served _ _ _ talk hactive hpaused htalk

theorem touches_reap (hacc : (s.slot q).Accord) (hgone : t.isActive = false) :
    Touches now q [.reaped] s (s.reap now q) := by
  have hthreads : ∀ p, (s.threads.erase q).find? p =
      if p = q then none else s.threads.find? p := Roster.find?_erase s.threads q
  cases hterm : t.isTerminated with
  | true =>
    have hreap : s.reap now q = { s with threads := s.threads.erase q } := by
      unfold reap
      rw [hfind]
      exact if_pos hterm
    rw [hreap]
    refine ⟨rfl, fun p hp => slot_congr ((hthreads p).trans (if_neg hp)) rfl rfl, "", [],
      (List.append_nil _).symm, ?_⟩
    unfold slot
    rw [hfind]
    show Fate now _ _ _ ⟨(s.threads.erase q).find? q, s.table.find? q, _⟩
    rw [hthreads q, if_pos rfl]
    exact .buried hterm
  | false =>
    obtain ⟨e, hentry, -⟩ := entry_of_script hfind hacc hterm
    have hreap : s.reap now q =
        ({ s with threads := s.threads.erase q } : Scheduler L).recordOutcome q .stopped now := by
      unfold reap
      rw [hfind]
      exact if_neg (by rw [hterm]; exact Bool.false_ne_true)
    have hrecord := recordOutcome_eq (s := { s with threads := s.threads.erase q }) hentry
      .stopped now
    have htable := find?_recordOutcome (s := { s with threads := s.threads.erase q }) hentry
      .stopped now
    have hmarked : t.abandoned = true := by
      unfold Thread.isActive at hgone
      rw [hterm] at hgone
      simpa using hgone
    rw [hreap]
    refine ⟨by rw [hrecord], fun p hp => slot_congr ?_ ((htable p).trans (if_neg hp))
      (by rw [hrecord]), e.name, [.stopped], by rw [hrecord]; rfl, ?_⟩
    · rw [hrecord]
      exact (hthreads p).trans (if_neg hp)
    · have hown : (({ s with threads := s.threads.erase q } : Scheduler L).recordOutcome q .stopped
          now).slot q = ⟨none, some (e.exit now []), decide (0 < q ∧ q < s.nextPid)⟩ := by
        unfold slot
        rw [htable q, if_pos rfl, hrecord]
        exact congrArg (Slot.mk · _ _) ((hthreads q).trans (if_pos rfl))
      rw [hown, slot_of_find? hfind hentry]
      exact .stopped hmarked hterm

end Own

/-- The identifiers count from one, and the entries belong to the threads. -/
structure Accord (s : Scheduler L) : Prop where
  positive : 0 < s.nextPid
  slots : ∀ p, (s.slot p).Accord

end Scheduler

/-! ## Moves and paths -/

theorem reportsOf_append (p : Pid) (news news' : List StatusEvent) :
    reportsOf p (news ++ news') = reportsOf p news ++ reportsOf p news' :=
  List.filterMap_append

theorem reportsOf_thread (p q : Pid) (name : String) (reports : List ThreadReport) :
    reportsOf p (reports.map (StatusEvent.thread q name)) = if p = q then reports else [] := by
  unfold reportsOf
  rw [List.filterMap_map]
  by_cases hp : q = p
  · have hall : (fun report => if q = p then some report else none) = @some ThreadReport :=
      funext fun _ => if_pos hp
    show List.filterMap (fun report => if q = p then some report else none) reports = _
    rw [if_pos hp.symm, hall, List.filterMap_some]
  · have hnone : (fun report : ThreadReport => if q = p then some report else none) =
        fun _ => none := funext fun _ => if_neg hp
    show List.filterMap (fun report => if q = p then some report else none) reports = _
    rw [if_neg (Ne.symm hp), hnone, List.filterMap_none]

namespace Fate

variable {slot slot' : Slot L} {acts : List (Act L)} {reports : List ThreadReport}

/-- A start is reported when the identifier is handed out, and only then. -/
theorem started_mem (h : Fate now slot acts reports slot') (hstarted : .started ∈ reports) :
    slot.isTaken = false ∧ slot'.isTaken = true := by
  cases h with
  | born p name path args script queueLimit? => exact ⟨rfl, rfl⟩
  | @served t e isTaken turbo dispatchFirst world talk hactive hawake htalk =>
    rcases List.mem_append.mp hstarted with hmem | hmem
    · exact absurd (htalk _ hmem) nofun
    · rcases Thread.service_closes hactive turbo dispatchFirst now world e with
        ⟨-, -, hclosing⟩ | ⟨-, outcome, -, -, hclosing⟩
      · rw [hclosing] at hmem
        exact absurd hmem List.not_mem_nil
      · rw [hclosing, List.mem_singleton] at hmem
        cases outcome <;> exact absurd hmem nofun
  | idle => exact absurd hstarted List.not_mem_nil
  | rested turbo hactive hpaused => exact absurd hstarted List.not_mem_nil
  | heard line hactive hawake => exact absurd hstarted List.not_mem_nil
  | paused hactive hawake => exact absurd (List.mem_singleton.mp hstarted) nofun
  | resumed hactive hpaused => exact absurd (List.mem_singleton.mp hstarted) nofun
  | marked hactive => exact absurd (List.mem_singleton.mp hstarted) nofun
  | stopped hmarked hscript => exact absurd (List.mem_singleton.mp hstarted) nofun
  | buried hended => exact absurd hstarted List.not_mem_nil
  | forgotten hclosed => exact absurd hstarted List.not_mem_nil

end Fate

/-- What a move adds to the news, and how many identifiers it hands out, agree. -/
structure Outcome (now : Millis) (s : Scheduler L) (m : Move L) (news : List StatusEvent) :
    Prop where
  adds : m.taken s ++ (m.apply now s).status = s.status ++ news
  fates : ∀ p, Fate now (s.slot p) (m.acts now s p) (reportsOf p news) ((m.apply now s).slot p)
  grows : s.nextPid ≤ (m.apply now s).nextPid
  started : news.filterMap StatusEvent.startedPid? =
    List.range' s.nextPid ((m.apply now s).nextPid - s.nextPid)

namespace Move

variable {s s' : Scheduler L} {q : Pid} {own : List (Act L)}

theorem started_thread {name : String} {reports : List ThreadReport} (h : .started ∉ reports) :
    (reports.map (StatusEvent.thread q name)).filterMap StatusEvent.startedPid? = [] := by
  rw [List.filterMap_map, List.filterMap_eq_nil_iff]
  intro report hreport
  cases report with
  | started => exact absurd hreport h
  | _ => rfl

/-- The outcome of a move that touches one thread. -/
theorem outcome_of_touches {m : Move L} (h : Scheduler.Touches now q own s (m.apply now s))
    (hacts : ∀ p, m.acts now s p = if p = q then own else []) (htaken : m.taken s = []) :
    ∃ news, Outcome now s m news := by
  obtain ⟨hnext, hothers, name, reports, hstatus, hfate⟩ := h
  refine ⟨reports.map (StatusEvent.thread q name), ?_, ?_, Nat.le_of_eq hnext.symm, ?_⟩
  · rw [htaken, hstatus]
    rfl
  · intro p
    rw [hacts, reportsOf_thread]
    by_cases hp : p = q
    · rw [if_pos hp, if_pos hp, hp]
      exact hfate
    · rw [if_neg hp, if_neg hp, hothers p hp]
      exact .idle _
  · rw [hnext, Nat.sub_self]
    -- no identifier is handed out, so no start is reported
    refine started_thread fun hmem => ?_
    obtain ⟨huntaken, htaken'⟩ := hfate.started_mem hmem
    have hsame : (s.slot q).isTaken = ((m.apply now s).slot q).isTaken := by
      unfold Scheduler.slot
      rw [hnext]
    rw [← hsame, huntaken] at htaken'
    exact absurd htaken' nofun

/-- The outcome of a move that says nothing about any thread. -/
theorem outcome_of_silent {m : Move L} (news : List StatusEvent)
    (hadds : m.taken s ++ (m.apply now s).status = s.status ++ news)
    (hquiet : ∀ p, reportsOf p news = []) (hnone : news.filterMap StatusEvent.startedPid? = [])
    (hnext : (m.apply now s).nextPid = s.nextPid)
    (hfates : ∀ p, Fate now (s.slot p) (m.acts now s p) [] ((m.apply now s).slot p)) :
    ∃ news, Outcome now s m news := by
  refine ⟨news, hadds, fun p => ?_, Nat.le_of_eq hnext.symm, ?_⟩
  · rw [hquiet p]
    exact hfates p
  · rw [hnone, hnext, Nat.sub_self]
    rfl

/-- **Every identifier meets one of its fates in a move.** -/
theorem outcome {m : Move L} (hfits : m.Fits s) (hacc : s.Accord) (now : Millis) :
    ∃ news, Outcome now s m news := by
  cases m with
  | enroll name path script args =>
    refine ⟨[.thread s.nextPid name .started], rfl, fun p => ?_, Nat.le_succ _, ?_⟩
    · have hreports := reportsOf_thread p s.nextPid name [.started]
      show Fate now _ _ (reportsOf p ([.started].map (StatusEvent.thread s.nextPid name))) _
      rw [hreports]
      exact Scheduler.fate_enroll hacc.positive (hacc.slots _) name path script args p
    · show [s.nextPid] = List.range' s.nextPid (s.nextPid + 1 - s.nextPid)
      rw [Nat.add_sub_cancel_left]
      rfl
  | forget path =>
    exact outcome_of_silent [] (List.append_nil _).symm (fun _ => rfl) rfl rfl
      (Scheduler.fate_forget s path)
  | serve pid =>
    obtain ⟨t, hfind, hactive⟩ := hfits
    refine outcome_of_touches (Scheduler.touches_serve hfind (hacc.slots pid) hactive) ?_ rfl
    intro p
    simp only [acts, hfind]
  | refuse e =>
    exact outcome_of_silent [.refused e] rfl (fun _ => rfl) rfl rfl fun p => .idle _
  | mark pid =>
    obtain ⟨t, hfind, hactive⟩ := hfits
    exact outcome_of_touches (Scheduler.touches_abandon hfind hactive) (fun _ => rfl) rfl
  | pause pid =>
    obtain ⟨t, hfind, hactive, hawake⟩ := hfits
    exact outcome_of_touches (Scheduler.touches_pause hfind (hacc.slots pid) hactive hawake)
      (fun _ => rfl) rfl
  | resume pid =>
    obtain ⟨t, hfind, hactive, hpaused⟩ := hfits
    exact outcome_of_touches (Scheduler.touches_resume hfind (hacc.slots pid) hactive hpaused)
      (fun _ => rfl) rfl
  | feed line =>
    exact outcome_of_silent [] (List.append_nil _).symm (fun _ => rfl) rfl rfl
      (Scheduler.fate_feed s line)
  | reap pid =>
    obtain ⟨t, hfind, hgone⟩ := hfits
    exact outcome_of_touches (Scheduler.touches_reap hfind (hacc.slots pid) hgone) (fun _ => rfl)
      rfl
  | collect retention =>
    exact outcome_of_silent [] (List.append_nil _).symm (fun _ => rfl) rfl rfl
      (Scheduler.fate_collect s retention)
  | setTurbo turbo =>
    exact outcome_of_silent [] (List.append_nil _).symm (fun _ => rfl) rfl rfl fun p => .idle _
  | drain => exact outcome_of_silent [] rfl (fun _ => rfl) rfl rfl fun p => .idle _
  | outside library world =>
    exact outcome_of_silent [] (List.append_nil _).symm (fun _ => rfl) rfl rfl fun p => .idle _

/-- **The entries belong to the threads behind every move.** -/
theorem accord {m : Move L} (hfits : m.Fits s) (hacc : s.Accord) (now : Millis) :
    (m.apply now s).Accord := by
  obtain ⟨news, -, hfates, hgrows, -⟩ := outcome hfits hacc now
  exact ⟨Nat.lt_of_lt_of_le hacc.positive hgrows, fun p => (hfates p).accord (hacc.slots p)⟩

end Move

namespace Path

variable {s s' : Scheduler L} {moves : List (Millis × Move L)}

/-- **The entries belong to the threads along every path.** -/
theorem accord (h : Path s moves s') (hacc : s.Accord) : s'.Accord := by
  induction h with
  | nil => exact hacc
  | cons now hfits _ ih => exact ih (Move.accord hfits hacc now)

/-- **The timeline of a path is a piece of the life of the thread.** -/
theorem run (h : Path s moves s') (hacc : s.Accord) (p : Pid) :
    Life.Run (s.slot p).life (timeline p moves s) (s'.slot p).life := by
  induction h with
  | nil => exact .nil _
  | cons now hfits _ ih =>
    obtain ⟨news, hmove⟩ := Move.outcome hfits hacc now
    exact ((hmove.fates p).run (hacc.slots p)).append (ih (Move.accord hfits hacc now))

end Path

end Heartbeat

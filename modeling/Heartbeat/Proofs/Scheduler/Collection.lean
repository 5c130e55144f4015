import Heartbeat.Proofs.Scheduler.Entry
import Heartbeat.Proofs.Scheduler.Inner

/-!
# How long entries are kept

Finished entries are collected when they have been kept for the retention. A heartbeat looks for
them only when the retention has passed since the last collection, so an entry may be kept for
longer, but not for twice as long: it had not been due at the last collection, and the next one is
not put off for more than the retention. A collection goes by the time at which its heartbeat began.
A script that is launched in the heartbeat may end at a later time, and then its entry is left even
where entries are not kept at all.

* `Sheds`: what a collection takes away, and what it reports.
* `Scheduler.Aged`: how the entries that are left stand to the last collection.
* `Operation.aged`: they stand so behind every operation, if the clock does not go back.
* `Path.of_endTime`: a run ends at the time of a move.
* `collection_law_of_create`: what is collected in a run, when, and what is left.
* `late_guest_is_left`: an entry that is left where entries are not kept.
-/

namespace Heartbeat

variable {L : Language} {now : Millis}

/-- **What a collection at a time takes away**: it reports the entries that go in order, each of
them has been kept for the retention since it was finished, and all others stay as they are. -/
structure Sheds (now : Millis) (pids : List Pid) (s s' : Scheduler L) : Prop where
  ascending : pids.Pairwise (· < ·)
  reported : ∀ p, p ∈ pids ↔ (s.table.find? p).isSome = true ∧ s'.table.find? p = none
  kept : ∀ p, p ∉ pids → s'.table.find? p = s.table.find? p
  due : ∀ p e, p ∈ pids → s.table.find? p = some e → ∃ retention time,
    s.options.retention? = some retention ∧ e.endTime? = some time ∧ time.after retention ≤ now

namespace Scheduler

variable {s : Scheduler L} {p : Pid} {e : ProcessEntry}

/-- The scheduler in a heartbeat when its threads have been serviced and swept. -/
def swept (now : Millis) (s : Scheduler L) : Scheduler L :=
  ((serviceAll now s.livePids s).2.sweep now).2

/-- An entry with an end is closed. -/
theorem Accord.isClosed (hacc : s.Accord) {time : Millis} (hfind : s.table.find? p = some e)
    (hend : e.endTime? = some time) : e.IsClosed := by
  have hended : e.endTime?.isSome = true := by rw [hend]; rfl
  exact ⟨hended, (hacc.consistent.terminal e (Roster.mem_of_find? hfind)).mpr hended⟩

/-- An entry is due when it was finished and has been kept for the retention. -/
theorem Accord.isExpired_iff (hacc : s.Accord) (hfind : s.table.find? p = some e)
    (retention : Millis) :
    e.isExpired now retention = true ↔
      ∃ time, e.endTime? = some time ∧ time.after retention ≤ now := by
  unfold ProcessEntry.isExpired
  cases hend : e.endTime? with
  | none => simp
  | some time => simp [(hacc.isClosed hfind hend).terminal]

theorem mem_collect {retention : Millis} :
    p ∈ (s.collect now retention).1 ↔
      ∃ e, s.table.find? p = some e ∧ e.isExpired now retention = true := by
  show p ∈ (s.table.members.filter (·.isExpired now retention)).map (·.pid) ↔ _
  simp only [List.mem_map, List.mem_filter, Roster.find?_eq_some_iff]
  exact exists_congr fun e => and_right_comm

/-- **A collection sheds what is due.** -/
theorem sheds_collect (hacc : s.Accord) {retention : Millis}
    (hretention : s.options.retention? = some retention) (now : Millis) :
    Sheds now (s.collect now retention).1 s (s.collect now retention).2 := by
  refine ⟨?_, fun p => ?_, fun p hp => ?_, fun p e hp hfind => ?_⟩
  · exact (Roster.keys_pairwise s.table).sublist (List.filter_sublist.map _)
  · rw [mem_collect, find?_collect]
    cases s.table.find? p with
    | none => simp
    | some e => simp [Option.filter]
  · rw [mem_collect] at hp
    rw [find?_collect]
    cases hfind : s.table.find? p with
    | none => rfl
    | some e =>
      refine Option.filter_some_pos ?_
      simpa using fun h => hp ⟨e, hfind, h⟩
  · obtain ⟨e', hfind', hexpired⟩ := mem_collect.mp hp
    rw [Option.some.inj (hfind'.symm.trans hfind), hacc.isExpired_iff hfind] at hexpired
    obtain ⟨time, hend, hdue⟩ := hexpired
    exact ⟨retention, time, hretention, hend, hdue⟩

/-- What a collection leaves behind is not due. -/
theorem Accord.lt_of_collect (hacc : s.Accord) {retention time : Millis}
    (hfind : (s.collect now retention).2.table.find? p = some e) (hend : e.endTime? = some time) :
    now < time.after retention := by
  rw [find?_collect] at hfind
  obtain ⟨hthere, hkeep⟩ := Option.filter_eq_some_iff.mp hfind
  have hearly : ¬ e.isExpired now retention = true := by simpa using hkeep
  rw [hacc.isExpired_iff hthere] at hearly
  exact Nat.lt_of_not_le fun hdue => hearly ⟨time, hend, hdue⟩

theorem sheds_nothing (now : Millis) (s : Scheduler L) : Sheds now [] s s := by
  refine ⟨.nil, fun p => iff_of_false List.not_mem_nil ?_, fun p _ => rfl, nofun⟩
  rintro ⟨hsome, hnone⟩
  rw [hnone] at hsome
  exact absurd hsome nofun

theorem sheds_collectGarbage (hacc : s.Accord) (now : Millis) :
    Sheds now (s.collectGarbage now).1 s (s.collectGarbage now).2 := by
  unfold collectGarbage
  cases hretention : s.options.retention? with
  | none => exact sheds_nothing now s
  | some retention => exact sheds_collect hacc hretention now

theorem sheds_collectIfDue (hacc : s.Accord) (now : Millis) :
    Sheds now (s.collectIfDue now).1 s (s.collectIfDue now).2 := by
  unfold collectIfDue
  cases hretention : s.options.retention? with
  | none => exact sheds_nothing now s
  | some retention =>
    simp only
    split
    · exact sheds_nothing now s
    · exact sheds_collect hacc hretention now

theorem path_swept (now : Millis) (s : Scheduler L) :
    QuietPath s (serviceAllMoves now s.livePids s ++
      (serviceAll now s.livePids s).2.sweepMoves.map (now, ·)) (s.swept now) :=
  (path_serviceAll now s.livePids s).append (path_sweep now _)

/-! ## Finished entries and the last collection -/

/-- **How finished entries stand to the last collection** at a time: it is past, and no entry that
is left was due then. -/
structure Aged (now : Millis) (s : Scheduler L) : Prop where
  collected : s.lastCollection ≤ now
  fresh : ∀ retention, s.options.retention? = some retention → 0 < retention →
    ∀ p e time, s.table.find? p = some e → e.endTime? = some time →
      s.lastCollection < time + retention

theorem Aged.mono {later : Millis} (h : s.Aged now) (hle : now ≤ later) : s.Aged later where
  collected := Nat.le_trans h.collected hle
  fresh := h.fresh

end Scheduler

/-- A finished entry was so before, or its run ends now. -/
theorem Passage.of_endTime {s : Scheduler L} {m : Move L} {p : Pid} {e? : Option ProcessEntry}
    {e : ProcessEntry} {time : Millis} (h : Passage now s m p e? (some e))
    (hend : e.endTime? = some time) : e? = some e ∨ time = now := by
  cases h with
  | kept => exact .inl rfl
  | entered hmove hpid => exact absurd hend nofun
  | @shown e₀ hlive status =>
    have hended : e₀.isLive = false := ProcessEntry.not_live_of_endTime hend
    exact absurd (hlive.symm.trans hended) nofun
  | closed hlive outcome =>
    rw [outcome.endTime_close] at hend
    exact .inr (Option.some.inj hend).symm

/-- **A move leaves no finished entry behind that was due at the last collection**, if it is not
earlier than its operation, and at the very time of it if it collects. -/
theorem Move.aged {s : Scheduler L} {m : Move L} {time : Millis} (hfits : m.Fits s)
    (hacc : s.Accord) (h : s.Aged now) (hle : now ≤ time)
    (htime : ∀ retention, m = .collect retention → time = now) : (m.apply time s).Aged now := by
  by_cases hcollect : ∃ retention, m = .collect retention
  · obtain ⟨retention, rfl⟩ := hcollect
    obtain rfl := htime retention rfl
    refine ⟨Nat.le_refl _, fun retention' hretention _ p e ended he hend => ?_⟩
    obtain rfl : retention = retention' := Option.some.inj (hfits.symm.trans hretention)
    exact Nat.lt_of_lt_of_le (hacc.lt_of_collect he hend) (Nat.min_le_left _ _)
  · have hlast := Move.lastCollection_apply (fun retention hm => hcollect ⟨retention, hm⟩) time s
    refine ⟨hlast ▸ h.collected, fun retention hretention hpos p e ended he hend => ?_⟩
    rw [hlast]
    rw [Move.retention_apply] at hretention
    have hpassage := Move.passage hfits hacc time p
    rw [he] at hpassage
    rcases hpassage.of_endTime hend with hold | rfl
    · exact h.fresh retention hretention hpos p e ended hold hend
    · exact Nat.lt_of_le_of_lt (Nat.le_trans h.collected hle) (Nat.lt_add_of_pos_right hpos)

namespace Path

variable {s s' : Scheduler L} {moves : List (Millis × Move L)}

/-- So do the moves of an operation. -/
theorem aged (hpath : Path s moves s') (hacc : s.Accord) (h : s.Aged now)
    (hle : ∀ x ∈ moves, now ≤ x.1)
    (htime : ∀ x ∈ moves, ∀ retention, x.2 = .collect retention → x.1 = now) : s'.Aged now := by
  induction hpath with
  | nil => exact h
  | cons time hfits _ ih =>
    rw [List.forall_mem_cons] at hle htime
    exact ih (Move.accord hfits hacc time) (Move.aged hfits hacc h hle.1 htime.1) hle.2 htime.2

/-- **A run ends at the time of a move**: a finished entry was so before, or a move has its end as
the time. -/
theorem of_endTime (hpath : Path s moves s') (hacc : s.Accord) {p : Pid} {e : ProcessEntry}
    {time : Millis} (hfind : s'.table.find? p = some e) (hend : e.endTime? = some time) :
    s.table.find? p = some e ∨ ∃ x ∈ moves, x.1 = time := by
  induction hpath with
  | nil => exact .inl hfind
  | @cons s s' m moves now hfits _ ih =>
    rcases ih (Move.accord hfits hacc now) hfind with hmid | ⟨x, hx, htime⟩
    · have hpassage := Move.passage hfits hacc now p
      rw [hmid] at hpassage
      rcases hpassage.of_endTime hend with hold | rfl
      · exact .inl hold
      · exact .inr ⟨_, List.mem_cons_self, rfl⟩
    · exact .inr ⟨x, List.mem_cons_of_mem _ hx, htime⟩

/-- The last collection does not go back. -/
theorem le_lastCollection (hpath : Path s moves s') (hfrom : now ≤ s.lastCollection)
    (hstart : ∀ x ∈ moves, now ≤ x.1) : now ≤ s'.lastCollection := by
  induction hpath with
  | nil => exact hfrom
  | @cons s s' m moves later _ _ ih =>
    rw [List.forall_mem_cons] at hstart
    refine ih ?_ hstart.2
    by_cases hcollect : ∃ retention, m = .collect retention
    · obtain ⟨retention, rfl⟩ := hcollect
      exact hstart.1
    · rw [Move.lastCollection_apply fun retention hm => hcollect ⟨retention, hm⟩]
      exact hfrom

/-- A collection on a path is the last one, or there is a later one. -/
theorem collected (hpath : Path s moves s') {retention : Millis}
    (hmem : (now, .collect retention) ∈ moves) (hstart : ∀ x ∈ moves, now ≤ x.1) :
    now ≤ s'.lastCollection := by
  obtain ⟨before, after, rfl⟩ := List.append_of_mem hmem
  have hrest : ∀ x ∈ after, now ≤ x.1 := fun x hx =>
    hstart x (List.mem_append_right _ (List.mem_cons_of_mem _ hx))
  cases hpath.split.2 with
  | cons _ _ hafter => exact hafter.le_lastCollection (Nat.le_refl now) hrest

end Path

/-! ## The law -/

/-- **The law of collections** in the run of a row of operations from a state. -/
structure CollectionLaw (ops : List (Millis × Operation L)) (s₀ : Scheduler L) : Prop where
  /-- What a heartbeat collects when its threads are swept. -/
  beat : ∀ before now after, ops = before ++ (now, .tick) :: after →
    Sheds now ((performAll before s₀).tick now).1.collected ((performAll before s₀).swept now)
      ((performAll before s₀).tick now).2
  /-- What is collected on demand. -/
  demand : ∀ before now after, ops = before ++ (now, .collectGarbage) :: after →
    Sheds now ((performAll before s₀).collectGarbage now).1 (performAll before s₀)
      ((performAll before s₀).collectGarbage now).2
  /-- Between a collection, in a heartbeat or on demand, and one in a later heartbeat the retention
  passes. -/
  apart : ∀ before now op mid later after time time' retention retention',
    ops = before ++ (now, op) :: mid ++ (later, .tick) :: after →
      (time, .collect retention) ∈ op.moves now (performAll before s₀) →
      (time', .collect retention') ∈ Operation.tick.moves later
        (performAll (before ++ (now, op) :: mid) s₀) →
        s₀.options.retention? = some retention' ∧ now + retention' ≤ later
  /-- A heartbeat leaves no entry that was finished twice the retention ago. -/
  left : ∀ before now after retention, ops = before ++ (now, .tick) :: after →
    s₀.options.retention? = some retention → 0 < retention →
      ∀ e ∈ ((performAll before s₀).tick now).2.table.members, ∀ time, e.endTime? = some time →
        now < time + 2 * retention
  /-- Where finished entries are not kept at all, it leaves only those that were finished behind its
  own time, when the clock was read for a launch in it. -/
  bare : ∀ before now after, ops = before ++ (now, .tick) :: after →
    s₀.options.retention? = some 0 →
      ∀ e ∈ ((performAll before s₀).tick now).2.table.members, ∀ time, e.endTime? = some time →
        now < time ∧ time ∈ launchTimes (Operation.tick.moves now (performAll before s₀))
  /-- Where they are kept for good, nothing is ever collected. -/
  never : s₀.options.retention? = none → ∀ before now op after,
    ops = before ++ (now, op) :: after →
      (∀ time retention, (time, .collect retention) ∉ op.moves now (performAll before s₀)) ∧
        ((performAll before s₀).tick now).1.collected = [] ∧
        (performAll before s₀).collectGarbage now = ([], performAll before s₀)

namespace Scheduler

variable {s : Scheduler L} {retention : Millis}

theorem retention_swept (now : Millis) (s : Scheduler L) :
    (s.swept now).options.retention? = s.options.retention? :=
  (path_swept now s).path.retention_eq

/-- Behind a heartbeat the last collection is less than the retention ago. -/
theorem lastCollection_tick (hretention : s.options.retention? = some retention)
    (hpos : 0 < retention) (now : Millis) :
    now < (s.tick now).2.lastCollection + retention := by
  have hearly : ∀ {a b c : Nat}, a - b < c → a < b + c := fun h => by omega
  show now < ((s.swept now).collectIfDue now).2.lastCollection + retention
  unfold collectIfDue
  rw [retention_swept, hretention]
  simp only
  split
  · rename_i hnotdue
    exact hearly hnotdue
  · exact Nat.lt_add_of_pos_right hpos

/-- **A heartbeat leaves no entry that was finished twice the retention ago.** -/
theorem lt_of_tick (h : (s.tick now).2.Aged now)
    (hretention : s.options.retention? = some retention) (hpos : 0 < retention)
    {e : ProcessEntry} (he : e ∈ (s.tick now).2.table.members) {time : Millis}
    (hend : e.endTime? = some time) : now < time + 2 * retention := by
  have hfresh := h.fresh retention ((path_tick now s).path.retention_eq.trans hretention) hpos
    e.pid e time (Roster.find?_of_mem he) hend
  have hlast := lastCollection_tick hretention hpos now
  have hsum : ∀ {a b c d : Nat}, a < b + d → b < c + d → a < c + 2 * d := fun h h' => by omega
  exact hsum hlast hfresh

/-- Where finished entries are not kept, every heartbeat collects them. -/
theorem tick_of_bare (hretention : s.options.retention? = some 0) (now : Millis) :
    (s.tick now).2 = ((s.swept now).collect now 0).2 := by
  show ((s.swept now).collectIfDue now).2 = _
  unfold collectIfDue
  rw [retention_swept, hretention]
  rfl

/-- So it leaves those that were finished behind its own time. -/
theorem Accord.lt_of_bare (hacc : s.Accord) (hretention : s.options.retention? = some 0)
    {e : ProcessEntry} (he : e ∈ (s.tick now).2.table.members) {time : Millis}
    (hend : e.endTime? = some time) : now < time := by
  have hfind := Roster.find?_of_mem he
  rw [tick_of_bare hretention] at hfind
  have hswept := (path_swept now s).path.accord hacc
  exact Nat.lt_of_lt_of_le (hswept.lt_of_collect hfind hend) (Nat.min_le_left _ _)

/-- Where entries are kept for good, nothing is collected. -/
theorem collected_of_keeping (hnone : s.options.retention? = none) (now : Millis) :
    (s.tick now).1.collected = [] ∧ s.collectGarbage now = ([], s) := by
  constructor
  · show ((s.swept now).collectIfDue now).1 = []
    unfold collectIfDue
    rw [retention_swept, hnone]
  · unfold collectGarbage
    rw [hnone]

/-- A heartbeat collects only when the retention has passed since the last collection. -/
theorem due_of_collect {time : Millis} (hmem : (time, .collect retention) ∈ s.tickMoves now) :
    time = now ∧ s.options.retention? = some retention ∧
      retention ≤ now - (s.swept now).lastCollection := by
  rcases List.mem_append.mp hmem with hmem | hmem
  · rcases List.mem_append.mp hmem with hmem | hmem
    · exact absurd (inner_serviceAllMoves now s.livePids s _ hmem) nofun
    · obtain ⟨m, hm, hsame⟩ := List.mem_map.mp hmem
      obtain ⟨t, -, rfl⟩ := List.mem_map.mp hm
      exact absurd (Prod.mk.inj hsame).2 nofun
  · obtain ⟨m, hm, hsame⟩ := List.mem_map.mp hmem
    obtain ⟨rfl, hcollect⟩ := Prod.mk.inj hsame
    obtain ⟨retention', hretention, hdue, rfl⟩ := mem_collectIfDueMoves hm
    rw [← Move.collect.inj hcollect]
    exact ⟨rfl, (retention_swept _ s).symm.trans hretention, hdue⟩

end Scheduler

namespace Operation

variable {s : Scheduler L} {op : Operation L}

/-- A collection has the time of its operation. -/
theorem time_of_collect {time retention : Millis}
    (hmem : (time, .collect retention) ∈ op.moves now s) : time = now := by
  have hsingle : ∀ {m : Move L}, (time, .collect retention) ∈ [(now, m)] → time = now := fun h =>
    (Prod.mk.inj (List.mem_singleton.mp h)).1
  cases op with
  | run identity args =>
    exact absurd (Scheduler.inner_startWithMoves Scheduler.inner_spawn now identity s.searchPath
      args s _ hmem) nofun
  | start identity searchPath args =>
    exact absurd (Scheduler.inner_startWithMoves Scheduler.inner_spawn now identity searchPath args
      s _ hmem) nofun
  | startScript name label script args =>
    exact absurd (Scheduler.inner_startScriptMoves now name label script args s _ hmem) nofun
  | parse source => exact absurd (Scheduler.inner_parseMoves now source s _ hmem) nofun
  | tick => exact (Scheduler.due_of_collect hmem).1
  | stop | stopAll | pause | toggleAll | collectGarbage => exact mem_map_now _ hmem
  | feed | setTurbo | drainStatus | outside => exact hsingle hmem

/-- **An operation leaves no finished entry behind that was due at the last collection**, if the
clock does not go back in it. -/
theorem aged (hacc : s.Accord) (h : s.Aged now)
    (hclock : ∀ time ∈ launchTimes (op.moves now s), now ≤ time) :
    (op.perform now s).Aged now := by
  refine (path_perform now op s).1.aged hacc h (le_times hclock) ?_
  rintro ⟨time, m⟩ hx retention rfl
  exact time_of_collect hx

/-- A collection is made only where entries are not kept for good. -/
theorem retention_of_collect {time retention : Millis}
    (hmem : (time, .collect retention) ∈ op.moves now s) :
    s.options.retention? = some retention := by
  have hpath := (path_perform now op s).1
  obtain ⟨before, after, hmoves⟩ := List.append_of_mem hmem
  rw [hmoves] at hpath
  have hretention := hpath.split.1.retention_eq
  cases hpath.split.2 with
  | cons _ hfits _ => exact hretention.symm.trans hfits

end Operation

section Runs

variable {s : Scheduler L} {ops : List (Millis × Operation L)}

theorem aged_performAll {start : Millis} (hacc : s.Accord) (h : s.Aged start)
    (hclock : (start :: clockReadings ops s ++ [now]).Pairwise (· ≤ ·)) :
    (performAll ops s).Aged now := by
  induction ops generalizing s start with
  | nil => exact h.mono ((List.pairwise_cons.mp hclock).1 now List.mem_cons_self)
  | cons op ops ih =>
    obtain ⟨time, op⟩ := op
    obtain ⟨hbefore, -, hlast⟩ := List.pairwise_append.mp hclock
    obtain ⟨hle, hlaunches, hrest⟩ := clockReadings_cons hbefore
    refine ih ((path_perform time op s).1.accord hacc) (op.aged hacc (h.mono hle) hlaunches) ?_
    refine List.pairwise_append.mpr ⟨hrest, List.pairwise_singleton _ _, fun x hx y hy => ?_⟩
    refine hlast x (List.mem_cons_of_mem _ ?_) y hy
    rcases List.mem_cons.mp hx with rfl | hx
    · exact List.mem_append_left _ List.mem_cons_self
    · exact List.mem_append_right _ hx

/-- **Between a collection and one in a later heartbeat the retention passes.** -/
theorem retention_le_of_collect {op : Operation L} {later time time' retention retention' : Millis}
    (hlaunches : ∀ time ∈ launchTimes (op.moves now s), now ≤ time)
    (hlater : ∀ time ∈ clockReadings (ops ++ [(later, .tick)]) (op.perform now s), now ≤ time)
    (hfirst : (time, .collect retention) ∈ op.moves now s)
    (hsecond : (time', .collect retention') ∈
      (performAll ops (op.perform now s)).tickMoves later) :
    now + retention' ≤ later := by
  obtain rfl := Operation.time_of_collect hfirst
  rw [clockReadings_append, List.forall_mem_append] at hlater
  -- from the first collection on, the last one is not before it
  have hbehind : time ≤ (op.perform time s).lastCollection :=
    (path_perform time op s).1.collected hfirst (Operation.le_times hlaunches)
  have hbetween : time ≤ (performAll ops (op.perform time s)).lastCollection :=
    (path_history ops _).le_lastCollection hbehind fun x hx => hlater.1 x.1 (mem_clockReadings hx)
  have hswept := (Scheduler.path_swept later _).path.le_lastCollection hbetween fun x hx =>
    hlater.2 x.1 (mem_clockReadings (List.mem_append_left _ (List.mem_append_left _ hx)))
  have hsum : ∀ {a b c d : Nat}, a ≤ b → d ≤ c - b → a ≤ c → a + d ≤ c := fun _ _ _ => by omega
  exact hsum hswept (Scheduler.due_of_collect hsecond).2.2 (hlater.2 later List.mem_cons_self)

/-- An entry that a heartbeat leaves was finished before, or behind its time at a launch. -/
theorem launched_of_left (hacc : s.Accord) (hempty : ∀ p, s.table.find? p = none)
    (hpast : ∀ time ∈ clockReadings ops s, time ≤ now) {e : ProcessEntry}
    (he : e ∈ ((performAll ops s).tick now).2.table.members) {time : Millis}
    (hend : e.endTime? = some time) (hlt : now < time) :
    time ∈ launchTimes (Operation.tick.moves now (performAll ops s)) := by
  have hpath := path_history ops s
  rcases (Scheduler.path_tick now (performAll ops s)).path.of_endTime (hpath.accord hacc)
    (Roster.find?_of_mem he) hend with hold | ⟨x, hx, rfl⟩
  · rcases hpath.of_endTime hacc hold hend with hfirst | ⟨x, hx, rfl⟩
    · exact absurd ((hempty e.pid).symm.trans hfirst) nofun
    · exact absurd hlt (Nat.not_lt_of_le (hpast x.1 (mem_clockReadings hx)))
  · have htime := Operation.tick.times now (performAll ops s) x hx
    exact (List.mem_cons.mp htime).resolve_left (Nat.ne_of_gt hlt)

end Runs

/-- **The law of collections holds in every run whose clock does not go back**, at whichever
reading, whatever the host does and whatever the scripts do. -/
theorem collection_law_of_create (options : SchedulerOptions) (library : ScriptLibrary)
    (searchPath : List ScriptPath) (world : L.World) (start : Millis) (clock : Clock)
    (ops : List (Millis × Operation L))
    (hclock : (start :: clockReadings ops
      (Scheduler.create (L := L) options library searchPath world start clock)).Pairwise
        (· ≤ ·)) :
    CollectionLaw ops (Scheduler.create (L := L) options library searchPath world start clock) := by
  have hacc₀ := Scheduler.accord_create (L := L) options library searchPath world start clock
  have haged₀ : (Scheduler.create (L := L) options library searchPath world start clock).Aged
      start :=
    ⟨Nat.le_refl start, fun retention _ _ p e time he => absurd he nofun⟩
  have hempty : ∀ p, (Scheduler.create (L := L) options library searchPath world start
      clock).table.find? p = none := fun _ => rfl
  generalize Scheduler.create options library searchPath world start clock = s₀
    at hclock hacc₀ haged₀ hempty ⊢
  have hacc : ∀ past, (performAll past s₀).Accord := fun past =>
    (path_history past s₀).accord hacc₀
  have hkeeps : ∀ past, (performAll past s₀).options.retention? = s₀.options.retention? :=
    fun past => (path_history past s₀).retention_eq
  -- all that comes before an operation is past when it begins, and none of its readings is earlier
  have hpast : ∀ {before now op after}, ops = before ++ (now, op) :: after →
      (performAll before s₀).Aged now ∧ (∀ time ∈ clockReadings before s₀, time ≤ now) ∧
        (∀ time ∈ launchTimes (op.moves now (performAll before s₀)), now ≤ time) ∧
          (now :: clockReadings after (op.perform now (performAll before s₀))).Pairwise
            (· ≤ ·) := by
    rintro before now op after rfl
    obtain ⟨hbefore, hbehind⟩ := clockReadings_split hclock
    obtain ⟨-, hlaunches, hrest⟩ := clockReadings_cons hbehind
    refine ⟨aged_performAll hacc₀ haged₀ hbefore, fun time htime => ?_, hlaunches, hrest⟩
    exact (List.pairwise_append.mp hbefore).2.2 time (List.mem_cons_of_mem _ htime) now
      (List.mem_singleton.mpr rfl)
  refine ⟨?_, ?_, ?_, ?_, ?_, ?_⟩
  · intro before now after _
    exact Scheduler.sheds_collectIfDue ((Scheduler.path_swept now _).path.accord (hacc before)) now
  · intro before now after _
    exact Scheduler.sheds_collectGarbage (hacc before) now
  · intro before now op mid later after time time' retention retention' hsplit hfirst hsecond
    obtain ⟨-, -, hlaunches, hrest⟩ := hpast (hsplit.trans (List.append_assoc _ _ _))
    refine ⟨(hkeeps _).symm.trans (Scheduler.due_of_collect hsecond).2.1, ?_⟩
    rw [performAll_append] at hsecond
    refine retention_le_of_collect hlaunches (fun time htime => ?_) hfirst hsecond
    refine (List.pairwise_cons.mp hrest).1 time ?_
    have hmid : mid.append ((later, .tick) :: after) = mid ++ [(later, .tick)] ++ after :=
      List.append_cons mid (later, .tick) after
    rw [hmid, clockReadings_append]
    exact List.mem_append_left _ htime
  · intro before now after retention hsplit hretention hpos e he time hend
    obtain ⟨haged, -, hlaunches, -⟩ := hpast hsplit
    have hticked := Operation.aged (hacc before) haged hlaunches
    exact Scheduler.lt_of_tick hticked ((hkeeps before).trans hretention) hpos he hend
  · intro before now after hsplit hretention e he time hend
    have hlt := (hacc before).lt_of_bare ((hkeeps before).trans hretention) he hend
    exact ⟨hlt, launched_of_left hacc₀ hempty (hpast hsplit).2.1 he hend hlt⟩
  · intro hnone before now op after _
    have hretention := (hkeeps before).trans hnone
    refine ⟨fun time retention hmem => ?_, Scheduler.collected_of_keeping hretention now⟩
    exact absurd ((Operation.retention_of_collect hmem).symm.trans hretention) nofun

/-- The visitor is started twice, with heartbeats behind each start. -/
def visitorBeats : List (Millis × Operation Playbook.ensemble) :=
  [(0, .startScript "visitor" "visitor" (.playbook visitor) []), (3, .tick), (4, .tick),
    (5, .startScript "visitor" "visitor" (.playbook visitor) []), (8, .tick), (12, .tick)]

/-- The first entry of the visitor is collected as soon as it is due, the second one only in the
heartbeat behind the next, since it was not due in that one. -/
theorem collection_law_of_visitor :
    (0 :: clockReadings visitorBeats visitorStart).Pairwise (· ≤ ·) ∧
      CollectionLaw visitorBeats visitorStart ∧
      ((performAll (visitorBeats.take 2) visitorStart).tick 4).1.collected = [1] ∧
      ((performAll (visitorBeats.take 4) visitorStart).tick 8).1.collected = [] ∧
      ((performAll (visitorBeats.take 5) visitorStart).tick 12).1.collected = [2] := by
  have hclock : (0 :: clockReadings visitorBeats visitorStart).Pairwise (· ≤ ·) := by decide
  exact ⟨hclock, collection_law_of_create _ _ _ _ _ _ _ hclock, rfl, rfl, rfl⟩

namespace StepScript

/-- A scheduler that does not keep finished entries, with a host that calls for a guest after a
heartbeat. Its clock goes on for each launch. -/
def guestStart : Scheduler (language Unit) :=
  .create { retention? := some 0 }
    (.ofFiles (.ofList [(⟨"/scripts/host.step"⟩, "yield\nrun guest\nreturn"),
      (⟨"/scripts/guest.step"⟩, "return")]) "step")
    [⟨"/scripts"⟩] () 0 fun _ now => now + 1

/-- **A heartbeat may leave a finished entry where entries are not kept.** The host ends at the time
of the heartbeat and its entry is collected; the guest is launched later in the same heartbeat, and
its entry is left. -/
theorem late_guest_is_left :
    let ops : List (Millis × Operation (language Unit)) := [(0, .run "host" []), (5, .tick)]
    (0 :: clockReadings ops guestStart).Pairwise (· ≤ ·) ∧
      (performAll ops guestStart).options.retention? = some 0 ∧
      (performAll ops guestStart).table.members.map (fun e => (e.name, e.endTime?)) =
        [("guest", some 6)] := by
  decide +kernel

end StepScript

end Heartbeat

import Heartbeat.Playbook
import Heartbeat.Proofs.Scheduler.Consistent
import Heartbeat.Proofs.Scheduler.Readings

/-!
# What becomes of an entry

The process table outlives the threads. In a move only a few things can become of the entry of an
identifier: `Passage` lists them, with what the move must be for an entry to go. A finished entry is
frozen: nothing is written into it any more, and it goes only when it is collected or when a start
of its path makes room.

* `Move.passage`: what becomes of every entry in a move.
* `Path.frozen`: a finished entry stays as it is until it goes, and its identifier stays free.
* `Path.timed`: no run ends before it starts, as long as the clock does not go back.
* `entry_law_of_create`: what holds of the entries at every moment of every run.
-/

namespace Heartbeat

variable {L : Language} {now : Millis}

/-- Two entries tell of the same run. -/
structure ProcessEntry.SameRun (e e' : ProcessEntry) : Prop where
  pid : e'.pid = e.pid
  name : e'.name = e.name
  path : e'.path = e.path
  arguments : e'.arguments = e.arguments
  startTime : e'.startTime = e.startTime

/-- The entry of a script that has not ended: nothing is kept in it. -/
structure ProcessEntry.IsFresh (e : ProcessEntry) : Prop where
  live : e.isLive = true
  returnValues : e.returnValues = []
  error : e.error? = none

/-- The path whose finished entries go in a move. -/
def Move.roomFor? : Move L → Option String
  | .enroll _ path _ _ | .forget path => some path
  | _ => none

/-- **What becomes of the entry of an identifier** in a move that is made in a state at a time. -/
inductive Passage (now : Millis) (s : Scheduler L) (m : Move L) (p : Pid) :
    Option ProcessEntry → Option ProcessEntry → Prop
  | kept (e? : Option ProcessEntry) : Passage now s m p e? e?
  /-- A run starts. -/
  | entered {name path : String} {script : L.Script} {args : List String}
      (hmove : m = .enroll name path script args) (hpid : p = s.nextPid) :
      Passage now s m p none (some (.started p name path args now))
  /-- A live entry shows another status. -/
  | shown {e : ProcessEntry} (hlive : e.isLive = true) (status : ThreadStatus) :
      Passage now s m p (some e) (some { e with status := status })
  /-- The run of a live entry ends. -/
  | closed {e : ProcessEntry} (hlive : e.isLive = true) (outcome : ThreadOutcome) :
      Passage now s m p (some e) (some (outcome.close now e))
  /-- A finished entry makes room for a start of its path. -/
  | replaced {e : ProcessEntry} (hended : e.isLive = false) (hmove : m.roomFor? = some e.path) :
      Passage now s m p (some e) none
  /-- A finished entry has been kept for the whole retention. -/
  | collected {e : ProcessEntry} {time retention : Millis} (hmove : m = .collect retention)
      (hend : e.endTime? = some time) (hdue : time.after retention ≤ now) :
      Passage now s m p (some e) none

theorem ProcessEntry.not_live_of_endTime {e : ProcessEntry} {time : Millis}
    (h : e.endTime? = some time) : e.isLive = false := by
  unfold isLive
  rw [h]
  rfl

theorem ThreadOutcome.endTime_close (outcome : ThreadOutcome) (e : ProcessEntry) :
    (outcome.close now e).endTime? = some now := by
  cases outcome <;> rfl

theorem ThreadOutcome.sameRun_close (outcome : ThreadOutcome) (e : ProcessEntry) :
    e.SameRun (outcome.close now e) := by
  cases outcome <;> exact ⟨rfl, rfl, rfl, rfl, rfl⟩

/-! ## The table behind a move -/

namespace Scheduler

variable {s : Scheduler L} {p q : Pid}

theorem find?_forgetFinished (s : Scheduler L) (path : String) (p : Pid) :
    (s.forgetFinished path).table.find? p =
      (s.table.find? p).filter fun e => !(e.path == path && !e.isLive) :=
  Roster.find?_filter _ _ _

theorem find?_collect (s : Scheduler L) (now retention : Millis) (p : Pid) :
    (s.collect now retention).2.table.find? p =
      (s.table.find? p).filter (!·.isExpired now retention) :=
  Roster.find?_filter _ _ _

theorem find?_enroll (s : Scheduler L) (now : Millis) (name path : String) (script : L.Script)
    (args : List String) (p : Pid) :
    ((s.forgetFinished path).enroll now name path script args).table.find? p =
      if p = s.nextPid then some (.started p name path args now)
      else (s.table.find? p).filter fun e => !(e.path == path && !e.isLive) := by
  have hinsert := Roster.find?_insert (s.forgetFinished path).table
    (.started s.nextPid name path args now) p
  rw [find?_forgetFinished] at hinsert
  by_cases hp : p = s.nextPid
  · subst hp
    rw [if_pos rfl]
    exact hinsert.trans (if_pos rfl)
  · rw [if_neg hp]
    exact hinsert.trans (if_neg hp)

theorem table_abandon (s : Scheduler L) (q : Pid) : (s.abandon q).table = s.table := by
  unfold abandon
  cases s.threads.find? q <;> rfl

theorem find?_changeState (change : ExecutionState L.Condition → ExecutionState L.Condition)
    {t : Thread L} (hfind : s.threads.find? q = some t) (p : Pid) :
    (s.changeState change q).table.find? p =
      if p = q then (s.table.find? p).map fun e => { e with status := (change t.state).status }
      else s.table.find? p := by
  unfold changeState
  rw [hfind]
  exact ProcessTable.find?_update s.table q
    (fun e => { e with status := (change t.state).status }) (fun _ => rfl) p

/-- The slot of an identifier that comes next is free. -/
theorem find?_nextPid (hacc : s.Accord) : s.table.find? s.nextPid = none := by
  have hfree := (hacc.slots s.nextPid).eq_free (decide_eq_false fun h => Nat.lt_irrefl _ h.2)
  exact congrArg Slot.listed? hfree

/-- An entry has an identifier that was handed out. -/
theorem pid_lt_of_find? (hacc : s.Accord) {e : ProcessEntry} (hfind : s.table.find? p = some e) :
    p < s.nextPid := by
  have hlisted : (s.slot p).listed? = some e := hfind
  refine (pid_of_taken (taken_of_accord (hacc.slots p) (.inr ?_))).2
  rw [hlisted]
  rfl

end Scheduler

/-! ## Passages -/

namespace Passage

variable {s : Scheduler L} {m : Move L} {p : Pid} {e : ProcessEntry} {e? : Option ProcessEntry}

/-- Entries that a filter drops. -/
theorem filter {keep : ProcessEntry → Bool}
    (hdrop : ∀ e, keep e = false → Passage now s m p (some e) none) (e? : Option ProcessEntry) :
    Passage now s m p e? (e?.filter keep) := by
  cases e? with
  | none => exact .kept none
  | some e =>
    cases hkeep : keep e with
    | true =>
      rw [Option.filter_some_pos hkeep]
      exact .kept _
    | false =>
      rw [Option.filter_some_neg (by simp [hkeep])]
      exact hdrop e hkeep

theorem forget {path : String} (hmove : m.roomFor? = some path) (e? : Option ProcessEntry) :
    Passage now s m p e? (e?.filter fun e => !(e.path == path && !e.isLive)) := by
  refine filter (fun e hdrop => ?_) e?
  obtain ⟨hpath, hended⟩ : e.path = path ∧ e.isLive = false := by simpa using hdrop
  exact .replaced hended (hpath ▸ hmove)

/-- A move that touches one entry, or none. -/
theorem own {q : Pid} (h : Passage now s m q (s.table.find? q) e?) (p : Pid) :
    Passage now s m p (s.table.find? p) (if p = q then e? else s.table.find? p) := by
  split
  · rename_i hp
    rw [hp]
    exact h
  · exact .kept _

/-- A finished entry stays as it is, or goes for one of two reasons. -/
theorem of_ended (h : Passage now s m p (some e) e?) (hended : e.isLive = false) :
    e? = some e ∨ e? = none ∧ (m.roomFor? = some e.path ∨ ∃ time retention,
      m = .collect retention ∧ e.endTime? = some time ∧ time.after retention ≤ now) := by
  cases h with
  | kept => exact .inl rfl
  | shown hlive status => exact absurd (hlive.symm.trans hended) nofun
  | closed hlive outcome => exact absurd (hlive.symm.trans hended) nofun
  | replaced _ hmove => exact .inr ⟨rfl, .inl hmove⟩
  | collected hmove hend hdue => exact .inr ⟨rfl, .inr ⟨_, _, hmove, hend, hdue⟩⟩

/-- A live entry stays, though it may be closed. -/
theorem of_live (h : Passage now s m p (some e) e?) (hlive : e.isLive = true) :
    ∃ e', e? = some e' ∧ e.SameRun e' := by
  cases h with
  | kept => exact ⟨e, rfl, rfl, rfl, rfl, rfl, rfl⟩
  | shown _ status => exact ⟨_, rfl, rfl, rfl, rfl, rfl, rfl⟩
  | closed _ outcome => exact ⟨_, rfl, outcome.sameRun_close e⟩
  | replaced hended _ => exact absurd (hlive.symm.trans hended) nofun
  | collected _ hend _ =>
    exact absurd (hlive.symm.trans (ProcessEntry.not_live_of_endTime hend)) nofun

/-- An entry was there before, or its run starts now. -/
theorem origin (h : Passage now s m p e? (some e)) :
    (∃ e₀, e? = some e₀ ∧ e₀.SameRun e) ∨
      p = s.nextPid ∧ ∃ name path script args,
        m = .enroll name path script args ∧ e = .started p name path args now := by
  cases h with
  | kept => exact .inl ⟨e, rfl, rfl, rfl, rfl, rfl, rfl⟩
  | entered hmove hpid => exact .inr ⟨hpid, _, _, _, _, hmove, rfl⟩
  | shown _ status => exact .inl ⟨_, rfl, rfl, rfl, rfl, rfl, rfl⟩
  | closed _ outcome => exact .inl ⟨_, rfl, outcome.sameRun_close _⟩

end Passage

namespace Move

variable {s : Scheduler L}

/-- **What becomes of every entry in a move.** -/
theorem passage {m : Move L} (hfits : m.Fits s) (hacc : s.Accord) (now : Millis) (p : Pid) :
    Passage now s m p (s.table.find? p) ((m.apply now s).table.find? p) := by
  -- only the entry of an active thread is written into, and it is live
  have hentry : ∀ {q : Pid} {t : Thread L}, s.threads.find? q = some t → t.isActive = true →
      ∃ e, s.table.find? q = some e ∧ e.isLive = true := fun hfind hactive => by
    obtain ⟨e, he, hdesc⟩ := Scheduler.entry_of_script hfind (hacc.slots _)
      (Thread.not_terminated_of_active hactive)
    exact ⟨e, he, hdesc.isLive⟩
  have hchange : ∀ (change : ExecutionState L.Condition → ExecutionState L.Condition) {q : Pid}
      {t : Thread L}, s.threads.find? q = some t → t.isActive = true →
        Passage now s m p (s.table.find? p) ((s.changeState change q).table.find? p) := by
    intro change q t hfind hactive
    obtain ⟨e, he, hlive⟩ := hentry hfind hactive
    rw [Scheduler.find?_changeState change hfind]
    split
    · rename_i hp
      rw [hp, he]
      exact .shown hlive _
    · exact .kept _
  cases m with
  | enroll name path script args =>
    show Passage now s _ p _ (((s.forgetFinished path).enroll now name path script args).table.find?
      p)
    rw [Scheduler.find?_enroll]
    split
    · rename_i hp
      rw [hp, Scheduler.find?_nextPid hacc]
      exact .entered rfl rfl
    · exact .forget rfl _
  | forget path =>
    show Passage now s _ p _ ((s.forgetFinished path).table.find? p)
    rw [Scheduler.find?_forgetFinished]
    exact .forget rfl _
  | serve q =>
    obtain ⟨t, hfind, hactive⟩ := hfits
    obtain ⟨e, he, hlive⟩ := hentry hfind hactive
    have htable := (Scheduler.recordService_spec (s := s.absorb (s.activityOf now t)) (q := q) he
      (s.activityOf now t).value now).2.2.2 p
    have hserve : s.serve now q =
        (s.absorb (s.activityOf now t)).recordService q now (s.activityOf now t).value := by
      unfold Scheduler.serve
      rw [hfind]
    show Passage now s _ p _ ((s.serve now q).table.find? p)
    rw [hserve, htable]
    refine .own ?_ p
    rw [he]
    unfold Thread.ServiceOutcome.close
    cases (s.activityOf now t).value.end? with
    | none => exact .kept _
    | some outcome => exact .closed hlive outcome
  | refuse error => exact .kept _
  | mark q =>
    show Passage now s _ p _ ((s.abandon q).table.find? p)
    rw [Scheduler.table_abandon]
    exact .kept _
  | pause q =>
    obtain ⟨t, hfind, hactive, -⟩ := hfits
    exact hchange .pause hfind hactive
  | resume q =>
    obtain ⟨t, hfind, hactive, -⟩ := hfits
    exact hchange .resume hfind hactive
  | feed line => exact .kept _
  | reap q =>
    obtain ⟨t, hfind, -⟩ := hfits
    show Passage now s _ p _ ((s.reap now q).table.find? p)
    rw [Scheduler.reap_eq hfind]
    cases hended : t.isTerminated with
    | true =>
      rw [if_pos rfl]
      exact .kept _
    | false =>
      obtain ⟨e, he, hdesc⟩ := Scheduler.entry_of_script hfind (hacc.slots q) hended
      rw [if_neg Bool.false_ne_true, Scheduler.find?_recordOutcome
        (s := s.withThreads (s.threads.erase q)) he]
      refine .own ?_ p
      rw [he]
      exact .closed hdesc.isLive .stopped
  | collect retention =>
    show Passage now s _ p _ ((s.collect now retention).2.table.find? p)
    rw [Scheduler.find?_collect]
    refine .filter (fun e hdrop => ?_) _
    have hexpired : e.isExpired now retention = true := by simpa using hdrop
    unfold ProcessEntry.isExpired at hexpired
    cases hend : e.endTime? with
    | none => simp [hend] at hexpired
    | some time =>
      simp only [hend, Bool.and_eq_true, decide_eq_true_eq] at hexpired
      exact .collected rfl hend hexpired.2
  | setTurbo turbo => exact .kept _
  | drain => exact .kept _
  | outside library world => exact .kept _

/-- The run of an identifier ends in a move, as far as its entry says. -/
def Finalizes (now : Millis) (s : Scheduler L) (p : Pid) (m : Move L) : Prop :=
  (∃ e, s.table.find? p = some e ∧ e.isLive = true) ∧
    ∃ e, (m.apply now s).table.find? p = some e ∧ e.isLive = false

end Move

/-! ## Entries along a path -/

/-- No run ends before it starts, and all that an entry tells of is past. -/
structure ProcessEntry.Timed (now : Millis) (e : ProcessEntry) : Prop where
  started : e.startTime ≤ now
  ended : ∀ time, e.endTime? = some time → e.startTime ≤ time

theorem ProcessEntry.Timed.mono {e : ProcessEntry} {now' : Millis} (h : e.Timed now)
    (hle : now ≤ now') : e.Timed now' :=
  ⟨Nat.le_trans h.started hle, h.ended⟩

theorem Passage.timed {s : Scheduler L} {m : Move L} {p : Pid} {e : ProcessEntry}
    {e? : Option ProcessEntry} (h : Passage now s m p e? (some e))
    (htimed : ∀ e₀, e? = some e₀ → e₀.Timed now) : e.Timed now := by
  cases h with
  | kept => exact htimed e rfl
  | entered hmove hpid => exact ⟨Nat.le_refl _, nofun⟩
  | shown hlive status => exact ⟨(htimed _ rfl).started, (htimed _ rfl).ended⟩
  | @closed e₀ hlive outcome =>
    have hstart : (outcome.close now e₀).startTime = e₀.startTime :=
      (outcome.sameRun_close e₀).startTime
    refine ⟨hstart ▸ (htimed _ rfl).started, fun time htime => ?_⟩
    rw [outcome.endTime_close] at htime
    rw [hstart, ← Option.some.inj htime]
    exact (htimed _ rfl).started

namespace Path

variable {s s' : Scheduler L} {moves : List (Millis × Move L)} {p : Pid} {e : ProcessEntry}

theorem of_single {m : Move L} (h : Path s [(now, m)] s') : m.Fits s ∧ s' = m.apply now s := by
  cases h with
  | cons _ hfits hrest =>
    cases hrest
    exact ⟨hfits, rfl⟩

/-- An identifier without an entry that was handed out never gets one again. -/
theorem gone (h : Path s moves s') (hacc : s.Accord) (hnone : s.table.find? p = none)
    (hlt : p < s.nextPid) : s'.table.find? p = none := by
  induction h with
  | nil => exact hnone
  | @cons s s' m moves now hfits _ ih =>
    have hpassage := Move.passage hfits hacc now p
    have hnext := Nat.lt_of_lt_of_le hlt (Move.nextPid_le m now s)
    refine ih (Move.accord hfits hacc now) (Option.eq_none_iff_forall_ne_some.mpr ?_) hnext
    intro e he
    rw [hnone, he] at hpassage
    rcases hpassage.origin with ⟨e₀, he₀, -⟩ | ⟨rfl, -⟩
    · exact absurd he₀ nofun
    · exact absurd hlt (Nat.lt_irrefl _)

/-- **A finished entry stays as it is until it goes**, and is not replaced under its identifier. -/
theorem frozen (h : Path s moves s') (hacc : s.Accord) (hfind : s.table.find? p = some e)
    (hended : e.isLive = false) :
    s'.table.find? p = some e ∨ s'.table.find? p = none := by
  induction h with
  | nil => exact .inl hfind
  | @cons s s' m moves now hfits hrest ih =>
    have hpassage := Move.passage hfits hacc now p
    have hnext := Move.accord hfits hacc now
    rw [hfind] at hpassage
    rcases hpassage.of_ended hended with hsame | ⟨hgone, -⟩
    · exact ih hnext hsame
    · have hlt := Nat.lt_of_lt_of_le (Scheduler.pid_lt_of_find? hacc hfind)
        (Move.nextPid_le m now s)
      exact .inr (hrest.gone hnext hgone hlt)

/-- **No run ends before it starts**, as long as the clock does not go back. -/
theorem timed (h : Path s moves s') (hacc : s.Accord) (hclock : moves.Pairwise (·.1 ≤ ·.1))
    (hstart : ∀ p e, s.table.find? p = some e → ∀ x ∈ moves, e.Timed x.1)
    (hended : ∀ p e, s.table.find? p = some e → ∀ time, e.endTime? = some time →
      e.startTime ≤ time) :
    ∀ p e, s'.table.find? p = some e → ∀ time, e.endTime? = some time → e.startTime ≤ time := by
  induction h with
  | nil => exact hended
  | @cons s s' m moves now hfits _ ih =>
    rw [List.pairwise_cons] at hclock
    have htimed : ∀ p e, (m.apply now s).table.find? p = some e → e.Timed now := by
      intro p e he
      have hpassage := Move.passage hfits hacc now p
      rw [he] at hpassage
      exact hpassage.timed fun e₀ he₀ => hstart p e₀ he₀ _ List.mem_cons_self
    exact ih (Move.accord hfits hacc now) hclock.2
      (fun p e he x hx => (htimed p e he).mono (hclock.1 x hx))
      fun p e he => (htimed p e he).ended

end Path

/-! ## Runs -/

/-- The state of a run behind so many moves. -/
def moment (ops : List (Millis × Operation L)) (s₀ : Scheduler L) (n : Nat) : Scheduler L :=
  replay ((history ops s₀).take n) s₀

section Moments

variable {ops : List (Millis × Operation L)} {s₀ : Scheduler L} {n k : Nat}

theorem history_append (ops ops' : List (Millis × Operation L)) (s₀ : Scheduler L) :
    history (ops ++ ops') s₀ = history ops s₀ ++ history ops' (performAll ops s₀) := by
  induction ops generalizing s₀ with
  | nil => rfl
  | cons op ops ih =>
    simp only [List.cons_append, history, performAll, List.append_assoc]
    rw [ih]

/-- The states between two operations are among the moments. -/
theorem exists_moment_eq (ops : List (Millis × Operation L)) (s₀ : Scheduler L) (k : Nat) :
    ∃ n, moment ops s₀ n = performAll (ops.take k) s₀ := by
  refine ⟨(history (ops.take k) s₀).length, ?_⟩
  have hsplit := history_append (ops.take k) (ops.drop k) s₀
  rw [List.take_append_drop] at hsplit
  unfold moment
  rw [hsplit, List.take_left']
  · exact (path_history (ops.take k) s₀).replay_eq
  · rfl

/-- From one moment to a later one leads a path. -/
theorem path_moment (ops : List (Millis × Operation L)) (s₀ : Scheduler L) (hle : n ≤ k) :
    Path (moment ops s₀ n) (((history ops s₀).take k).drop n) (moment ops s₀ k) := by
  have hpath := path_history ops s₀
  rw [← List.take_append_drop k (history ops s₀)] at hpath
  have hpast : Path s₀ ((history ops s₀).take k) (moment ops s₀ k) := hpath.split.1
  rw [← List.take_append_drop n ((history ops s₀).take k), List.take_take,
    Nat.min_eq_left hle] at hpast
  exact hpast.split.2

theorem accord_moment (hacc : s₀.Accord) (n : Nat) : (moment ops s₀ n).Accord := by
  have hpath := path_moment ops s₀ (Nat.zero_le n)
  exact hpath.accord hacc

/-- The move of a run at a position leads from one moment to the next. -/
theorem moment_succ {m : Move L} (hmove : (history ops s₀)[n]? = some (now, m)) :
    m.Fits (moment ops s₀ n) ∧ moment ops s₀ (n + 1) = m.apply now (moment ops s₀ n) := by
  have hpath : Path s₀ ((history ops s₀).take (n + 1)) (moment ops s₀ (n + 1)) :=
    path_moment ops s₀ (Nat.zero_le (n + 1))
  have hlast : (history ops s₀).take (n + 1) = (history ops s₀).take n ++ [(now, m)] := by
    rw [List.take_add_one, hmove]
    rfl
  rw [hlast] at hpath
  exact hpath.split.2.of_single

end Moments

/-- **The law of entries** in the run of a row of operations from a state: what holds at every
moment, the middle of an operation included. -/
structure EntryLaw (ops : List (Millis × Operation L)) (s₀ : Scheduler L) : Prop where
  /-- The states between two operations are among the moments. -/
  covers : ∀ k, ∃ n, moment ops s₀ n = performAll (ops.take k) s₀
  /-- No run ends before it starts. -/
  ordered : ∀ n p e time, (moment ops s₀ n).table.find? p = some e → e.endTime? = some time →
    e.startTime ≤ time
  /-- Nothing is written into a finished entry for the rest of the run. -/
  frozen : ∀ n k p e, n ≤ k → (moment ops s₀ n).table.find? p = some e → e.isLive = false →
    (moment ops s₀ k).table.find? p = some e ∨ (moment ops s₀ k).table.find? p = none
  /-- An entry that goes is finished, and has been kept for the whole retention or makes room for a
  start of its path: the entry of the new run takes its place, unless no identifier is left. -/
  dropped : ∀ n now m p e, (history ops s₀)[n]? = some (now, m) →
    (moment ops s₀ n).table.find? p = some e → (moment ops s₀ (n + 1)).table.find? p = none →
      e.isLive = false ∧
        ((∃ retention time, m = .collect retention ∧
            (moment ops s₀ n).options.retention? = some retention ∧ e.endTime? = some time ∧
            time.after retention ≤ now) ∨
          (∃ name script args, m = .enroll name e.path script args ∧
            (moment ops s₀ (n + 1)).table.find? (moment ops s₀ n).nextPid =
              some (.started (moment ops s₀ n).nextPid name e.path args now)) ∨
          (m = .forget e.path ∧ Pid.limit ≤ (moment ops s₀ n).nextPid))
  /-- A live entry stays, and goes on telling of the same run. -/
  lives : ∀ n p e, (moment ops s₀ n).table.find? p = some e → e.isLive = true →
    ∃ e', (moment ops s₀ (n + 1)).table.find? p = some e' ∧ e.SameRun e'
  /-- A run is finalized once at most. -/
  once : ∀ n n' now now' (m m' : Move L) p, (history ops s₀)[n]? = some (now, m) →
    (history ops s₀)[n']? = some (now', m') → m.Finalizes now (moment ops s₀ n) p →
      m'.Finalizes now' (moment ops s₀ n') p → n = n'

/-- What is finalized in a move stays finished, so that no later move finalizes it. -/
theorem not_finalized_twice {ops : List (Millis × Operation L)} {s₀ : Scheduler L}
    (hacc : s₀.Accord) {n n' : Nat} {now now' : Millis} {m m' : Move L} {p : Pid}
    (hmove : (history ops s₀)[n]? = some (now, m)) (hfirst : m.Finalizes now (moment ops s₀ n) p)
    (hlater : m'.Finalizes now' (moment ops s₀ n') p) : ¬ n < n' := by
  intro hlt
  obtain ⟨-, e, he, hended⟩ := hfirst
  obtain ⟨⟨e', he', hlive⟩, -⟩ := hlater
  rw [← (moment_succ hmove).2] at he
  rcases (path_moment ops s₀ hlt).frozen (accord_moment hacc _) he hended with hsame | hgone
  · rw [he'] at hsame
    rw [Option.some.inj hsame, hended] at hlive
    exact absurd hlive nofun
  · rw [he'] at hgone
    exact absurd hgone nofun

/-- **The law of entries holds in every run whose clock stands still in every operation** and does
not go back between them, whatever the host does and whatever the scripts do. -/
theorem entry_law_of_create (options : SchedulerOptions) (library : ScriptLibrary)
    (searchPath : List ScriptPath) (world : L.World) (start : Millis)
    (ops : List (Millis × Operation L)) (hclock : ops.Pairwise (·.1 ≤ ·.1)) :
    EntryLaw ops (Scheduler.create (L := L) options library searchPath world start .still) := by
  have hacc := Scheduler.accord_create (L := L) options library searchPath world start .still
  have hempty : ∀ p, (Scheduler.create (L := L) options library searchPath world start
      .still).table.find? p = none := fun _ => rfl
  have hstill : (Scheduler.create (L := L) options library searchPath world start .still).clock =
      .still := rfl
  generalize Scheduler.create options library searchPath world start .still = s₀
    at hacc hempty hstill ⊢
  refine ⟨exists_moment_eq ops s₀, ?_, ?_, ?_, ?_, ?_⟩
  · intro n p e time he hend
    have hpath := path_moment ops s₀ (Nat.zero_le n)
    have htimes : (((history ops s₀).take n).drop 0).Pairwise (·.1 ≤ ·.1) :=
      (clock_history hstill hclock).sublist (List.take_sublist _ _)
    refine hpath.timed hacc htimes ?_ ?_ p e he time hend
    · intro p e he
      exact absurd ((hempty p).symm.trans he) nofun
    · intro p e he
      exact absurd ((hempty p).symm.trans he) nofun
  · intro n k p e hle he hended
    exact (path_moment ops s₀ hle).frozen (accord_moment hacc n) he hended
  · intro n now m p e hmove he hgone
    obtain ⟨hfits, hnext⟩ := moment_succ hmove
    have hpassage := Move.passage hfits (accord_moment hacc n) now p
    rw [← hnext, he, hgone] at hpassage
    have hended : e.isLive = false := by
      by_contra hlive
      obtain ⟨e', he', -⟩ := hpassage.of_live (by simpa using hlive)
      exact absurd he' nofun
    refine ⟨hended, ?_⟩
    rcases hpassage.of_ended hended with hsame | ⟨-, hroom | ⟨time, retention, rfl, hend, hdue⟩⟩
    · exact absurd hsame nofun
    · cases m with
      | enroll name path script args =>
        obtain rfl : path = e.path := Option.some.inj hroom
        refine .inr (.inl ⟨name, script, args, rfl, ?_⟩)
        rw [hnext]
        exact (Scheduler.find?_enroll _ now name _ script args _).trans (if_pos rfl)
      | forget path =>
        obtain rfl : path = e.path := Option.some.inj hroom
        exact .inr (.inr ⟨rfl, hfits.1⟩)
      | _ => exact absurd hroom nofun
    · exact .inl ⟨retention, time, rfl, hfits, hend, hdue⟩
  · intro n p e he hlive
    rcases hmove : (history ops s₀)[n]? with _ | ⟨now, m⟩
    · have hend := List.getElem?_eq_none_iff.mp hmove
      have hsame : moment ops s₀ (n + 1) = moment ops s₀ n := by
        unfold moment
        rw [List.take_of_length_le hend, List.take_of_length_le (Nat.le_succ_of_le hend)]
      rw [hsame]
      exact ⟨e, he, rfl, rfl, rfl, rfl, rfl⟩
    · obtain ⟨hfits, hnext⟩ := moment_succ hmove
      have hpassage := Move.passage hfits (accord_moment hacc n) now p
      rw [← hnext, he] at hpassage
      exact hpassage.of_live hlive
  · intro n n' now now' m m' p hmove hmove' hfirst hsecond
    have hnot := not_finalized_twice hacc hmove hfirst hsecond
    have hnot' := not_finalized_twice hacc hmove' hsecond hfirst
    omega

/-- A playbook that is done in its first step. -/
def visitor : Playbook := ⟨[⟨[], .done []⟩], false⟩

/-- A scheduler that keeps finished entries for four milliseconds. -/
def visitorStart : Scheduler Playbook.ensemble :=
  .create { retention? := some 4 } ⟨⟨[], []⟩, "beat", none⟩ [] {} 0

/-- The visitor is started twice, and what is left of it is collected. -/
def visitorOps : List (Millis × Operation Playbook.ensemble) :=
  [(0, .startScript "visitor" "visitor" (.playbook visitor) []),
    (5, .startScript "visitor" "visitor" (.playbook visitor) []), (9, .collectGarbage)]

/-- The first entry of the visitor goes for its second start, and the second one for its age. -/
theorem entry_law_of_visitor :
    visitorOps.Pairwise (·.1 ≤ ·.1) ∧ EntryLaw visitorOps visitorStart ∧
      ((moment visitorOps visitorStart 2).table.find? 1).map (·.endTime?) = some (some 0) ∧
      (moment visitorOps visitorStart 3).table.find? 1 = none ∧
      ((moment visitorOps visitorStart 4).table.find? 2).map (·.endTime?) = some (some 5) ∧
      (moment visitorOps visitorStart 5).table.find? 2 = none := by
  have hclock : visitorOps.Pairwise (·.1 ≤ ·.1) := by decide
  exact ⟨hclock, entry_law_of_create _ _ _ _ _ _ hclock, rfl, rfl, rfl, rfl⟩

end Heartbeat

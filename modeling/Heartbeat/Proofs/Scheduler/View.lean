import Heartbeat.Proofs.Scheduler.Entry

/-!
# What a scheduler is to one script

A script notices of its scheduler its own thread and entry, the news about them, the options and the
time of the last collection. Apart from the world, which all scripts share, what a move does to this
much of a scheduler depends on nothing else.

* `Scheduler.view`: what a scheduler is to the script of an identifier.
* `View.behind`: what a move makes of it.
* `view_apply`: the view behind a move is what the move makes of the view before it.
-/

namespace Heartbeat

variable {L : Language} {now : Millis}

/-- The news about a process identifier. -/
def newsAbout (p : Pid) (news : List StatusEvent) : List StatusEvent :=
  news.filter (·.pid? == some p)

/-- What a scheduler is to the script of a process identifier. -/
structure View (L : Language) where
  pid : Pid
  thread? : Option (Thread L)
  listed? : Option ProcessEntry
  /-- The news about it that the host has not taken yet. -/
  news : List StatusEvent
  options : SchedulerOptions
  lastCollection : Millis

/-- What a scheduler is to the script of a process identifier. -/
def Scheduler.view (s : Scheduler L) (p : Pid) : View L where
  pid := p
  thread? := s.threads.find? p
  listed? := s.table.find? p
  news := newsAbout p s.status
  options := s.options
  lastCollection := s.lastCollection

namespace View

/-- The news about the script. -/
def announce (v : View L) (event : StatusEvent) : View L := { v with news := v.news ++ [event] }

/-- Closes the entry of a thread that ended, and reports it. -/
def close (v : View L) (now : Millis) (outcome : ThreadOutcome) : View L :=
  match v.listed? with
  | none => v
  | some e =>
    ({ v with listed? := some (outcome.close now e) } : View L).announce
      (.thread v.pid e.name outcome.report)

/-- Closes the entry of a thread if its service ended it. -/
def record (v : View L) (now : Millis) (outcome : Thread.ServiceOutcome) : View L :=
  match outcome.end? with
  | some outcome => v.close now outcome
  | none => v

/-- The activity of a thread that is serviced. -/
def activityOf (v : View L) (now : Millis) (world : L.World) (t : Thread L) :
    Activity L Thread.ServiceOutcome :=
  t.service v.options.turbo (v.options.dispatch == .onResume) now world

/-- A service. -/
def serve (now : Millis) (world : L.World) (v : View L) : View L :=
  match v.thread? with
  | none => v
  | some t =>
    let a := v.activityOf now world t
    ({ v with thread? := some a.thread, news := v.news ++ a.status } : View L).record now a.value

/-- A mark for stopping. -/
def abandon (v : View L) : View L :=
  match v.thread? with
  | none => v
  | some t =>
    ({ v with thread? := some t.abandon } : View L).announce (.thread v.pid t.name .stopping)

/-- A change of state. -/
def changeState (change : ExecutionState L.Condition → ExecutionState L.Condition) (v : View L) :
    View L :=
  match v.thread? with
  | none => v
  | some t =>
    ({ v with
      thread? := some { t with state := change t.state }
      listed? := v.listed?.map fun e => { e with status := (change t.state).status } } :
        View L).announce
      (.thread v.pid t.name (if (change t.state).isPaused then .paused else .resumed))

/-- A line of text. -/
def feed (v : View L) (line : String) : View L :=
  { v with thread? := v.thread?.map fun t => (t.feed line).2 }

/-- A removal. -/
def reap (now : Millis) (v : View L) : View L :=
  match v.thread? with
  | none => v
  | some t =>
    let v : View L := { v with thread? := none }
    if t.isTerminated then v else v.close now .stopped

/-- The finished entries of a path go. -/
def forget (v : View L) (path : String) : View L :=
  { v with listed? := v.listed?.filter fun e => !(e.path == path && !e.isLive) }

/-- A start. -/
def enroll (v : View L) (now : Millis) (name path : String) (script : L.Script)
    (args : List String) : View L :=
  ({ v with
    thread? := some (.start v.pid name path args script v.options.queueLimit?)
    listed? := some (.started v.pid name path args now) } : View L).announce
      (.thread v.pid name .started)

/-- A collection. -/
def collect (v : View L) (now retention : Millis) : View L :=
  { v with listed? := v.listed?.filter (!·.isExpired now retention), lastCollection := now }

/-- **What a move makes of a view**; the scheduler has a world and a next identifier. -/
def behind (now : Millis) (world : L.World) (next : Pid) (m : Move L) (v : View L) : View L :=
  match m with
  | .enroll name path script args =>
    if v.pid = next then v.enroll now name path script args else v.forget path
  | .forget path => v.forget path
  | .serve pid => if v.pid = pid then v.serve now world else v
  | .refuse _ => v
  | .mark pid => if v.pid = pid then v.abandon else v
  | .pause pid => if v.pid = pid then v.changeState .pause else v
  | .resume pid => if v.pid = pid then v.changeState .resume else v
  | .feed line => v.feed line
  | .reap pid => if v.pid = pid then v.reap now else v
  | .collect retention => v.collect now retention
  | .setTurbo turbo => { v with options := { v.options with turbo := max turbo 1 } }
  | .drain => { v with news := [] }
  | .outside _ _ => v

section Thread

variable {v : View L} {t : Thread L}

theorem serve_eq (h : v.thread? = some t) (now : Millis) (world : L.World) :
    v.serve now world = ({ v with
      thread? := some (v.activityOf now world t).thread
      news := v.news ++ (v.activityOf now world t).status } : View L).record now
        (v.activityOf now world t).value := by
  unfold serve
  rw [h]

theorem abandon_eq (h : v.thread? = some t) :
    v.abandon = ({ v with thread? := some t.abandon } : View L).announce
      (.thread v.pid t.name .stopping) := by
  unfold abandon
  rw [h]

theorem changeState_eq (h : v.thread? = some t)
    (change : ExecutionState L.Condition → ExecutionState L.Condition) :
    v.changeState change = ({ v with
      thread? := some { t with state := change t.state }
      listed? := v.listed?.map fun e => { e with status := (change t.state).status } } :
        View L).announce
      (.thread v.pid t.name (if (change t.state).isPaused then .paused else .resumed)) := by
  unfold changeState
  rw [h]

theorem reap_eq (h : v.thread? = some t) (now : Millis) :
    v.reap now = if t.isTerminated then { v with thread? := none }
      else ({ v with thread? := none } : View L).close now .stopped := by
  unfold reap
  rw [h]

theorem thread_close (v : View L) (now : Millis) (outcome : ThreadOutcome) :
    (v.close now outcome).thread? = v.thread? := by
  unfold close
  split <;> rfl

theorem thread_record (v : View L) (now : Millis) (outcome : Thread.ServiceOutcome) :
    (v.record now outcome).thread? = v.thread? := by
  unfold record
  split
  · exact thread_close v now _
  · rfl

theorem thread_serve (h : v.thread? = some t) (now : Millis) (world : L.World) :
    (v.serve now world).thread? = some (v.activityOf now world t).thread := by
  rw [serve_eq h]
  exact thread_record _ now _

theorem thread_abandon (v : View L) : v.abandon.thread? = v.thread?.map Thread.abandon := by
  cases h : v.thread? with
  | none =>
    unfold abandon
    rwa [h]
  | some t => exact congrArg thread? (abandon_eq h)

theorem thread_changeState
    (change : ExecutionState L.Condition → ExecutionState L.Condition) (v : View L) :
    (v.changeState change).thread? =
      v.thread?.map fun t => { t with state := change t.state } := by
  cases h : v.thread? with
  | none =>
    unfold changeState
    rwa [h]
  | some t => exact congrArg thread? (changeState_eq h change)

theorem thread_reap (v : View L) (now : Millis) : (v.reap now).thread? = none := by
  cases h : v.thread? with
  | none =>
    unfold reap
    rwa [h]
  | some t =>
    rw [reap_eq h]
    split
    · rfl
    · exact thread_close _ now _

end Thread

end View

/-! ## The view behind a change -/

theorem newsAbout_append (p : Pid) (news news' : List StatusEvent) :
    newsAbout p (news ++ news') = newsAbout p news ++ newsAbout p news' := by
  unfold newsAbout
  exact List.filter_append _ _

/-- Reports on a thread are news about its identifier alone. -/
theorem newsAbout_thread (p q : Pid) (name : String) (reports : List ThreadReport) :
    newsAbout p (reports.map (StatusEvent.thread q name)) =
      if p = q then reports.map (StatusEvent.thread q name) else [] := by
  unfold newsAbout
  split
  · rename_i hp
    refine List.filter_eq_self.mpr fun event hevent => ?_
    obtain ⟨report, -, rfl⟩ := List.mem_map.mp hevent
    rw [hp]
    exact beq_self_eq_true _
  · rename_i hp
    refine List.filter_eq_nil_iff.mpr fun event hevent => ?_
    obtain ⟨report, -, rfl⟩ := List.mem_map.mp hevent
    exact fun heq => hp (Option.some.inj (beq_iff_eq.mp heq)).symm

/-- One report is news about its identifier alone. -/
theorem newsAbout_single (p q : Pid) (name : String) (report : ThreadReport) :
    newsAbout p [.thread q name report] = if p = q then [.thread q name report] else [] :=
  newsAbout_thread p q name [report]

namespace Scheduler

variable {s : Scheduler L} {q : Pid}

theorem view_announce (s : Scheduler L) (q : Pid) (name : String) (report : ThreadReport)
    (p : Pid) :
    (s.announce (.thread q name report)).view p =
      if p = q then (s.view p).announce (.thread q name report) else s.view p := by
  unfold announce view View.announce
  rw [newsAbout_append, newsAbout_single]
  split
  · rfl
  · rw [List.append_nil]

theorem view_setThread (s : Scheduler L) (t : Thread L) (p : Pid) :
    (s.setThread t).view p =
      if p = t.pid then { s.view p with thread? := some t } else s.view p := by
  unfold view
  rw [find?_setThread]
  split <;> rfl

theorem view_recordOutcome (s : Scheduler L) (q : Pid) (outcome : ThreadOutcome) (now : Millis)
    (p : Pid) :
    (s.recordOutcome q outcome now).view p =
      if p = q then (s.view p).close now outcome else s.view p := by
  cases hentry : s.table.find? q with
  | none =>
    have hsame : s.recordOutcome q outcome now = s := by
      unfold recordOutcome
      rw [hentry]
    rw [hsame]
    split
    · rename_i hp
      unfold View.close view
      simp only [hp, hentry]
    · rfl
  | some e =>
    have hfind := find?_recordOutcome hentry outcome now p
    have hnews := newsAbout_single p q e.name outcome.report
    rw [recordOutcome_eq hentry] at hfind ⊢
    unfold view
    simp only at hfind ⊢
    rw [hfind, newsAbout_append, hnews]
    split
    · rename_i hp
      subst hp
      simp only [View.close, hentry]
      rfl
    · rw [List.append_nil]

theorem view_recordService (s : Scheduler L) (q : Pid) (now : Millis)
    (outcome : Thread.ServiceOutcome) (p : Pid) :
    (s.recordService q now outcome).view p =
      if p = q then (s.view p).record now outcome else s.view p := by
  cases outcome with
  | notEligible => exact (ite_self _).symm
  | resumed outcome =>
    cases outcome with
    | suspended => exact (ite_self _).symm
    | finished outcome => exact view_recordOutcome s q outcome now p

/-! ### Moves of one thread -/

section Own

variable {t : Thread L} (hfind : s.threads.find? q = some t)

include hfind

theorem view_serve (hactive : t.isActive = true) (now : Millis) (p : Pid) :
    (s.serve now q).view p =
      if p = q then (s.view p).serve now s.world else s.view p := by
  have hpid : t.pid = q := Roster.key_of_find? hfind
  have hstage := Thread.stage_service hactive s.options.turbo (s.options.dispatch == .onResume) now
    s.world
  obtain ⟨talk, -, hsaid⟩ := hstage.talk
  have hnews := newsAbout_thread p q t.name talk
  have habsorb : (s.absorb (s.activityOf now t)).view p =
      if p = q then
        { s.view p with
          thread? := some (s.activityOf now t).thread
          news := (s.view p).news ++ (s.activityOf now t).status }
      else s.view p := by
    have hthread := find?_setThread s (s.activityOf now t).thread p
    have hsame : (s.activityOf now t).thread.pid = q := hstage.alike.pid.trans hpid
    have hstatus : (s.activityOf now t).status = talk.map (StatusEvent.thread q t.name) :=
      hpid ▸ hsaid
    unfold view absorb
    simp only
    rw [hthread, hsame, hstatus, newsAbout_append, hnews]
    split
    · rfl
    · rw [List.append_nil]
      rfl
  rw [serve_eq hfind, view_recordService, habsorb]
  split
  · rename_i hp
    subst hp
    exact (View.serve_eq (v := s.view p) hfind now s.world).symm
  · rfl

theorem view_abandon (p : Pid) :
    (s.abandon q).view p = if p = q then (s.view p).abandon else s.view p := by
  have hpid : t.pid = q := Roster.key_of_find? hfind
  have hsame : t.abandon.pid = q := hpid
  unfold abandon
  simp only [hfind]
  rw [view_announce, view_setThread, hsame]
  split
  · rename_i hp
    subst hp
    exact (View.abandon_eq (v := s.view p) hfind).symm
  · rfl

theorem view_changeState (change : ExecutionState L.Condition → ExecutionState L.Condition)
    (p : Pid) :
    (s.changeState change q).view p =
      if p = q then (s.view p).changeState change else s.view p := by
  have hpid : t.pid = q := Roster.key_of_find? hfind
  have hthread := find?_setThread s { t with state := change t.state } p
  have htable := find?_changeState change hfind p
  have hnews := newsAbout_single p q t.name
    (if (change t.state).isPaused then .paused else .resumed)
  have hview : (s.changeState change q).view p =
      ⟨p, if p = q then some { t with state := change t.state } else s.threads.find? p,
        if p = q then (s.table.find? p).map fun e => { e with status := (change t.state).status }
        else s.table.find? p,
        newsAbout p s.status ++ if p = q then
          [.thread q t.name (if (change t.state).isPaused then .paused else .resumed)] else [],
        s.options, s.lastCollection⟩ := by
    rw [← htable, ← hnews, ← newsAbout_append, ← hpid, ← hthread]
    unfold changeState
    simp only [hpid, hfind]
    rfl
  rw [hview]
  split
  · rename_i hp
    subst hp
    exact (View.changeState_eq (v := s.view p) hfind change).symm
  · rw [List.append_nil]
    rfl

theorem view_reap (now : Millis) (p : Pid) :
    (s.reap now q).view p = if p = q then (s.view p).reap now else s.view p := by
  have herase : ({ s with threads := s.threads.erase q } : Scheduler L).view p =
      if p = q then { s.view p with thread? := none } else s.view p := by
    unfold view
    simp only
    rw [Roster.find?_erase]
    split <;> rfl
  unfold reap
  simp only [hfind]
  by_cases hended : t.isTerminated = true
  · rw [if_pos hended, herase]
    split
    · rename_i hp
      subst hp
      rw [View.reap_eq (v := s.view p) hfind, if_pos hended]
    · rfl
  · rw [if_neg hended, view_recordOutcome, herase]
    split
    · rename_i hp
      subst hp
      rw [View.reap_eq (v := s.view p) hfind, if_neg hended]
    · rfl

end Own

/-! ### The other moves -/

theorem view_forgetFinished (s : Scheduler L) (path : String) (p : Pid) :
    (s.forgetFinished path).view p = (s.view p).forget path := by
  unfold view
  rw [find?_forgetFinished]
  rfl

theorem view_enroll (s : Scheduler L) (now : Millis) (name path : String) (script : L.Script)
    (args : List String) (p : Pid) :
    ((s.forgetFinished path).enroll now name path script args).view p =
      if p = s.nextPid then (s.view p).enroll now name path script args
      else (s.view p).forget path := by
  have hthread := Roster.find?_insert s.threads
    (.start s.nextPid name path args script s.options.queueLimit?) p
  have htable := find?_enroll s now name path script args p
  have hnews := newsAbout_single p s.nextPid name .started
  have hview : ((s.forgetFinished path).enroll now name path script args).view p =
      ⟨p, if p = s.nextPid then
          some (.start s.nextPid name path args script s.options.queueLimit?)
        else s.threads.find? p,
        if p = s.nextPid then some (.started p name path args now)
        else (s.table.find? p).filter fun e => !(e.path == path && !e.isLive),
        newsAbout p s.status ++ if p = s.nextPid then [.thread s.nextPid name .started] else [],
        s.options, s.lastCollection⟩ := by
    rw [← htable, ← hnews, ← newsAbout_append]
    exact congrArg (View.mk p · _ _ _ _) hthread
  rw [hview]
  split
  · rename_i hp
    subst hp
    rfl
  · rw [List.append_nil]
    rfl

theorem view_feed (s : Scheduler L) (line : String) (p : Pid) :
    (s.feed line).2.view p = (s.view p).feed line := by
  have hfind := Roster.find?_map s.threads (fun t => (t.feed line).2) (pid_feed line) p
  exact congrArg (View.mk p · _ _ _ _) hfind

theorem view_collect (s : Scheduler L) (now retention : Millis) (p : Pid) :
    (s.collect now retention).2.view p = (s.view p).collect now retention := by
  have hfind := Roster.find?_filter s.table (!·.isExpired now retention) p
  exact congrArg (View.mk p _ · _ _ _) hfind

/-- **What a move makes of a scheduler, for one script, it makes of the view of the script.** -/
theorem view_apply {m : Move L} (hfits : m.Fits s) (now : Millis) (p : Pid) :
    (m.apply now s).view p = (s.view p).behind now s.world s.nextPid m := by
  cases m with
  | enroll name path script args => exact view_enroll s now name path script args p
  | forget path => exact view_forgetFinished s path p
  | serve pid =>
    obtain ⟨t, hfind, hactive⟩ := hfits
    exact view_serve hfind hactive now p
  | refuse e =>
    have hnews : newsAbout p (s.status ++ [.refused e]) = newsAbout p s.status := by
      rw [newsAbout_append]
      exact List.append_nil _
    exact congrArg (View.mk p _ _ · _ _) hnews
  | mark pid =>
    obtain ⟨t, hfind, -⟩ := hfits
    exact view_abandon hfind p
  | pause pid =>
    obtain ⟨t, hfind, -⟩ := hfits
    exact view_changeState hfind .pause p
  | resume pid =>
    obtain ⟨t, hfind, -⟩ := hfits
    exact view_changeState hfind .resume p
  | feed line => exact view_feed s line p
  | reap pid =>
    obtain ⟨t, hfind, -⟩ := hfits
    exact view_reap hfind now p
  | collect retention => exact view_collect s now retention p
  | setTurbo turbo => rfl
  | drain => rfl
  | outside library world => rfl

end Scheduler

end Heartbeat

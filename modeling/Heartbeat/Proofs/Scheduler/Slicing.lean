import Heartbeat.Proofs.Scheduler.Calm
import Heartbeat.Proofs.Scheduler.Delivery
import Heartbeat.Proofs.Scheduler.Start
import Heartbeat.Proofs.Scheduler.Story
import Heartbeat.Proofs.StepScript.Code
import Heartbeat.Proofs.Thread.Walk

/-!
# Schedules do not show

The heartbeats, allowances, pauses and stops that a steady script gets decide how far it comes, and
nothing else: what it prints, and how it ends if it does, is decided by its own way.

* `Progress`: how far a script is on its way, and what has been heard of it.
* `Path.progress`: calm moves take a script further on its way.
* `Schedule`: a run of a scheduler with one script.
* `transparent_of_steady`: two schedules of a script differ in how far it comes.
-/

namespace Heartbeat

variable {L : Language} {now : Millis}

/-- The text that a report says was printed. -/
def ThreadReport.output? : ThreadReport → Option String
  | .output text => some text
  | _ => none

/-- The texts that a script printed, according to the news. -/
def outputsOf (p : Pid) (news : List StatusEvent) : List String :=
  (reportsOf p news).filterMap ThreadReport.output?

/-- The reports that a script ended by itself, in the news. -/
def endsOf (p : Pid) (news : List StatusEvent) : List ThreadReport :=
  (reportsOf p news).filter ThreadReport.isEnd

/-- What an entry keeps of the end of its script. -/
def ProcessEntry.result (e : ProcessEntry) : ThreadStatus × List String × Option String :=
  (e.status, e.returnValues, e.error?)

/-- What is to be kept of an end. -/
def ThreadOutcome.result : ThreadOutcome → ThreadStatus × List String × Option String
  | .exited values => (.exited, values, none)
  | .errored fault => (.errored, [], some fault.detail)
  | .stopped => (.exited, [], none)

theorem ThreadOutcome.result_close {e : ProcessEntry} (h : e.IsFresh) (outcome : ThreadOutcome)
    (now : Millis) : (outcome.close now e).result = outcome.result := by
  have hvalues := h.returnValues
  have herror := h.error
  cases outcome with
  | exited values => exact congrArg (ThreadStatus.exited, values, ·) herror
  | errored fault => exact congrArg (ThreadStatus.errored, ·, some fault.detail) hvalues
  | stopped => exact congrArg (ThreadStatus.exited, ([] : List String), ·) herror

/-! ## The news of a script -/

section News

variable {p : Pid}

/-- The news about others says nothing of a script. -/
theorem reportsOf_newsAbout (p : Pid) (news : List StatusEvent) :
    reportsOf p (newsAbout p news) = reportsOf p news := by
  unfold reportsOf newsAbout
  rw [List.filterMap_filter]
  refine congrArg (List.filterMap · news) (funext fun event => ?_)
  cases event with
  | thread q name report =>
    show (if (some q == some p) = true then if q = p then some report else none else none) =
      if q = p then some report else none
    by_cases hq : q = p
    · rw [if_pos (beq_iff_eq.mpr (congrArg some hq))]
    · rw [if_neg hq, ite_self]
  | refused e => exact ite_self _
  | notice text => exact ite_self _

theorem outputsOf_append (p : Pid) (news news' : List StatusEvent) :
    outputsOf p (news ++ news') = outputsOf p news ++ outputsOf p news' := by
  unfold outputsOf
  rw [reportsOf_append, List.filterMap_append]

theorem endsOf_append (p : Pid) (news news' : List StatusEvent) :
    endsOf p (news ++ news') = endsOf p news ++ endsOf p news' := by
  unfold endsOf
  rw [reportsOf_append, List.filter_append]

/-- One more event is no output. -/
theorem outputsOf_concat {event : StatusEvent} (h : outputsOf p [event] = [])
    (taken news : List StatusEvent) :
    outputsOf p (taken ++ (news ++ [event])) = outputsOf p (taken ++ news) := by
  rw [← List.append_assoc, outputsOf_append, h, List.append_nil]

/-- One more event brings the end that it tells of. -/
theorem endsOf_concat (taken news : List StatusEvent) (event : StatusEvent) :
    endsOf p (taken ++ (news ++ [event])) = endsOf p (taken ++ news) ++ endsOf p [event] := by
  rw [← List.append_assoc, endsOf_append]

theorem outputsOf_newsAbout (p : Pid) (news : List StatusEvent) :
    outputsOf p (newsAbout p news) = outputsOf p news := by
  unfold outputsOf
  rw [reportsOf_newsAbout]

theorem endsOf_newsAbout (p : Pid) (news : List StatusEvent) :
    endsOf p (newsAbout p news) = endsOf p news := by
  unfold endsOf
  rw [reportsOf_newsAbout]

/-- A report of another sort is neither output nor an end. -/
theorem silent_report (p : Pid) (name : String) (report : ThreadReport)
    (houtput : report.output? = none) (hend : report.isEnd = false) :
    outputsOf p [.thread p name report] = [] ∧ endsOf p [.thread p name report] = [] := by
  have hreports : reportsOf p [.thread p name report] = [report] :=
    (reportsOf_thread p p name [report]).trans (if_pos rfl)
  unfold outputsOf endsOf
  rw [hreports]
  exact ⟨List.filterMap_cons_none houtput, List.filter_cons_of_neg (Bool.eq_false_iff.mp hend)⟩

/-- The end of a script is no output. -/
theorem end_report (p : Pid) (name : String) {outcome : ThreadOutcome}
    (hown : outcome ≠ .stopped) :
    outputsOf p [.thread p name outcome.report] = [] ∧
      endsOf p [.thread p name outcome.report] = [outcome.report] := by
  have hreports : reportsOf p [.thread p name outcome.report] = [outcome.report] :=
    (reportsOf_thread p p name [outcome.report]).trans (if_pos rfl)
  unfold outputsOf endsOf
  rw [hreports]
  cases outcome with
  | stopped => exact absurd rfl hown
  | exited values => exact ⟨rfl, rfl⟩
  | errored fault => exact ⟨rfl, rfl⟩

/-- Talk tells of no end. -/
theorem endsOf_talk (p : Pid) (name : String) {talk : List ThreadReport}
    (htalk : ∀ r ∈ talk, r.isTalk = true) : endsOf p (talk.map (.thread p name)) = [] := by
  unfold endsOf
  rw [reportsOf_thread, if_pos rfl, List.filter_eq_nil_iff]
  intro r hr
  have hsort := htalk r hr
  cases r with
  | output | callbackFaulted => exact Bool.false_ne_true
  | _ => exact absurd hsort nofun

end News

/-! ## How far a script is -/

/-- What a script prints in so many steps. -/
def Walk.texts (w : Walk L) (k : Nat) : List String :=
  outputsOf w.caller.pid (w.after k).status

/-- **How far a script is on its way**, if some news has been taken and this is what a scheduler is
to it: it has made so many steps and ended with the last one or not, and all that is known of it
tells of these steps. -/
structure Progress (w : Walk L) (k : Nat) (outcome? : Option ThreadOutcome)
    (taken : List StatusEvent) (v : View L) : Prop where
  stands : w.Stands k outcome?
  texts : outputsOf w.caller.pid (taken ++ v.news) = w.texts k
  ends : endsOf w.caller.pid (taken ++ v.news) = (outcome?.map ThreadOutcome.report).toList
  thread : ∀ t ∈ v.thread?, w.Follows k t ∧
    t.script? = if outcome?.isSome then none else some w.script
  /-- As long as it goes on, nothing is kept in its entry. -/
  fresh : outcome? = none → v.thread?.isSome = true → ∃ e ∈ v.listed?, e.IsFresh
  /-- Behind its end, the entry keeps the end. -/
  result : ∀ outcome ∈ outcome?, ∀ e ∈ v.listed?, e.result = outcome.result
  /-- An entry that is kept for good is there. -/
  kept : v.options.retention? = none → outcome?.isSome = true → v.listed?.isSome = true

namespace Progress

variable {w : Walk L} {k : Nat} {outcome? : Option ThreadOutcome} {taken : List StatusEvent}
  {v v' : View L} {t : Thread L} (hp : Progress w k outcome? taken v)

include hp

/-- A script that is serviced, paused or stopped goes on. -/
theorem goes_on (hthread : v.thread? = some t) (hactive : t.isActive = true) : outcome? = none := by
  have hscript := (hp.thread t hthread).2
  have hgoes := Thread.not_terminated_of_active hactive
  unfold Thread.isTerminated at hgoes
  cases outcome? with
  | none => rfl
  | some outcome =>
    rw [hscript] at hgoes
    exact absurd hgoes nofun

/-- A report of another sort on a script that goes on: nothing of it changes but its state. -/
theorem tell {t' : Thread L} {name : String} {report : ThreadReport} (hgoes : outcome? = none)
    (hthread : v.thread? = some t) (hthread' : v'.thread? = some t')
    (hsame : t'.caller w.caller.now = t.caller w.caller.now ∧ t'.memory = t.memory ∧
      t'.events = t.events ∧ t'.script? = t.script?)
    (hnews : v'.news = v.news ++ [.thread w.caller.pid name report])
    (hsort : report.output? = none ∧ report.isEnd = false)
    (hlisted : ∀ e ∈ v.listed?, e.IsFresh → ∃ e' ∈ v'.listed?, e'.IsFresh) :
    Progress w k outcome? taken v' := by
  subst hgoes
  obtain ⟨hcaller, hmemory, hevents, hscript⟩ := hsame
  obtain ⟨hfollows, hgoes⟩ := hp.thread t hthread
  obtain ⟨houtputs, hends⟩ := silent_report w.caller.pid name report hsort.1 hsort.2
  refine ⟨hp.stands, ?_, ?_, ?_, ?_, nofun, fun _ hover => absurd hover nofun⟩
  · rw [hnews, outputsOf_concat houtputs, hp.texts]
  · rw [hnews, endsOf_concat, hp.ends, hends, List.append_nil]
  · intro t'' ht''
    obtain rfl := Option.some.inj (hthread'.symm.trans ht'')
    exact ⟨hfollows.congr hcaller hmemory hevents, hscript.trans hgoes⟩
  · intro _ _
    obtain ⟨e, he, hfresh⟩ := hp.fresh rfl (Option.isSome_iff_exists.mpr ⟨t, hthread⟩)
    exact hlisted e he hfresh

theorem abandon (hpid : v.pid = w.caller.pid) (hthread : v.thread? = some t)
    (hactive : t.isActive = true) : Progress w k outcome? taken v.abandon := by
  rw [View.abandon_eq hthread, hpid]
  exact hp.tell (hp.goes_on hthread hactive) hthread rfl ⟨rfl, rfl, rfl, rfl⟩ rfl ⟨rfl, rfl⟩
    fun e he hfresh => ⟨e, he, hfresh⟩

theorem changeState (hpid : v.pid = w.caller.pid) (hthread : v.thread? = some t)
    (hactive : t.isActive = true)
    (change : ExecutionState L.Condition → ExecutionState L.Condition) :
    Progress w k outcome? taken (v.changeState change) := by
  rw [View.changeState_eq hthread, hpid]
  refine hp.tell (hp.goes_on hthread hactive) hthread rfl ⟨rfl, rfl, rfl, rfl⟩ rfl ?_ ?_
  · split <;> exact ⟨rfl, rfl⟩
  · intro e he hfresh
    refine ⟨{ e with status := (change t.state).status }, ?_, hfresh.live, hfresh.returnValues,
      hfresh.error⟩
    exact Option.map_eq_some_iff.mpr ⟨e, he, rfl⟩

/-- A collection leaves the entry alone as long as the script goes on. -/
theorem collect {retention : Millis} (hdue : v.options.retention? = some retention)
    (now : Millis) : Progress w k outcome? taken (v.collect now retention) := by
  refine ⟨hp.stands, hp.texts, hp.ends, hp.thread, ?_, ?_,
    fun hnone _ => absurd (hnone.symm.trans hdue) nofun⟩
  · intro hgoes hthread
    obtain ⟨e, he, hfresh⟩ := hp.fresh hgoes hthread
    refine ⟨e, Option.filter_eq_some_iff.mpr ⟨he, ?_⟩, hfresh⟩
    have hlive := hfresh.live
    unfold ProcessEntry.isLive at hlive
    unfold ProcessEntry.isExpired
    rw [Option.isNone_iff_eq_none.mp hlive, Bool.and_false]
    rfl
  · intro outcome ho e he
    exact hp.result outcome ho e (Option.filter_eq_some_iff.mp he).1

/-- The host takes the news. -/
theorem drain : Progress w k outcome? (taken ++ v.news) { v with news := [] } :=
  ⟨hp.stands, (congrArg (outputsOf w.caller.pid) (List.append_nil _)).trans hp.texts,
    (congrArg (endsOf w.caller.pid) (List.append_nil _)).trans hp.ends, hp.thread, hp.fresh,
    hp.result, hp.kept⟩

/-- Where there is no thread, the entry of a script that has not ended is of no matter. -/
theorem of_gone (hthread : v'.thread? = none) (hnews : v'.news = v.news)
    (hoptions : v'.options = v.options)
    (hlisted : outcome?.isSome = true → v'.listed? = v.listed?) :
    Progress w k outcome? taken v' := by
  refine ⟨hp.stands, hnews ▸ hp.texts, hnews ▸ hp.ends, ?_, ?_, fun outcome ho e he => ?_,
    fun hnone hover => ?_⟩
  · intro t ht
    exact absurd (hthread.symm.trans ht) nofun
  · intro _ hsome
    rw [hthread] at hsome
    exact absurd hsome nofun
  · rw [hlisted (Option.isSome_iff_exists.mpr ⟨outcome, ho⟩)] at he
    exact hp.result outcome ho e he
  · rw [hlisted hover]
    exact hp.kept (hoptions ▸ hnone) hover

/-- A removed thread has ended, or it was stopped on its way. -/
theorem reap (hpid : v.pid = w.caller.pid) (hthread : v.thread? = some t) (now : Millis) :
    Progress w k outcome? taken (v.reap now) := by
  have hscript := (hp.thread t hthread).2
  cases outcome? with
  | some outcome =>
    have hended : t.isTerminated = true := congrArg Option.isNone hscript
    rw [View.reap_eq hthread, if_pos hended]
    exact hp.of_gone rfl rfl rfl fun _ => rfl
  | none =>
    have hgoes : t.isTerminated = false := congrArg Option.isNone hscript
    rw [View.reap_eq hthread, if_neg (Bool.eq_false_iff.mp hgoes)]
    unfold View.close
    split
    · exact hp.of_gone rfl rfl rfl fun _ => rfl
    · rename_i e he
      obtain ⟨houtputs, hends⟩ := silent_report w.caller.pid e.name ThreadOutcome.stopped.report
        rfl rfl
      refine ⟨hp.stands, ?_, ?_, fun t ht => absurd ht nofun, fun _ hsome => absurd hsome nofun,
        nofun, fun _ hover => absurd hover nofun⟩
      · show outputsOf w.caller.pid (taken ++ (v.news ++ [_])) = _
        rw [hpid, outputsOf_concat houtputs, hp.texts]
      · show endsOf w.caller.pid (taken ++ (v.news ++ [_])) = _
        rw [hpid, endsOf_concat, hp.ends, hends, List.append_nil]

/-- What is recorded of a service that takes a script further on its way, tells of that. -/
theorem record {a : Activity L Thread.ServiceOutcome} {name : String} {talk : List ThreadReport}
    (hgoes : outcome? = none) (hpid : v.pid = w.caller.pid) (hthread : v.thread?.isSome = true)
    (hcarries : w.Carries k a) (htalk : ∀ r ∈ talk, r.isTalk = true)
    (hsaid : a.status = talk.map (.thread w.caller.pid name)) (now : Millis) :
    ∃ k', Progress w k' a.value.end? taken (({ v with
      thread? := some a.thread
      news := v.news ++ a.status } : View L).record now a.value) := by
  subst hgoes
  obtain ⟨⟨k', hstands, hfollows, hadds⟩, hscript⟩ := hcarries
  have htexts : outputsOf w.caller.pid (taken ++ (v.news ++ a.status)) = w.texts k' := by
    rw [← List.append_assoc, outputsOf_append, hp.texts]
    unfold Walk.texts
    rw [hadds, outputsOf_append]
  have hends : endsOf w.caller.pid (taken ++ (v.news ++ a.status)) = [] := by
    rw [← List.append_assoc, endsOf_append, hp.ends, hsaid, endsOf_talk _ _ htalk]
    rfl
  have hthread' : ∀ t ∈ some a.thread, w.Follows k' t ∧
      t.script? = if a.value.end?.isSome then none else some w.script := by
    rintro t ⟨⟩
    exact ⟨hfollows, hscript⟩
  obtain ⟨e, he, hfresh⟩ := hp.fresh rfl hthread
  refine ⟨k', ?_⟩
  unfold View.record
  cases hend : a.value.end? with
  | none =>
    rw [hend] at hstands hthread'
    exact ⟨hstands, htexts, hends, hthread', fun _ _ => ⟨e, he, hfresh⟩,
      fun _ hover => absurd hover (Option.not_mem_none _),
      fun _ hover => absurd hover Bool.false_ne_true⟩
  | some outcome =>
    rw [hend] at hstands hthread'
    obtain ⟨houtputs, hlast⟩ := end_report w.caller.pid e.name hstands.ne_stopped
    have he' : v.listed? = some e := he
    simp only [View.close, he']
    refine ⟨hstands, ?_, ?_, hthread', fun hgoes => absurd hgoes (Option.some_ne_none _), ?_,
      fun _ _ => rfl⟩
    · show outputsOf w.caller.pid (taken ++ ((v.news ++ a.status) ++ [_])) = _
      rw [hpid, outputsOf_concat houtputs, htexts]
    · show endsOf w.caller.pid (taken ++ ((v.news ++ a.status) ++ [_])) = _
      rw [hpid, endsOf_concat, hends, hlast]
      rfl
    · rintro _ ⟨⟩ _ ⟨⟩
      exact outcome.result_close hfresh now

/-- **A service takes a script further on its way.** -/
theorem serve (h : L.IsSteady) (hpid : v.pid = w.caller.pid) (hthread : v.thread? = some t)
    (hactive : t.isActive = true) (now : Millis) (world : L.World) :
    ∃ k' outcome?', Progress w k' outcome?' taken (v.serve now world) := by
  have hgoes := hp.goes_on hthread hactive
  obtain ⟨hfollows, hscript⟩ := hp.thread t hthread
  have hstands := hp.stands
  rw [hgoes] at hstands hscript
  have hcarries : w.Carries k (v.activityOf now world t) :=
    Walk.carries_service h hstands.open hfollows hactive hscript _ _ now world
  obtain ⟨talk, htalk, hsaid⟩ := (Thread.stage_service hactive v.options.turbo
    (v.options.dispatch == .onResume) now world).talk
  have hsame : t.pid = w.caller.pid := congrArg Caller.pid hfollows.caller
  rw [hsame] at hsaid
  obtain ⟨k', hrecorded⟩ := hp.record hgoes hpid (Option.isSome_iff_exists.mpr ⟨t, hthread⟩)
    hcarries htalk hsaid now
  rw [View.serve_eq hthread]
  exact ⟨k', _, hrecorded⟩

end Progress

/-! ## Moves -/

section Steady

variable (h : L.IsSteady) {w : Walk L} {k : Nat} {outcome? : Option ThreadOutcome}
  {taken : List StatusEvent} {s s' : Scheduler L}

include h

/-- **A calm move takes a script further on its way**, or leaves it where it is. -/
theorem Progress.move (hp : Progress w k outcome? taken (s.view w.caller.pid)) {m : Move L}
    (hfits : m.Fits s) (hcalm : m.IsCalm) (now : Millis) :
    ∃ k' outcome?', Progress w k' outcome?' (taken ++ newsAbout w.caller.pid (m.taken s))
      ((m.apply now s).view w.caller.pid) := by
  rw [Scheduler.view_apply hfits]
  have hquiet : ∀ {k' : Nat} {outcome?' : Option ThreadOutcome} {v : View L},
      Progress w k' outcome?' taken v → ∃ k' outcome?',
        Progress w k' outcome?' (taken ++ newsAbout w.caller.pid []) v :=
    fun hp => ⟨_, _, (List.append_nil taken).symm ▸ hp⟩
  cases m with
  | enroll | forget | feed => exact absurd hcalm id
  | drain => exact ⟨k, outcome?, hp.drain⟩
  | serve pid =>
    simp only [View.behind]
    split
    · rename_i hpid
      obtain ⟨t, hfind, hactive⟩ := hfits
      obtain rfl : w.caller.pid = pid := hpid
      obtain ⟨k', outcome?', hp'⟩ := hp.serve h rfl hfind hactive now s.world
      exact hquiet hp'
    · exact hquiet hp
  | mark pid =>
    simp only [View.behind]
    split
    · rename_i hpid
      obtain ⟨t, hfind, hactive⟩ := hfits
      obtain rfl : w.caller.pid = pid := hpid
      exact hquiet (hp.abandon rfl hfind hactive)
    · exact hquiet hp
  | pause pid | resume pid =>
    simp only [View.behind]
    split
    · rename_i hpid
      obtain ⟨t, hfind, hactive, -⟩ := hfits
      obtain rfl : w.caller.pid = pid := hpid
      exact hquiet (hp.changeState rfl hfind hactive _)
    · exact hquiet hp
  | reap pid =>
    simp only [View.behind]
    split
    · rename_i hpid
      obtain ⟨t, hfind, -⟩ := hfits
      obtain rfl : w.caller.pid = pid := hpid
      exact hquiet (hp.reap rfl hfind now)
    · exact hquiet hp
  | collect retention => exact hquiet (hp.collect hfits now)
  | setTurbo turbo =>
    exact hquiet ⟨hp.stands, hp.texts, hp.ends, hp.thread, hp.fresh, hp.result, hp.kept⟩
  | refuse | outside => exact hquiet hp

/-- **Calm moves take a script further on its way**, and all that is known of it tells of the steps
that it has made. -/
theorem Path.progress {moves : List (Millis × Move L)} (hpath : Path s moves s')
    (hcalm : ∀ x ∈ moves, x.2.IsCalm)
    (hp : Progress w k outcome? (newsAbout w.caller.pid taken) (s.view w.caller.pid)) :
    ∃ k' outcome?' taken', taken ++ told moves s = taken' ++ s'.status ∧
      Progress w k' outcome?' (newsAbout w.caller.pid taken') (s'.view w.caller.pid) := by
  induction hpath generalizing k outcome? taken with
  | nil => exact ⟨k, outcome?, taken, rfl, hp⟩
  | @cons s s' m moves now hfits hrest ih =>
    obtain ⟨hfirst, hcalm⟩ := List.forall_mem_cons.mp hcalm
    obtain ⟨k', outcome?', hp'⟩ := hp.move h hfits hfirst now
    rw [← newsAbout_append] at hp'
    obtain ⟨k'', outcome?'', taken', htold, hlast⟩ := ih hcalm hp'
    exact ⟨k'', outcome?'', taken', (List.append_assoc _ _ _).symm.trans htold, hlast⟩

end Steady

/-! ## Schedules -/

/-- **A run of a new scheduler with one script**: before its start and behind it the host lets time
pass, sets the allowance, stops, pauses and resumes, takes the news, collects entries and changes
the files, as it likes. -/
structure Schedule (L : Language) where
  options : SchedulerOptions
  library : ScriptLibrary
  searchPath : List ScriptPath
  world : L.World
  created : Millis
  clock : Clock
  before : List (Millis × Operation L)
  time : Millis
  call : StartCall L
  after : List (Millis × Operation L)
  calm_before : ∀ x ∈ before, x.2.IsCalm
  calm_after : ∀ x ∈ after, x.2.IsCalm

namespace Schedule

/-- The new scheduler. -/
def origin (S : Schedule L) : Scheduler L :=
  .create S.options S.library S.searchPath S.world S.created S.clock

/-- What the host does. -/
def operations (S : Schedule L) : List (Millis × Operation L) :=
  S.before ++ (S.time, S.call.operation) :: S.after

/-- The scheduler when the script is started. -/
def ready (S : Schedule L) : Scheduler L := performAll S.before S.origin

/-- The scheduler at the end. -/
def last (S : Schedule L) : Scheduler L := performAll S.operations S.origin

/-- All news. -/
def news (S : Schedule L) : List StatusEvent := newsOf S.operations S.origin

/-- The texts that the script printed. -/
def outputs (S : Schedule L) : List String := outputsOf 1 S.news

/-- The report that the script ended by itself, if it did. -/
def ends (S : Schedule L) : List ThreadReport := endsOf 1 S.news

/-- The schedule is one of a script with a name and arguments. -/
structure Plays (S : Schedule L) (script : L.Script) (name : String) (args : List String) :
    Prop where
  script : S.call.script S.ready = .ok script
  name : S.call.name = name
  args : S.call.args = args

/-- What the entry of the script keeps of its end, unless it was collected; an entry that is kept
for good is there. -/
structure Keeps (S : Schedule L) (result : ThreadStatus × List String × Option String) : Prop where
  result : ∀ e ∈ S.last.table.find? 1, e.result = result
  there : S.options.retention? = none → (S.last.table.find? 1).isSome = true

theorem retention_last (S : Schedule L) : S.last.options.retention? = S.options.retention? :=
  (path_history S.operations S.origin).retention_eq

end Schedule

/-- What the host takes in a row of operations, and what comes behind it. -/
theorem exists_taken (ops : List (Millis × Operation L)) (s : Scheduler L) :
    ∃ taken, ∀ ops', newsOf (ops ++ ops') s = taken ++ newsOf ops' (performAll ops s) := by
  induction ops generalizing s with
  | nil => exact ⟨[], fun _ => rfl⟩
  | cons x ops ih =>
    obtain ⟨taken, htaken⟩ := ih (x.2.perform x.1 s)
    refine ⟨x.2.taken s ++ taken, fun ops' => ?_⟩
    show x.2.taken s ++ newsOf (ops ++ ops') (x.2.perform x.1 s) = _
    rw [htaken, List.append_assoc]
    rfl

section Transparent

variable {tame : L.Script → Prop} (h : L.IsSteady) (hcalm : L.IsInsular Request.IsCalm tame)
  {w : Walk L} {S : Schedule L} {name : String} {args : List String} {taken : List StatusEvent}
  {s : Scheduler L}

/-- Nothing is known of a script before its start. -/
theorem Progress.unborn (hthread : s.threads.find? w.caller.pid = none)
    (hnews : reportsOf w.caller.pid (taken ++ s.status) = []) :
    Progress w 0 none (newsAbout w.caller.pid taken) (s.view w.caller.pid) := by
  have hsame : newsAbout w.caller.pid taken ++ (s.view w.caller.pid).news =
      newsAbout w.caller.pid (taken ++ s.status) := (newsAbout_append _ _ _).symm
  refine ⟨.going fun i hi => absurd hi (Nat.not_lt_zero i), ?_, ?_, ?_, ?_, nofun,
    fun _ hover => absurd hover nofun⟩
  · rw [hsame, outputsOf_newsAbout]
    unfold outputsOf
    rw [hnews]
    rfl
  · rw [hsame, endsOf_newsAbout]
    unfold endsOf
    rw [hnews]
    rfl
  · intro t ht
    exact absurd (hthread.symm.trans ht) nofun
  · intro _ hsome
    rw [show (s.view w.caller.pid).thread? = none from hthread] at hsome
    exact absurd hsome nofun

/-- The entry and the thread of a script that was enrolled: it is to begin. -/
theorem Progress.enroll {v : View L} {path : String}
    (hp : Progress w 0 none taken v) (hpid : v.pid = w.caller.pid)
    (hcaller : (⟨v.pid, name, args, w.caller.now⟩ : Caller) = w.caller) (now : Millis) :
    Progress w 0 none taken (v.enroll now name path w.script args) := by
  obtain ⟨houtputs, hends⟩ := silent_report w.caller.pid name .started rfl rfl
  refine ⟨hp.stands, ?_, ?_, ?_, ?_, nofun, fun _ hover => absurd hover nofun⟩
  · show outputsOf w.caller.pid (taken ++ (v.news ++ [_])) = _
    rw [hpid, outputsOf_concat houtputs, hp.texts]
  · show endsOf w.caller.pid (taken ++ (v.news ++ [_])) = _
    rw [hpid, endsOf_concat, hp.ends, hends, List.append_nil]
  · rintro t ⟨⟩
    exact ⟨⟨hcaller, rfl, rfl, rfl⟩, rfl⟩
  · exact fun _ _ => ⟨.started v.pid name path args now, rfl, rfl, rfl, rfl⟩

include h hcalm

/-- The start of a script, and its first service. -/
theorem Progress.start (hp : Progress w 0 none (newsAbout w.caller.pid taken) (s.view w.caller.pid))
    (ht : s.IsTame tame) (hscript : tame w.script) (hthread : s.threads.find? w.caller.pid = none)
    {c : StartCall L} (hloads : c.script s = .ok w.script)
    (hcaller : (⟨s.nextPid, c.name, c.args, w.caller.now⟩ : Caller) = w.caller) (now : Millis) :
    (c.perform now s).2.IsTame tame ∧ ∃ k outcome?, Progress w k outcome?
      (newsAbout w.caller.pid taken) ((c.perform now s).2.view w.caller.pid) := by
  have hpid : s.nextPid = w.caller.pid := congrArg Caller.pid hcaller
  have hattempt := attempt now c s
  generalize c.perform now s = result at hattempt ⊢
  cases hattempt with
  | @exhausted path hout =>
    refine ⟨fun q => ?_, 0, none, ?_⟩
    · show ((s.forgetFinished path).view q).IsTame tame
      rw [Scheduler.view_forgetFinished]
      exact ht q
    · show Progress w 0 none _ ((s.forgetFinished path).view w.caller.pid)
      exact hp.of_gone hthread rfl rfl nofun
  | @launched path script hpath hfree hscript' hleft =>
    obtain rfl : w.script = script := Except.ok.inj (hloads.symm.trans hscript')
    have htame := Scheduler.isTame_enroll ht hscript now c.name path c.args
    have hmoves := Scheduler.calm_serviceMoves Scheduler.spawn Scheduler.spawnMoves hcalm htame now
      s.nextPid
    have hpath := Scheduler.path_service Scheduler.traced_spawn now s.nextPid
      ((s.forgetFinished path).enroll now c.name path w.script c.args)
    refine ⟨hpath.path.isTame hcalm hmoves htame, ?_⟩
    have hbegun : Progress w 0 none (newsAbout w.caller.pid taken)
        (((s.forgetFinished path).enroll now c.name path w.script c.args).view w.caller.pid) := by
      rw [Scheduler.view_enroll, if_pos hpid.symm]
      exact hp.enroll rfl (hpid ▸ hcaller) now
    obtain ⟨k, outcome?, taken', htold, hlast⟩ := hpath.path.progress h hmoves hbegun
    rw [hpath.told_eq] at htold
    obtain rfl : taken = taken' := List.append_cancel_right htold
    exact ⟨k, outcome?, hlast⟩
  | _ => exact ⟨ht, 0, none, hp⟩

omit h in
/-- Before the start of the script there is nothing of it. -/
theorem Schedule.unborn (S : Schedule L) :
    S.ready.nextPid = 1 ∧ S.ready.threads.find? 1 = none ∧ S.ready.IsTame tame ∧
      reportsOf 1 (newsOf S.before S.origin) = [] := by
  have htame : S.origin.IsTame tame := fun q t ht => absurd ht nofun
  have hmoves := calm_history hcalm htame S.calm_before
  have hpath : Path S.origin (history S.before S.origin) S.ready := path_history S.before S.origin
  have hnext : S.ready.nextPid = 1 := hpath.nextPid_of_calm hmoves
  have hacc : S.ready.Accord := hpath.accord
    (Scheduler.accord_create S.options S.library S.searchPath S.world S.created S.clock)
  have hstory :=
    story_of_create S.options S.library S.searchPath S.world S.created S.clock S.before 1
  have hfree : (S.ready.slot 1).isTaken = false :=
    decide_eq_false fun htaken => Nat.not_lt_of_le (Nat.le_of_eq hnext) htaken.2
  change Story (S.ready.slot 1) (reportsOf 1 (newsOf S.before S.origin)) at hstory
  refine ⟨hnext, hacc.no_thread (Nat.le_of_eq hnext), hpath.isTame hcalm hmoves htame, ?_⟩
  generalize S.ready.slot 1 = slot, reportsOf 1 (newsOf S.before S.origin) = reports
    at hstory hfree ⊢
  cases hstory with
  | untold => rfl
  | _ => exact absurd hfree nofun

/-- **Every schedule takes its script some steps on its way**, and tells of these steps. -/
theorem Schedule.progress (S : Schedule L) (hpid : w.caller.pid = 1)
    (hplays : S.Plays w.script w.caller.name w.caller.args) (hscript : tame w.script) :
    ∃ k outcome? taken, S.news = taken ++ S.last.status ∧
      Progress w k outcome? (newsAbout w.caller.pid taken) (S.last.view w.caller.pid) := by
  obtain ⟨hnext, hthread, htame, hsilent⟩ := S.unborn hcalm
  obtain ⟨taken, htaken⟩ := exists_taken S.before S.origin
  have hbefore : newsOf S.before S.origin = taken ++ S.ready.status := by
    have hnone := htaken []
    rwa [List.append_nil] at hnone
  have hnews : S.news = taken ++ newsOf S.after (S.call.perform S.time S.ready).2 := by
    refine (htaken _).trans (congrArg (taken ++ ·) ?_)
    show S.call.operation.taken S.ready ++
      newsOf S.after (S.call.operation.perform S.time S.ready) = _
    rw [S.call.taken_operation, S.call.perform_operation, List.nil_append]
  have hlast : S.last = performAll S.after (S.call.perform S.time S.ready).2 := by
    unfold Schedule.last Schedule.operations
    rw [performAll_append]
    show performAll S.after (S.call.operation.perform S.time S.ready) = _
    rw [S.call.perform_operation]
  have hunborn : Progress w 0 none (newsAbout w.caller.pid taken) (S.ready.view w.caller.pid) := by
    refine .unborn (hpid ▸ hthread) ?_
    rw [← hbefore, hpid]
    exact hsilent
  have hcaller : (⟨S.ready.nextPid, S.call.name, S.call.args, w.caller.now⟩ : Caller) =
      w.caller := by
    rw [hnext, hplays.name, hplays.args, ← hpid]
  obtain ⟨htame', k, outcome?, hstarted⟩ := hunborn.start h hcalm htame hscript (hpid ▸ hthread)
    hplays.script hcaller S.time
  obtain ⟨k', outcome?', taken', htold, hdone⟩ :=
    (path_history S.after (S.call.perform S.time S.ready).2).progress h
      (calm_history hcalm htame' S.calm_after) hstarted
  rw [← newsOf_eq_told] at htold
  rw [hnews, hlast]
  exact ⟨k', outcome?', taken', htold, hdone⟩

omit hcalm in
/-- More is printed on a longer way. -/
theorem Walk.texts_prefix {k k' : Nat} (hle : k ≤ k') : w.texts k <+: w.texts k' := by
  obtain ⟨rest, hrest⟩ := Walk.said_prefix h (w := w) hle
  unfold Walk.texts
  rw [← hrest, outputsOf_append]
  exact List.prefix_append _ _

/-- What a schedule of a script tells of it, by the steps that the script has made. -/
theorem Schedule.told (S : Schedule L) (hpid : w.caller.pid = 1)
    (hplays : S.Plays w.script w.caller.name w.caller.args) (hscript : tame w.script) :
    ∃ k outcome?, w.Stands k outcome? ∧ S.outputs = w.texts k ∧
      S.ends = (outcome?.map ThreadOutcome.report).toList ∧
      ∀ outcome ∈ outcome?, S.Keeps outcome.result := by
  obtain ⟨k, outcome?, taken, hnews, hp⟩ := S.progress h hcalm hpid hplays hscript
  have hheard : newsAbout w.caller.pid S.news =
      newsAbout w.caller.pid taken ++ (S.last.view w.caller.pid).news := by
    rw [hnews, newsAbout_append]
    rfl
  refine ⟨k, outcome?, hp.stands, ?_, ?_, fun outcome ho => ⟨fun e he => ?_, fun hkept => ?_⟩⟩
  · unfold Schedule.outputs
    rw [← hp.texts, ← hheard, outputsOf_newsAbout, hpid]
  · unfold Schedule.ends
    rw [← hp.ends, ← hheard, endsOf_newsAbout, hpid]
  · refine hp.result outcome ho e ?_
    rw [hpid]
    exact he
  · rw [← hpid]
    exact hp.kept (S.retention_last.trans hkept) (Option.isSome_iff_exists.mpr ⟨outcome, ho⟩)

end Transparent

/-- **The schedules of a script do not show**: it prints the same in both, as far as it comes, and
if it ends by itself in both, it ends in the same way. -/
structure Schedule.Transparent (S S' : Schedule L) : Prop where
  outputs : S.outputs <+: S'.outputs ∨ S'.outputs <+: S.outputs
  same_outputs : S.ends ≠ [] → S'.ends ≠ [] → S.outputs = S'.outputs
  same_end : S.ends ≠ [] → S'.ends ≠ [] → S.ends = S'.ends
  same_result : S.ends ≠ [] → S'.ends ≠ [] → ∃ result, S.Keeps result ∧ S'.Keeps result

/-- **Schedules of a steady script that starts no other one do not show.** -/
theorem transparent_of_steady {tame : L.Script → Prop} (h : L.IsSteady)
    (hcalm : L.IsInsular Request.IsCalm tame) {script : L.Script} (hscript : tame script)
    {name : String} {args : List String} {S S' : Schedule L} (hplays : S.Plays script name args)
    (hplays' : S'.Plays script name args) : S.Transparent S' := by
  have hwalk : ∀ T : Schedule L, T.Plays script name args → _ := fun T hT =>
    T.told (w := ⟨⟨1, name, args, 0⟩, script, S.world⟩) h hcalm rfl hT hscript
  obtain ⟨k, outcome?, hstands, houtputs, hends, hresult⟩ := hwalk S hplays
  obtain ⟨k', outcome?', hstands', houtputs', hends', hresult'⟩ := hwalk S' hplays'
  have hboth : S.ends ≠ [] → S'.ends ≠ [] → ∃ outcome, k = k' ∧ outcome? = some outcome ∧
      outcome?' = some outcome := by
    intro hover hover'
    cases outcome? with
    | none => exact absurd hends hover
    | some outcome =>
      cases outcome?' with
      | none => exact absurd hends' hover'
      | some outcome' =>
        obtain ⟨rfl, rfl⟩ := hstands.unique hstands'
        exact ⟨outcome, rfl, rfl, rfl⟩
  refine ⟨?_, fun hover hover' => ?_, fun hover hover' => ?_, fun hover hover' => ?_⟩
  · rw [houtputs, houtputs']
    exact (Nat.le_total k k').imp (Walk.texts_prefix h) (Walk.texts_prefix h)
  · obtain ⟨outcome, rfl, -, -⟩ := hboth hover hover'
    rw [houtputs, houtputs']
  · obtain ⟨outcome, -, rfl, rfl⟩ := hboth hover hover'
    rw [hends, hends']
  · obtain ⟨outcome, -, rfl, rfl⟩ := hboth hover hover'
    exact ⟨outcome.result, hresult outcome rfl, hresult' outcome rfl⟩

/-! ## Step scripts -/

namespace StepScript

/-- **Schedules of a step script without `run` do not show**, whatever the times of the heartbeats,
the allowances, the dispatch, the limit of the queue, the pauses and the stops are. -/
theorem transparent_of_single {W : Type} {engine : PatternEngine} (program : Program)
    (hsingle : program.IsSingle) (name : String) (args : List String)
    (S S' : Schedule (language W engine))
    (hplays : S.Plays program name args) (hplays' : S'.Plays program name args) :
    S.Transparent S' :=
  transparent_of_steady isSteady_language (isInsular_language fun _ h => Program.IsSingle.asks h)
    hsingle hplays hplays'

/-- A script that prints, waits, stops for a look at its queue, and returns. -/
def errand : Program :=
  ⟨[⟨1, .print "out"⟩, ⟨2, .delay "5" none⟩, ⟨3, .doEvents⟩, ⟨4, .print "back"⟩,
    ⟨5, .leave ["done"]⟩], []⟩

/-- The errand in single steps, with a pause. -/
def dawdle : Schedule (language Unit) where
  options := { turbo := 1 }
  library := ⟨⟨[], []⟩, "beat", none⟩
  searchPath := []
  world := ()
  created := 0
  clock := fun _ now => now + 1
  before := [(0, .tick)]
  time := 1
  call := .startScript "errand" "errand" errand []
  after := [(2, .tick), (3, .pause (.pid 1)), (20, .tick), (21, .pause (.pid 1)), (22, .tick),
    (23, .drainStatus), (24, .tick), (25, .tick)]
  calm_before := by decide
  calm_after := by decide

/-- The errand as fast as it can be. -/
def hurry : Schedule (language Unit) where
  options := { dispatch := .explicit }
  library := ⟨⟨[], []⟩, "beat", none⟩
  searchPath := []
  world := ()
  created := 0
  clock := .still
  before := []
  time := 1
  call := .startScript "errand" "quick errand" errand []
  after := [(6, .tick)]
  calm_before := by decide
  calm_after := by decide

/-- Both errands come to the same end. -/
theorem transparent_of_errand :
    errand.IsSingle ∧ dawdle.Plays errand "errand" [] ∧ hurry.Plays errand "errand" [] ∧
      dawdle.Transparent hurry ∧ dawdle.outputs = ["out", "back"] ∧
      dawdle.ends = [.exited ["done"]] ∧ hurry.ends = [.exited ["done"]] := by
  have hsingle : errand.IsSingle := by decide
  have hdawdle : dawdle.Plays errand "errand" [] := ⟨rfl, rfl, rfl⟩
  have hhurry : hurry.Plays errand "errand" [] := ⟨rfl, rfl, rfl⟩
  exact ⟨hsingle, hdawdle, hhurry,
    transparent_of_single errand hsingle "errand" [] dawdle hurry hdawdle hhurry,
    by decide +kernel, by decide +kernel, by decide +kernel⟩

end StepScript

end Heartbeat

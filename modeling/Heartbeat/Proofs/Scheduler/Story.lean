import Heartbeat.Proofs.Scheduler.Consistent

/-!
# What the host hears of a thread

All news of one identifier, in the order in which the host gets it, tells the story of its thread:
the start, then what the thread says and how it is paused and resumed, then at most one ending. How
far the story has come can be seen from the slot of the identifier.

* `ThreadReport.course`: the middle of a story, read by an automaton with one bit.
* `Story`: the reports that fit to a slot.
* `Fate.story`: every fate carries the story on.
* `story_of_create`: the news of every identifier is a story, in every run.
-/

namespace Heartbeat

variable {L : Language} {now : Millis}

namespace ThreadReport

/-- Reads the middle of a story, from a thread that is paused or not: output and callbacks that went
wrong are reported only of a thread that is not paused, and pauses and resumptions take turns. Gives
whether the thread is paused behind it, if it is one. -/
def course : Bool → List ThreadReport → Option Bool
  | silent, [] => some silent
  | false, .output _ :: rest => course false rest
  | false, .callbackFaulted _ _ :: rest => course false rest
  | false, .paused :: rest => course true rest
  | true, .resumed :: rest => course false rest
  | _, _ :: _ => none

/-- Whether a report tells that a script has ended, by itself or by an error. -/
def isEnd : ThreadReport → Bool
  | .exited _ | .faulted _ => true
  | _ => false

theorem course_append (silent : Bool) (reports more : List ThreadReport) :
    course silent (reports ++ more) =
      (course silent reports).bind fun silent => course silent more := by
  induction reports generalizing silent with
  | nil => cases silent <;> rfl
  | cons report reports ih =>
    cases silent <;> cases report <;> first | rfl | exact ih _

/-- Talk is the middle of a story as long as the thread is not paused. -/
theorem course_of_talk {talk : List ThreadReport} (h : ∀ r ∈ talk, r.isTalk = true) :
    course false talk = some false := by
  induction talk with
  | nil => rfl
  | cons report talk ih =>
    have hrest := ih fun r hr => h r (List.mem_cons_of_mem _ hr)
    have hreport := h report List.mem_cons_self
    cases report with
    | output text => exact hrest
    | callbackFaulted event fault => exact hrest
    | _ => exact absurd hreport nofun

end ThreadReport

open ThreadReport (course)

/-- **The reports that fit to a slot.** -/
inductive Story : Slot L → List ThreadReport → Prop
  /-- Nothing is told of an identifier that has not been handed out. -/
  | untold {slot : Slot L} (hfree : slot.isTaken = false) : Story slot []
  /-- The start, and the middle so far. -/
  | active {t : Thread L} {e? : Option ProcessEntry} {middle : List ThreadReport}
      (hactive : t.isActive = true) (hmiddle : course false middle = some t.state.isPaused) :
      Story ⟨some t, e?, true⟩ (.started :: middle)
  /-- The thread was marked for stopping, paused or not. -/
  | stopping {t : Thread L} {e? : Option ProcessEntry} {middle : List ThreadReport} {paused : Bool}
      (hmarked : t.abandoned = true) (hscript : t.isTerminated = false)
      (hmiddle : course false middle = some paused) :
      Story ⟨some t, e?, true⟩ (.started :: (middle ++ [.stopping]))
  /-- The thread was stopped and is gone. -/
  | stopped {e? : Option ProcessEntry} {middle : List ThreadReport} {paused : Bool}
      (hmiddle : course false middle = some paused) :
      Story ⟨none, e?, true⟩ (.started :: (middle ++ [.stopping, .stopped]))
  /-- The script has ended; the thread may be gone or not. -/
  | ended {t? : Option (Thread L)} {e? : Option ProcessEntry} {middle : List ThreadReport}
      {last : ThreadReport} (hended : ∀ t, t? = some t → t.isTerminated = true)
      (hmiddle : course false middle = some false) (hlast : last.isEnd = true) :
      Story ⟨t?, e?, true⟩ (.started :: (middle ++ [last]))

namespace Story

variable {t : Thread L} {e? : Option ProcessEntry} {isTaken : Bool} {reports : List ThreadReport}

/-- The story of an active thread is open. -/
theorem of_active (h : Story ⟨some t, e?, isTaken⟩ reports)
    (hacc : Slot.Accord ⟨some t, e?, isTaken⟩) (hactive : t.isActive = true) :
    isTaken = true ∧ ∃ middle, reports = .started :: middle ∧
      course false middle = some t.state.isPaused := by
  obtain ⟨rfl, -⟩ := hacc.of_script (Thread.not_terminated_of_active hactive)
  refine ⟨rfl, ?_⟩
  cases h with
  | untold hfree => exact absurd hfree nofun
  | active _ hmiddle => exact ⟨_, rfl, hmiddle⟩
  | stopping hmarked _ _ =>
    rw [Thread.not_abandoned_of_active hactive] at hmarked
    exact absurd hmarked nofun
  | ended hended _ _ =>
    have hgoes := Thread.not_terminated_of_active hactive
    rw [hended t rfl] at hgoes
    exact absurd hgoes nofun

/-- What an active thread becomes without a report of its own. -/
theorem change {t' : Thread L} (h : Story ⟨some t, e?, isTaken⟩ reports)
    (hacc : Slot.Accord ⟨some t, e?, isTaken⟩) (hactive : t.isActive = true)
    (hactive' : t'.isActive = true) (hpaused : t'.state.isPaused = t.state.isPaused) :
    Story ⟨some t', e?, isTaken⟩ reports := by
  obtain ⟨rfl, middle, rfl, hmiddle⟩ := h.of_active hacc hactive
  exact .active hactive' (hmiddle.trans (congrArg some hpaused.symm))

end Story

/-- **Every fate carries the story on.** -/
theorem Fate.story {slot slot' : Slot L} {acts : List (Act L)} {past reports : List ThreadReport}
    (h : Fate now slot acts reports slot') (hacc : slot.Accord) (hstory : Story slot past) :
    Story slot' (past ++ reports) := by
  cases h with
  | idle =>
    rw [List.append_nil]
    exact hstory
  | born p name path args script queueLimit? =>
    cases hstory with
    | untold hfree => exact .active rfl rfl
  | rested turbo hactive hpaused =>
    rw [List.append_nil]
    exact hstory.change hacc hactive hactive rfl
  | @served t e isTaken turbo dispatchFirst world talk hactive hawake htalk =>
    obtain ⟨rfl, middle, rfl, hmiddle⟩ := hstory.of_active hacc hactive
    have hstage := Thread.stage_service hactive turbo dispatchFirst now world
    have hcourse : course false (middle ++ talk) = some false := by
      rw [ThreadReport.course_append, hmiddle, hawake]
      exact ThreadReport.course_of_talk htalk
    rcases Thread.service_closes hactive turbo dispatchFirst now world e with
      ⟨hscript, -, hclosing⟩ | ⟨hscript, outcome, hended, -, hclosing⟩
    · have hactive' : (t.service turbo dispatchFirst now world).thread.isActive = true := by
        unfold Thread.isActive
        rw [hscript, hstage.alike.abandoned, Thread.not_abandoned_of_active hactive]
        rfl
      rw [hclosing, List.append_nil]
      exact .active hactive' (hcourse.trans (congrArg some (hstage.paused.trans hawake).symm))
    · have hlast : outcome.report.isEnd = true := by
        cases outcome with
        | stopped => exact absurd rfl hended
        | exited values => rfl
        | errored fault => rfl
      rw [hclosing, List.cons_append, ← List.append_assoc]
      refine .ended (fun t' ht' => ?_) hcourse hlast
      rw [← Option.some.inj ht']
      exact hscript
  | heard line hactive hawake =>
    rw [List.append_nil, Thread.feed_of_awake hactive hawake]
    exact hstory.change hacc hactive hactive rfl
  | @paused t e isTaken hactive hawake =>
    obtain ⟨rfl, middle, rfl, hmiddle⟩ := hstory.of_active hacc hactive
    rw [List.cons_append]
    refine .active hactive ?_
    rw [ThreadReport.course_append, hmiddle, hawake, ExecutionState.isPaused_pause]
    rfl
  | @resumed t e isTaken hactive hpaused =>
    obtain ⟨rfl, middle, rfl, hmiddle⟩ := hstory.of_active hacc hactive
    rw [List.cons_append]
    refine .active hactive ?_
    rw [ThreadReport.course_append, hmiddle, hpaused, ExecutionState.isPaused_resume]
    rfl
  | marked hactive =>
    obtain ⟨rfl, middle, rfl, hmiddle⟩ := hstory.of_active hacc hactive
    have hscript := Thread.not_terminated_of_active hactive
    exact .stopping rfl hscript hmiddle
  | stopped hmarked hscript =>
    cases hstory with
    | untold hfree =>
      obtain ⟨htaken, -⟩ := hacc.of_script hscript
      exact absurd (hfree.symm.trans htaken) nofun
    | active hactive _ =>
      rw [Thread.not_abandoned_of_active hactive] at hmarked
      exact absurd hmarked nofun
    | stopping _ _ hmiddle =>
      rw [List.cons_append, List.append_assoc]
      exact .stopped hmiddle
    | ended hended _ _ =>
      rw [hended _ rfl] at hscript
      exact absurd hscript nofun
  | buried hended =>
    rw [List.append_nil]
    cases hstory with
    | untold hfree =>
      obtain ⟨htaken, -⟩ := hacc.of_ended hended
      exact absurd (hfree.symm.trans htaken) nofun
    | active hactive _ =>
      rw [Thread.not_terminated_of_active hactive] at hended
      exact absurd hended nofun
    | stopping _ hscript _ =>
      rw [hended] at hscript
      exact absurd hscript nofun
    | ended _ hmiddle hlast => exact .ended nofun hmiddle hlast
  | forgotten hclosed =>
    rw [List.append_nil]
    cases hstory with
    | untold hfree => exact .untold hfree
    | active hactive hmiddle => exact .active hactive hmiddle
    | stopping hmarked hscript hmiddle => exact .stopping hmarked hscript hmiddle
    | stopped hmiddle => exact .stopped hmiddle
    | ended hended hmiddle hlast => exact .ended hended hmiddle hlast

/-- A path carries the story of every identifier on. -/
theorem Path.story {s s' : Scheduler L} {moves : List (Millis × Move L)} (h : Path s moves s')
    (hacc : s.Accord) {p : Pid} (past : List StatusEvent)
    (hstory : Story (s.slot p) (reportsOf p (past ++ s.status))) :
    Story (s'.slot p) (reportsOf p (past ++ told moves s)) := by
  -- `past` is what the host has taken so far; it grows by a move in which the host takes the news.
  induction h generalizing past with
  | nil => exact hstory
  | @cons s s' m moves now hfits _ ih =>
    obtain ⟨news, hmove⟩ := Move.outcome hfits hacc now
    have hnext := (hmove.fates p).story (hacc.slots p) hstory
    rw [← reportsOf_append, List.append_assoc, ← hmove.adds, ← List.append_assoc] at hnext
    have hlast := ih (Move.accord hfits hacc now) _ hnext
    rw [List.append_assoc] at hlast
    exact hlast

/-- **The news of every identifier is a story**, in every run of a scheduler, whatever the host does
and whatever the scripts do: one start, the middle, and one ending at most. -/
theorem story_of_create (options : SchedulerOptions) (library : ScriptLibrary)
    (searchPath : List ScriptPath) (world : L.World) (start : Millis) (clock : Clock)
    (ops : List (Millis × Operation L)) (p : Pid) :
    let s₀ := Scheduler.create (L := L) options library searchPath world start clock
    Story ((performAll ops s₀).slot p) (reportsOf p (newsOf ops s₀)) := by
  intro s₀
  have hacc : s₀.Accord := Scheduler.accord_create options library searchPath world start clock
  have hfree : (s₀.slot p).isTaken = false :=
    congrArg Slot.isTaken (Scheduler.slot_create options library searchPath world start clock p)
  rw [newsOf_eq_told]
  exact (path_history ops s₀).story hacc [] (.untold hfree)

end Heartbeat

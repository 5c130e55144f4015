import Heartbeat.Playbook
import Heartbeat.Proofs.Scheduler.Readings
import Heartbeat.Proofs.Thread.Waiting

/-!
# Waiting in a run

A wait that a step enters lives in the state of its thread, through pauses and through whatever
other threads do, until it is over. This file carries the laws of waits from the life of a thread to
the runs of a scheduler, and says when a heartbeat resumes a thread that waits.

* `WaitLaw`: what holds of the waits of a thread in a run.
* `clock_deeds`: the deeds of a thread follow the clock, since it is serviced once at most in an
  operation.
* `Fate.broke`: a condition that breaks down closes the entry as an error.
* `mem_resumed`: a heartbeat reports a thread as resumed iff its own service says so.
* `wait_law_of_create`: the law holds in every run whose clock does not go back.
-/

namespace Heartbeat

variable {L : Language} {now : Millis}

/-- The state of a thread in a wait: it waits, or is paused and keeps the wait. -/
def ExecutionState.IsIn {κ : Type} (w : Wait κ) (state : ExecutionState κ) : Prop :=
  state = .delayed w ∨ state = .paused (some w)

/-- **The law of waits** of a thread, in the run of a row of operations from a state. -/
structure WaitLaw (p : Pid) (ops : List (Millis × Operation L)) (s₀ : Scheduler L) : Prop where
  /-- Every wait is honoured. -/
  honoured : ∀ before time millis condition? after,
    timeline p (history ops s₀) s₀ =
        before ++ (time, .did (.stepped (.wait millis condition?))) :: after →
      Life.Honoured ⟨Millis.after time millis, condition?⟩ after
  /-- Every look belongs to the wait that the last step before it entered. -/
  looked : ∀ before time c verdict after,
    timeline p (history ops s₀) s₀ = before ++ (time, .did (.looked c verdict)) :: after →
      ∃ earlier entered millis mid,
        before = earlier ++ (entered, .did (.stepped (.wait millis (some c)))) :: mid ∧
          ∀ x ∈ mid, x.2.isStep = false
  /-- At every moment at which nothing has ended a wait, the thread is in this very wait, however
  often it was paused and resumed. -/
  kept : ∀ n before time millis condition? mid,
    timeline p ((history ops s₀).take n) s₀ =
        before ++ (time, .did (.stepped (.wait millis condition?))) :: mid →
      (∀ x ∈ mid, x.2.keepsWait = true) →
        ∃ t, (replay ((history ops s₀).take n) s₀).threads.find? p = some t ∧
          t.isActive = true ∧ t.state.IsIn ⟨Millis.after time millis, condition?⟩
  /-- Behind the service in which a condition breaks down, the script has ended and its entry says
  why. -/
  broke : ∀ n now m c text?, (history ops s₀)[n]? = some (now, m) →
    .did (.looked c (.panicked text?)) ∈ m.acts now (replay ((history ops s₀).take n) s₀) p →
      ∃ t e, (replay ((history ops s₀).take (n + 1)) s₀).threads.find? p = some t ∧
        t.isTerminated = true ∧
        (replay ((history ops s₀).take (n + 1)) s₀).table.find? p = some e ∧
        e.status = .errored ∧ e.endTime? = some now ∧
        e.error? = some (Fault.ofCondition text?).detail
  /-- A service evaluates a condition iff the log has a look, with this verdict. A poll without a
  look leaves all but the state of its thread alone. -/
  polled : ∀ n time, (history ops s₀)[n]? = some (time, .serve p) →
    let s := replay ((history ops s₀).take n) s₀
    ∃ t, s.threads.find? p = some t ∧
      let first := t.opening s.options.turbo (s.options.dispatch == .onResume) time s.world
      first.thread.PollLaw time first.world ∧
        ∀ c verdict, .did (.looked c verdict) ∈ (Move.serve p).acts time s p ↔
          .looked c verdict ∈ first.thread.pollDeeds time first.world
  /-- A heartbeat behind the deadline that comes to the thread while it is in a wait and not paused
  resumes it iff, behind the callbacks of this service, the condition is absent, holds or breaks
  down. -/
  resumed : ∀ now earlier later, (performAll ops s₀).livePids = earlier ++ p :: later →
    ∀ before time millis condition? mid,
      timeline p (history ops s₀ ++
          Scheduler.serviceAllMoves now earlier (performAll ops s₀)) s₀ =
        before ++ (time, .did (.stepped (.wait millis condition?))) :: mid →
      (∀ x ∈ mid, x.2.keepsWait = true) → Millis.after time millis ≤ now →
        let s := (Scheduler.serviceAll now earlier (performAll ops s₀)).2
        ∃ t, s.threads.find? p = some t ∧ (t.state.isPaused = false →
          let first :=
            t.opening s.options.turbo (s.options.dispatch == .onResume) now s.world
          (p ∈ ((performAll ops s₀).tick now).1.resumed ↔
            ∀ c, condition? = some c →
              (L.evaluate c (first.thread.memory, first.world)).1 ≠ .known false))

/-! ## The clock -/

section Deeds

variable {s : Scheduler L} {p : Pid} {moves : List (Millis × Move L)}

/-- The code of a thread does something only in its services. -/
theorem Move.eq_serve_of_deed {m : Move L} {act : Act L} (hact : act ∈ m.acts now s p)
    (hdeed : act.isDeed = true) : m = .serve p := by
  have hsingle : ∀ {q : Pid} {other : Act L}, other.isDeed = false →
      act ∉ if p = q then [other] else [] := by
    intro q other hother hmem
    split at hmem
    · rw [List.mem_singleton.mp hmem, hother] at hdeed
      exact Bool.false_ne_true hdeed
    · exact List.not_mem_nil hmem
  cases m with
  | serve q =>
    by_cases hp : p = q
    · rw [hp]
    · simp only [acts, if_neg hp] at hact
      exact absurd hact List.not_mem_nil
  | feed line =>
    cases hfind : s.threads.find? p with
    | none =>
      simp only [acts, hfind] at hact
      exact absurd hact List.not_mem_nil
    | some t =>
      simp only [acts, hfind, List.mem_ite_nil_left, List.mem_singleton] at hact
      rw [hact.2] at hdeed
      exact absurd hdeed Bool.false_ne_true
  | enroll | mark | pause | resume | reap => exact absurd hact (hsingle rfl)
  | _ => exact absurd hact List.not_mem_nil

/-- A deed has the time of the service that it belongs to. -/
theorem serve_mem_of_deed {x : Millis × Act L} (h : x ∈ timeline p moves s)
    (hdeed : x.2.isDeed = true) : (x.1, .serve p) ∈ moves := by
  induction moves generalizing s with
  | nil => exact absurd h List.not_mem_nil
  | cons move moves ih =>
    rcases List.mem_append.mp h with h | h
    · obtain ⟨act, hact, rfl⟩ := List.mem_map.mp h
      obtain ⟨now, m⟩ := move
      obtain rfl := Move.eq_serve_of_deed hact hdeed
      exact List.mem_cons_self
    · exact List.mem_cons_of_mem _ (ih h)

/-- A thread that is serviced once at most is so at one time. -/
theorem Move.time_eq_of_served {time time' : Millis} (hnodup : (served moves).Nodup)
    (h : (time, .serve p) ∈ moves) (h' : (time', .serve p) ∈ moves) : time = time' := by
  have hmem : ∀ {moves : List (Millis × Move L)} {time : Millis}, (time, .serve p) ∈ moves →
      p ∈ served moves := fun h => List.mem_filterMap.mpr ⟨_, h, rfl⟩
  induction moves with
  | nil => exact absurd h List.not_mem_nil
  | cons x moves ih =>
    have hrest : (served moves).Nodup := hnodup.sublist ((List.sublist_cons_self _ _).filterMap _)
    rcases List.mem_cons.mp h with rfl | hlater
    · rcases List.mem_cons.mp h' with hsame | hlater'
      · exact (Prod.mk.inj hsame).1.symm
      · exact absurd (hmem hlater') (List.nodup_cons.mp hnodup).1
    · rcases List.mem_cons.mp h' with rfl | hlater'
      · exact absurd (hmem hlater) (List.nodup_cons.mp hnodup).1
      · exact ih hrest hlater hlater'

end Deeds

/-- **The deeds of a thread follow the clock**, if it does not go back: the thread is serviced once
at most in an operation, and all that it does in a service has one time. -/
theorem clock_deeds {ops : List (Millis × Operation L)} {s : Scheduler L} (hacc : s.Accord)
    (hclock : (clockReadings ops s).Pairwise (· ≤ ·)) (p : Pid) :
    ((timeline p (history ops s) s).filter (·.2.isDeed)).Pairwise (·.1 ≤ ·.1) := by
  induction ops generalizing s with
  | nil => exact .nil
  | cons op ops ih =>
    obtain ⟨now, op⟩ := op
    obtain ⟨-, hrest, hlater⟩ := List.pairwise_append.mp hclock
    have hpath := (path_perform now op s).1
    have hdeeds := ih (hpath.accord hacc) hrest
    show ((timeline p (op.moves now s ++ history ops (op.perform now s)) s).filter _).Pairwise _
    rw [timeline_append, hpath.replay_eq, List.filter_append]
    refine List.pairwise_append.mpr ⟨?_, hdeeds, fun x hx y hy => ?_⟩
    · refine List.pairwise_of_forall_mem_list fun x hx y hy => Nat.le_of_eq ?_
      obtain ⟨hx, hdeed⟩ := List.mem_filter.mp hx
      obtain ⟨hy, hdeed'⟩ := List.mem_filter.mp hy
      exact Move.time_eq_of_served (op.served_nodup hacc now) (serve_mem_of_deed hx hdeed)
        (serve_mem_of_deed hy hdeed')
    · obtain ⟨hx, hdeed⟩ := List.mem_filter.mp hx
      obtain ⟨hy, hdeed'⟩ := List.mem_filter.mp hy
      exact hlater x.1 (op.times now s _ (serve_mem_of_deed hx hdeed)) y.1
        (mem_clockReadings (serve_mem_of_deed hy hdeed'))

/-! ## Slots and fates -/

theorem Slot.thread_of_waits {slot : Slot L} {w : Wait L.Condition} (h : Life.Waits w slot.life) :
    ∃ t, slot.thread? = some t ∧ t.isActive = true ∧ t.state.IsIn w := by
  cases hlife : slot.life with
  | unborn =>
    rw [hlife] at h
    exact absurd h nofun
  | finished =>
    rw [hlife] at h
    exact absurd h nofun
  | awake state =>
    obtain ⟨t, ht, hactive, hstate⟩ := thread_of_awake hlife
    rw [hlife, ← hstate] at h
    refine ⟨t, ht, hactive, ?_⟩
    unfold ExecutionState.IsIn
    revert h
    cases t.state with
    | running => exact nofun
    | delayed wait =>
      intro h
      cases h
      exact .inl rfl
    | paused saved? =>
      intro h
      cases h
      exact .inr rfl

/-- **A condition that breaks down closes the entry as an error**, with what it left as the
reason. -/
theorem Fate.broke {slot slot' : Slot L} {acts : List (Act L)} {reports : List ThreadReport}
    {c : L.Condition} {text? : Option String} (h : Fate now slot acts reports slot')
    (hbroke : .did (.looked c (.panicked text?)) ∈ acts) :
    ∃ t e, slot'.thread? = some t ∧ t.isTerminated = true ∧ slot'.listed? = some e ∧
      e.status = .errored ∧ e.endTime? = some now ∧
      e.error? = some (Fault.ofCondition text?).detail := by
  cases h with
  | @served t e isTaken turbo dispatchFirst world talk hactive hawake htalk =>
    obtain ⟨deed, hdeed, hact⟩ := List.mem_map.mp hbroke
    rw [Act.did.inj hact] at hdeed
    have hvalue := Thread.value_of_broke hactive hdeed
    have hends := Thread.ends_service hactive turbo dispatchFirst now world
    rw [hvalue] at hends ⊢
    exact ⟨_, _, rfl, hends.1, rfl, rfl, rfl, rfl⟩
  | idle => exact absurd hbroke List.not_mem_nil
  | rested turbo hactive hpaused => exact absurd hbroke List.not_mem_nil
  | buried hended => exact absurd (List.mem_singleton.mp hbroke) nofun
  | forgotten hclosed => exact absurd hbroke List.not_mem_nil
  | born p name path args script queueLimit? => exact absurd (List.mem_singleton.mp hbroke) nofun
  | heard line hactive hawake => exact absurd (List.mem_singleton.mp hbroke) nofun
  | paused hactive hawake => exact absurd (List.mem_singleton.mp hbroke) nofun
  | resumed hactive hpaused => exact absurd (List.mem_singleton.mp hbroke) nofun
  | marked hactive => exact absurd (List.mem_singleton.mp hbroke) nofun
  | stopped hmarked hscript => exact absurd (List.mem_singleton.mp hbroke) nofun

/-! ## Heartbeats -/

namespace Scheduler

variable {s : Scheduler L} {p : Pid}

theorem resumed_sublist (now : Millis) (pids : List Pid) (s : Scheduler L) :
    (serviceAll now pids s).1.Sublist pids := by
  induction pids generalizing s with
  | nil => exact .slnil
  | cons pid pids ih =>
    have hrest := ih (service spawn now pid s).2
    unfold serviceAll
    simp only
    split
    · exact hrest.cons_cons pid
    · exact hrest.cons pid

theorem resumed_subset (now : Millis) (pids : List Pid) (s : Scheduler L) :
    (serviceAll now pids s).1 ⊆ pids :=
  (resumed_sublist now pids s).subset

theorem resumed_append (now : Millis) (pids pids' : List Pid) (s : Scheduler L) :
    (serviceAll now (pids ++ pids') s).1 =
      (serviceAll now pids s).1 ++ (serviceAll now pids' (serviceAll now pids s).2).1 := by
  induction pids generalizing s with
  | nil => rfl
  | cons pid pids ih =>
    simp only [List.cons_append, serviceAll, ih (service spawn now pid s).2]
    split <;> rfl

/-- A heartbeat reports a thread as resumed iff the service says so that it gets in its turn. -/
theorem mem_resumed {earlier later : List Pid} (hlive : s.livePids = earlier ++ p :: later) :
    p ∈ (s.tick now).1.resumed ↔
      (service spawn now p (serviceAll now earlier s).2).1 = true := by
  have hnodup : (earlier ++ p :: later).Nodup := hlive ▸ Roster.keys_nodup s.threads
  obtain ⟨-, hlater, hearlier⟩ := List.nodup_append.mp hnodup
  have hnot : p ∉ (serviceAll now earlier s).1 := fun hmem =>
    hearlier p (resumed_subset now earlier s hmem) p List.mem_cons_self rfl
  show p ∈ (serviceAll now s.livePids s).1 ↔ _
  rw [hlive, resumed_append, List.mem_append, or_iff_right hnot]
  have hrest : p ∉ (serviceAll now later (service spawn now p (serviceAll now earlier s).2).2).1 :=
    fun hmem => (List.nodup_cons.mp hlater).1 (resumed_subset now later _ hmem)
  show p ∈ (if (service spawn now p (serviceAll now earlier s).2).1 then p :: _ else _) ↔ _
  split
  · rename_i hresumed
    exact iff_of_true List.mem_cons_self hresumed
  · rename_i hresumed
    exact iff_of_false hrest hresumed

theorem service_fst {t : Thread L} (hfind : s.threads.find? p = some t)
    (hactive : t.isActive = true) (spawn : Spawn L) :
    (service spawn now p s).1 = true ↔ (s.activityOf now t).value ≠ .notEligible := by
  rw [service_of_active hfind hactive]
  exact bne_iff_ne

end Scheduler

/-- **The law of waits holds in every run whose clock does not go back**, at whichever reading,
whatever the host does and whatever the scripts do. -/
theorem wait_law_of_create (options : SchedulerOptions) (library : ScriptLibrary)
    (searchPath : List ScriptPath) (world : L.World) (start : Millis) (clock : Clock)
    (ops : List (Millis × Operation L))
    (hclock : (clockReadings ops
      (Scheduler.create (L := L) options library searchPath world start clock)).Pairwise (· ≤ ·))
    (p : Pid) :
    WaitLaw p ops (Scheduler.create (L := L) options library searchPath world start clock) := by
  have hacc := Scheduler.accord_create (L := L) options library searchPath world start clock
  have hunborn := Scheduler.life_create (L := L) options library searchPath world start clock p
  generalize Scheduler.create options library searchPath world start clock = s₀
    at hclock hacc hunborn ⊢
  have hpath : Path s₀ (history ops s₀) (performAll ops s₀) := path_history ops s₀
  have htaken : ∀ n, Path s₀ ((history ops s₀).take n) (replay ((history ops s₀).take n) s₀) := by
    intro n
    rw [← List.take_append_drop n (history ops s₀)] at hpath
    exact hpath.split.1
  refine ⟨?_, ?_, ?_, ?_, ?_, ?_⟩
  · intro before time millis condition? after hsplit
    have hrun := hpath.run hacc p
    have htimes := clock_deeds hacc hclock p
    rw [hsplit] at hrun htimes
    refine hrun.entered.honoured (htimes.sublist ?_)
    exact ((List.sublist_cons_self _ after).trans (List.sublist_append_right before _)).filter _
  · intro before time c verdict after hsplit
    have hrun := hpath.run hacc p
    rw [hsplit, hunborn] at hrun
    exact hrun.looked_origin
  · intro n before time millis condition? mid hsplit hkeeps
    have hrun := (htaken n).run hacc p
    rw [hsplit] at hrun
    exact Slot.thread_of_waits (hrun.entered.keeps .delayed hkeeps)
  · intro n now m c text? hmove hbroke
    have hnext := htaken (n + 1)
    rw [List.take_add_one, hmove] at hnext ⊢
    rw [replay_append]
    cases hnext.split.2 with
    | cons _ hfits _ =>
      obtain ⟨news, houtcome⟩ := Move.outcome hfits ((htaken n).accord hacc) now
      exact (houtcome.fates p).broke hbroke
  · intro n time hmove s
    have hnext := htaken (n + 1)
    rw [List.take_add_one, hmove] at hnext
    obtain ⟨t, hfind, hactive⟩ : Move.Fits s (.serve p) := by
      cases hnext.split.2 with
      | cons _ hfits _ => exact hfits
    obtain ⟨-, hawake⟩ := Thread.opening_state hactive s.options.turbo
      (s.options.dispatch == .onResume) time s.world
    refine ⟨t, hfind, Thread.poll_law hawake time _, fun c verdict => ?_⟩
    rw [← Thread.looked_mem_serviceDeeds]
    have hacts : (Move.serve p).acts time s p = (s.deedsOf time t).map .did := by
      simp [Move.acts, hfind]
    rw [hacts]
    refine ⟨fun h => ?_, List.mem_map_of_mem⟩
    obtain ⟨deed, hdeed, hact⟩ := List.mem_map.mp h
    rw [← Act.did.inj hact]
    exact hdeed
  · intro now earlier later hlive before time millis condition? mid hsplit hkeeps hdue
    -- the path goes on through the services before that of the thread, up to its turn
    have hserviced := hpath.append (Scheduler.path_serviceAll now earlier (performAll ops s₀)).path
    have hrun := hserviced.run hacc p
    rw [hsplit] at hrun
    obtain ⟨t, hfind, hactive, hstate⟩ := Slot.thread_of_waits (hrun.entered.keeps .delayed hkeeps)
    refine ⟨t, hfind, fun hawake => ?_⟩
    rcases hstate with hdelayed | hpaused
    · exact ((Scheduler.mem_resumed hlive).trans
        (Scheduler.service_fst hfind hactive Scheduler.spawn)).trans
          (Thread.resumed_iff hactive hdelayed hdue _ _)
    · have hasleep : t.state.isPaused = true := by rw [hpaused]; rfl
      exact absurd (hawake.symm.trans hasleep) Bool.false_ne_true

/-- A playbook that waits for a flag, at least five milliseconds, and is done. -/
def sleeper : Playbook := ⟨[⟨[], .wait 5 (some (.flag "go"))⟩, ⟨[], .done []⟩], false⟩

/-- A scheduler without files. -/
def sleeperStart : Scheduler Playbook.ensemble := .create {} ⟨⟨[], []⟩, "beat", none⟩ [] {} 0

/-- The sleeper is started, paused and resumed; its flag is set after a heartbeat in vain. -/
def sleeperOps : List (Millis × Operation Playbook.ensemble) :=
  [(0, .startScript "sleeper" "sleeper" (.playbook sleeper) []), (2, .pause (.pid 1)),
    (4, .pause (.pid 1)), (7, .tick), (8, .outside ⟨⟨[], []⟩, "beat", none⟩ { flags := ["go"] }),
    (9, .tick)]

/-- The wait of the sleeper is honoured by all that comes behind it. -/
theorem wait_law_of_sleeper :
    (clockReadings sleeperOps sleeperStart).Pairwise (· ≤ ·) ∧ WaitLaw 1 sleeperOps sleeperStart ∧
      Life.Honoured (L := Playbook.ensemble) ⟨5, some (.stage (.flag "go"))⟩
        [(2, .paused), (4, .resumed), (7, .did (.looked (.stage (.flag "go")) (.known false))),
          (9, .did (.looked (.stage (.flag "go")) (.known true))),
          (9, .did (.stepped (.done []))), (9, .reaped)] := by
  have hclock : (clockReadings sleeperOps sleeperStart).Pairwise (· ≤ ·) := by decide
  have hlaw : WaitLaw 1 sleeperOps sleeperStart := wait_law_of_create _ _ _ _ _ _ _ hclock 1
  exact ⟨hclock, hlaw, hlaw.honoured [(0, .started)] 0 5 _ _ rfl⟩

end Heartbeat

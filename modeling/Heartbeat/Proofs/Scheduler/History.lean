import Heartbeat.Proofs.Scheduler.Operation
import Heartbeat.Proofs.Scheduler.Outcome

/-!
# The operations make their moves

The moves that stand beside a function of the scheduler lead to the state that the function
computes, and each of them may be made when its turn comes. So what holds along every path holds
along every row of operations, in the middle of a heartbeat too.

* `path_each`: the same move made for many threads.
* `traced_spawn`: the starts that requests ask for, nested to any depth.
* `foldl_reap`: a sweep removes threads one by one.
* `path_history`: a row of operations is the path of its history.
-/

namespace Heartbeat

variable {L : Language}

/-- A path on which the host does not take the news. -/
structure QuietPath (s : Scheduler L) (moves : List (Millis × Move L)) (s' : Scheduler L) :
    Prop where
  path : Path s moves s'
  keeps : ∀ x ∈ moves, x.2.isDrain = false

namespace QuietPath

variable {now : Millis} {s s' s'' : Scheduler L} {moves moves' : List (Millis × Move L)}

theorem nil (s : Scheduler L) : QuietPath s [] s where
  path := .nil s
  keeps := fun _ hm => absurd hm List.not_mem_nil

theorem cons {m : Move L} (hfits : m.Fits s) (hkeeps : m.isDrain = false)
    (h : QuietPath (m.apply now s) moves s') : QuietPath s ((now, m) :: moves) s' where
  path := .cons now hfits h.path
  keeps := List.forall_mem_cons.mpr ⟨hkeeps, h.keeps⟩

theorem single {m : Move L} (hfits : m.Fits s) (hkeeps : m.isDrain = false) :
    QuietPath s [(now, m)] (m.apply now s) :=
  .cons hfits hkeeps (.nil _)

theorem append (h : QuietPath s moves s') (h' : QuietPath s' moves' s'') :
    QuietPath s (moves ++ moves') s'' where
  path := h.path.append h'.path
  keeps := List.forall_mem_append.mpr ⟨h.keeps, h'.keeps⟩

/-- What a request leads to is followed by its refusal, if it was not carried out. -/
theorem refused {α : Type} {result : Except RequestError α} (h : QuietPath s moves s')
    (hlast : replay (Scheduler.refusal now result) s' = s'') :
    QuietPath s (moves ++ Scheduler.refusal now result) s'' := by
  rw [← hlast]
  cases result with
  | ok a => exact h.append (.nil s')
  | error e => exact h.append (.single (m := .refuse e) trivial rfl)

theorem told_append (h : QuietPath s moves s') : told (moves ++ moves') s = told moves' s' := by
  rw [Heartbeat.told_append h.keeps, h.path.replay_eq]

/-- All news is left for the host. -/
theorem told_eq (h : QuietPath s moves s') : told moves s = s'.status := by
  rw [← List.append_nil moves, h.told_append]
  rfl

end QuietPath

namespace Scheduler

variable {s : Scheduler L} {now : Millis} {p q : Pid}

/-! ## The same move for many threads -/

theorem find?_abandon_of_ne (hp : p ≠ q) :
    (s.abandon q).threads.find? p = s.threads.find? p := by
  unfold abandon
  cases hq : s.threads.find? q with
  | none => rfl
  | some t =>
    have hpid : t.pid = q := Roster.key_of_find? hq
    exact Roster.find?_insert_of_ne fun h => hp (h.trans hpid)

theorem find?_abandon_self (s : Scheduler L) (p : Pid) :
    (s.abandon p).threads.find? p = (s.threads.find? p).map Thread.abandon := by
  unfold abandon
  cases hfind : s.threads.find? p with
  | none => exact hfind
  | some t =>
    obtain rfl : t.pid = p := Roster.key_of_find? hfind
    exact Roster.find?_insert_self s.threads t.abandon

theorem find?_changeState_of_ne (change : ExecutionState L.Condition → ExecutionState L.Condition)
    (hp : p ≠ q) : (s.changeState change q).threads.find? p = s.threads.find? p := by
  unfold changeState
  cases hq : s.threads.find? q with
  | none => rfl
  | some t =>
    have hpid : t.pid = q := Roster.key_of_find? hq
    exact Roster.find?_insert_of_ne fun h => hp (h.trans hpid)

theorem threads_recordOutcome (outcome : ThreadOutcome) :
    (s.recordOutcome q outcome now).threads = s.threads := by
  unfold recordOutcome
  cases s.table.find? q with
  | none => rfl
  | some e => cases outcome <;> rfl

theorem find?_reap_of_ne (hp : p ≠ q) :
    (s.reap now q).threads.find? p = s.threads.find? p := by
  have herase : (s.threads.erase q).find? p = s.threads.find? p :=
    (Roster.find?_erase _ _ _).trans (if_neg hp)
  unfold reap
  cases hq : s.threads.find? q with
  | none => rfl
  | some t =>
    simp only
    split
    · exact herase
    · rw [threads_recordOutcome]
      exact herase

/-- A move that concerns one thread, made for many: it may be made for each when its turn comes,
since the moves before do not touch it. -/
theorem path_each {f : Pid → Move L} {pids : List Pid}
    (hlocal : ∀ {s s' : Scheduler L} {p : Pid}, s'.threads.find? p = s.threads.find? p →
      (f p).Fits s → (f p).Fits s')
    (hothers : ∀ (s : Scheduler L) {p q : Pid}, p ≠ q →
      ((f q).apply now s).threads.find? p = s.threads.find? p)
    (hkeeps : ∀ p, (f p).isDrain = false) (hnodup : pids.Nodup)
    (hfits : ∀ p ∈ pids, (f p).Fits s) :
    QuietPath s ((pids.map f).map (now, ·)) (pids.foldl (fun s p => (f p).apply now s) s) := by
  induction pids generalizing s with
  | nil => exact .nil s
  | cons q pids ih =>
    rw [List.nodup_cons] at hnodup
    refine .cons (hfits q List.mem_cons_self) (hkeeps q) (ih hnodup.2 fun p hp => ?_)
    have hne : p ≠ q := by
      rintro rfl
      exact hnodup.1 hp
    exact hlocal (hothers s hne) (hfits p (List.mem_cons_of_mem q hp))

/-! ## Stopping and pausing -/

theorem mem_activeThreads {t : Thread L} :
    t ∈ s.activeThreads ↔ s.threads.find? t.pid = some t ∧ t.isActive = true := by
  unfold activeThreads
  rw [List.mem_filter, Roster.find?_eq_some_iff]
  exact and_congr_left fun _ => (and_iff_left rfl).symm

theorem activeThreads_nodup (s : Scheduler L) : (s.activeThreads.map Thread.pid).Nodup :=
  (Roster.keys_nodup s.threads).sublist (List.filter_sublist.map Thread.pid)

theorem resolveActive_sublist (s : Scheduler L) (target : Target) :
    (s.resolveActive target).Sublist (s.activeThreads.map Thread.pid) := by
  have hfound : ∀ test : Thread L → Bool,
      ((s.activeThreads.find? test).map Thread.pid).toList.Sublist
        (s.activeThreads.map Thread.pid) := by
    intro test
    cases ht : s.activeThreads.find? test with
    | none => exact List.nil_sublist _
    | some t =>
      exact List.singleton_sublist.mpr (List.mem_map_of_mem (List.mem_of_find?_eq_some ht))
  cases target with
  | pid pid => exact hfound _
  | name name => exact hfound _
  | all => exact List.Sublist.refl _

theorem active_of_mem_resolveActive {target : Target} (h : p ∈ s.resolveActive target) :
    ∃ t, s.threads.find? p = some t ∧ t.isActive = true := by
  obtain ⟨t, ht, rfl⟩ := List.mem_map.mp ((resolveActive_sublist s target).subset h)
  exact ⟨t, mem_activeThreads.mp ht⟩

theorem path_abandonAll (s : Scheduler L) (target : Target) (now : Millis) :
    QuietPath s ((s.stopMoves target).map (now, ·)) (s.abandonAll (s.resolveActive target)) := by
  refine path_each (f := .mark) ?_ (fun s _ _ hp => find?_abandon_of_ne hp) (fun _ => rfl)
    ((activeThreads_nodup s).sublist (resolveActive_sublist s target))
    fun p hp => active_of_mem_resolveActive hp
  rintro s s' p hfind ⟨t, ht, hactive⟩
  exact ⟨t, hfind.trans ht, hactive⟩

theorem path_stop (s : Scheduler L) (target : Target) (now : Millis) :
    QuietPath s ((s.stopMoves target).map (now, ·)) (s.stop target).2 := by
  have hpath := path_abandonAll s target now
  unfold stop
  by_cases hnone : target ≠ .all ∧ s.resolveActive target = []
  · simp only [if_pos hnone]
    rw [hnone.2] at hpath
    exact hpath
  · simp only [if_neg hnone]
    exact hpath

theorem apply_toggleMove (s : Scheduler L) (pid : Pid) (now : Millis) :
    (s.toggleMove pid).apply now s = s.changeState .toggle pid := by
  unfold toggleMove
  cases hfind : s.threads.find? pid with
  | none =>
    simp only [Option.any_none, Bool.false_eq_true, if_false, Move.apply]
    unfold changeState
    simp only [hfind]
  | some t =>
    simp only [Option.any_some]
    by_cases hpaused : t.state.isPaused = true
    · simp only [if_pos hpaused, Move.apply]
      unfold changeState ExecutionState.toggle
      simp only [hfind, if_pos hpaused]
    · simp only [if_neg hpaused, Move.apply]
      unfold changeState ExecutionState.toggle
      simp only [hfind, if_neg hpaused]

theorem fits_toggleMove {pid : Pid} {t : Thread L} (hfind : s.threads.find? pid = some t)
    (hactive : t.isActive = true) : (s.toggleMove pid).Fits s := by
  unfold toggleMove
  rw [hfind, Option.any_some]
  by_cases hpaused : t.state.isPaused = true
  · rw [if_pos hpaused]
    exact ⟨t, hfind, hactive, hpaused⟩
  · rw [if_neg hpaused]
    exact ⟨t, hfind, hactive, Bool.eq_false_iff.mpr hpaused⟩

theorem keeps_toggleMove (s : Scheduler L) (pid : Pid) : (s.toggleMove pid).isDrain = false := by
  unfold toggleMove
  split <;> rfl

/-- The same change of state for some of the active threads, all paused or all not. -/
theorem path_changeEach {f : Pid → Move L}
    {change : ExecutionState L.Condition → ExecutionState L.Condition} {paused : Bool}
    (hfits : ∀ (s : Scheduler L) (p : Pid), (f p).Fits s ↔
      ∃ t, s.threads.find? p = some t ∧ t.isActive = true ∧ t.state.isPaused = paused)
    (happly : ∀ (s : Scheduler L) (p : Pid), (f p).apply now s = s.changeState change p)
    (hkeeps : ∀ p, (f p).isDrain = false) {threads : List (Thread L)}
    (hsome : threads.Sublist s.activeThreads)
    (hpaused : ∀ t ∈ threads, t.state.isPaused = paused) :
    QuietPath s ((threads.map fun t => f t.pid).map (now, ·))
      ((threads.map Thread.pid).foldl (changeState change) s) := by
  have hpath : QuietPath s (((threads.map Thread.pid).map f).map (now, ·))
      ((threads.map Thread.pid).foldl (fun s p => (f p).apply now s) s) := by
    refine path_each ?_ (fun s p q hp => ?_) hkeeps
      ((activeThreads_nodup s).sublist (hsome.map Thread.pid)) fun p hp => ?_
    · intro s s' p hsame hp
      rw [hfits] at hp ⊢
      rwa [hsame]
    · rw [happly]
      exact find?_changeState_of_ne change hp
    · obtain ⟨t, ht, rfl⟩ := List.mem_map.mp hp
      obtain ⟨hfind, hactive⟩ := mem_activeThreads.mp (hsome.subset ht)
      exact (hfits s t.pid).mpr ⟨t, hfind, hactive, hpaused t ht⟩
  simp only [List.map_map, happly] at hpath ⊢
  exact hpath

theorem path_toggleAll (s : Scheduler L) (now : Millis) :
    QuietPath s (s.toggleAllMoves.map (now, ·)) s.toggleAll.2 := by
  unfold toggleAllMoves toggleAll
  simp only
  cases hrunning : s.activeThreads.filter fun t => !t.state.isPaused with
  | nil =>
    have hpath : QuietPath s ((s.activeThreads.map fun t => .resume t.pid).map (now, ·))
        ((s.activeThreads.map Thread.pid).foldl (changeState .resume) s) := by
      refine path_changeEach (f := .resume) (fun _ _ => Iff.rfl) (fun _ _ => rfl) (fun _ => rfl)
        (List.Sublist.refl _) fun t ht => ?_
      have hpaused := List.filter_eq_nil_iff.mp hrunning t ht
      simpa using hpaused
    by_cases hidle : s.activeThreads.isEmpty = true
    · simp only [if_pos hidle]
      rw [List.isEmpty_iff.mp hidle] at hpath ⊢
      exact hpath
    · simp only [if_neg hidle]
      exact hpath
  | cons first rest =>
    have hpath : QuietPath s (((first :: rest).map fun t => .pause t.pid).map (now, ·))
        (((first :: rest).map Thread.pid).foldl (changeState .pause) s) := by
      rw [← hrunning]
      refine path_changeEach (f := .pause) (fun _ _ => Iff.rfl) (fun _ _ => rfl) (fun _ => rfl)
        List.filter_sublist fun t ht => ?_
      have hawake := (List.mem_filter.mp ht).2
      simpa using hawake
    have hbusy : ¬ s.activeThreads.isEmpty = true := by
      intro hidle
      rw [List.isEmpty_iff.mp hidle] at hrunning
      cases hrunning
    simp only [if_neg hbusy]
    exact hpath

theorem path_pause (s : Scheduler L) (target : Target) (now : Millis) :
    QuietPath s ((s.pauseMoves target).map (now, ·)) (s.pause target).2 := by
  unfold pauseMoves pause
  by_cases hall : target = .all
  · rw [if_pos hall, if_pos hall]
    exact path_toggleAll s now
  · rw [if_neg hall, if_neg hall]
    cases hpids : s.resolveActive target with
    | nil => exact .nil s
    | cons pid pids =>
      have hmem : pid ∈ s.resolveActive target := hpids ▸ List.mem_cons_self
      obtain ⟨t, hfind, hactive⟩ := active_of_mem_resolveActive hmem
      have hpath : QuietPath s [(now, s.toggleMove pid)] _ :=
        .single (fits_toggleMove hfind hactive) (keeps_toggleMove s pid)
      rw [apply_toggleMove] at hpath
      exact hpath

/-! ## Servicing and starting -/

section Service

variable {t : Thread L} (hfind : s.threads.find? p = some t) (hactive : t.isActive = true)
  (hidle : ¬ ∃ t, s.threads.find? p = some t ∧ t.isActive = true) (spawn : Spawn L)
  (moves : SpawnMoves L)

include hfind in
theorem serve_eq :
    s.serve now p =
      (s.absorb (s.activityOf now t)).recordService p now (s.activityOf now t).value := by
  unfold serve
  rw [hfind]

include hfind hactive in
/-- An active thread is serviced, and its requests are carried out. -/
theorem service_of_active :
    service spawn now p s = ((s.activityOf now t).value != .notEligible,
      applyRequests spawn now (s.serve now p) (s.activityOf now t).requests) := by
  rw [serve_eq hfind]
  unfold service
  simp only [hfind, hactive, Bool.not_true, Bool.false_eq_true, if_false]
  rfl

include hfind hactive in
theorem serviceMoves_of_active :
    serviceMoves spawn moves now p s = (now, .serve p) ::
      requestsMoves spawn moves now (s.activityOf now t).requests (s.serve now p) := by
  unfold serviceMoves
  simp only [hfind, hactive, Bool.not_true, Bool.false_eq_true, if_false]

include hidle in
/-- Nothing is done for a thread that is not active. -/
theorem service_of_idle : service spawn now p s = (false, s) := by
  unfold service
  cases hfind : s.threads.find? p with
  | none => rfl
  | some t => exact if_pos (by simpa using fun h => hidle ⟨t, hfind, h⟩)

include hidle in
theorem serviceMoves_of_idle : serviceMoves spawn moves now p s = [] := by
  unfold serviceMoves
  cases hfind : s.threads.find? p with
  | none => rfl
  | some t => exact if_pos (by simpa using fun h => hidle ⟨t, hfind, h⟩)

end Service

/-- The starts that requests ask for make the moves that are listed for them. -/
def Traced (spawn : Spawn L) (moves : SpawnMoves L) : Prop :=
  ∀ now script args s, QuietPath s (moves now script args s) (spawn now script args s).2

section Traced

variable {spawn : Spawn L} {moves : SpawnMoves L} (h : Traced spawn moves)

include h

theorem path_applyRequest (now : Millis) (s : Scheduler L) (request : Request) :
    QuietPath s (requestMoves spawn moves now s request) (applyRequest spawn now s request) := by
  cases request with
  | stop target =>
    refine (path_stop s target now).refused ?_
    unfold applyRequest
    simp only
    rcases s.stop target with ⟨_ | _, s'⟩ <;> rfl
  | pause target =>
    refine (path_pause s target now).refused ?_
    unfold applyRequest
    simp only
    rcases s.pause target with ⟨_ | _, s'⟩ <;> rfl
  | run script args =>
    refine (h (s.launchTime now) script args s).refused ?_
    unfold applyRequest
    simp only
    rcases spawn (s.launchTime now) script args s with ⟨_ | _, s'⟩ <;> rfl

theorem path_applyRequests (now : Millis) (s : Scheduler L) (requests : List Request) :
    QuietPath s (requestsMoves spawn moves now requests s)
      (applyRequests spawn now s requests) := by
  induction requests generalizing s with
  | nil => exact .nil s
  | cons request requests ih => exact (path_applyRequest h now s request).append (ih _)

theorem path_service (now : Millis) (pid : Pid) (s : Scheduler L) :
    QuietPath s (serviceMoves spawn moves now pid s) (service spawn now pid s).2 := by
  by_cases hactive : ∃ t, s.threads.find? pid = some t ∧ t.isActive = true
  · obtain ⟨t, hfind, hactive⟩ := hactive
    rw [service_of_active hfind hactive, serviceMoves_of_active hfind hactive]
    exact .cons ⟨t, hfind, hactive⟩ rfl (path_applyRequests h now _ _)
  · rw [service_of_idle hactive, serviceMoves_of_idle hactive]
    exact .nil s

theorem path_launch {path : String} (hfree : s.rejectLive path = .ok ()) (now : Millis)
    (name : String) (script : L.Script) (args : List String) :
    QuietPath s (launchMoves spawn moves now name path script args s)
      (launch spawn now name path script args (s.forgetFinished path)).2 := by
  unfold launchMoves launch
  by_cases hlimit : Pid.limit ≤ s.nextPid
  · have hlimit' : Pid.limit ≤ (s.forgetFinished path).nextPid := hlimit
    rw [if_pos hlimit, if_pos hlimit']
    exact .single (m := .forget path) ⟨hlimit, hfree⟩ rfl
  · have hlimit' : ¬ Pid.limit ≤ (s.forgetFinished path).nextPid := hlimit
    rw [if_neg hlimit, if_neg hlimit']
    exact .cons (m := .enroll name path script args) ⟨Nat.lt_of_not_le hlimit, hfree⟩ rfl
      (path_service h now _ _)

theorem path_startWith (now : Millis) (identity : String) (searchPath : List ScriptPath)
    (args : List String) (s : Scheduler L) :
    QuietPath s (startWithMoves spawn moves now identity searchPath args s)
      (startWith spawn now identity searchPath args s).2 := by
  unfold startWithMoves startWith
  cases hresolve : s.library.resolve identity searchPath with
  | error e => exact .nil s
  | ok path =>
    simp only
    cases hfree : s.rejectLive path.text with
    | error e => exact .nil s
    | ok free =>
      simp only
      cases hload : s.library.load path with
      | error e => exact .nil s
      | ok program => exact path_launch h hfree now identity _ args

end Traced

/-- Nested starts make their moves, whatever their depth. -/
theorem traced_spawnWithin (depth : Nat) : Traced (L := L) (spawnWithin depth)
    (spawnMovesWithin depth) := by
  induction depth with
  | zero => exact fun _ _ _ s => .nil s
  | succ depth ih =>
    intro now script args s
    exact path_startWith ih now script s.searchPath args s

theorem traced_spawn : Traced (L := L) spawn spawnMoves := traced_spawnWithin Pid.limit

theorem path_startScript (now : Millis) (name label : String) (script : L.Script)
    (args : List String) (s : Scheduler L) :
    QuietPath s (s.startScriptMoves now name label script args)
      (s.startScript now name label script args).2 := by
  unfold startScriptMoves startScript
  cases hfree : s.rejectLive label with
  | error e => exact .nil s
  | ok free => exact path_launch traced_spawn hfree now name script args

theorem path_parse (now : Millis) (source : String) (s : Scheduler L) :
    QuietPath s (s.parseMoves now source) (s.parse now source).2 := by
  unfold parseMoves parse
  cases hfree : s.rejectLive parseName with
  | error e => exact .nil s
  | ok free =>
    simp only
    cases hload : ScriptLibrary.loadSource parseName source with
    | error e => exact .nil s
    | ok program => exact path_launch traced_spawn hfree now parseName _ []

/-! ## Heartbeats -/

theorem path_serviceAll (now : Millis) (pids : List Pid) (s : Scheduler L) :
    QuietPath s (serviceAllMoves now pids s) (serviceAll now pids s).2 := by
  induction pids generalizing s with
  | nil => exact .nil s
  | cons pid pids ih => exact (path_service traced_spawn now pid s).append (ih _)

/-- A scheduler with other threads. -/
def withThreads (s : Scheduler L) (threads : Roster (Thread.pid (L := L))) : Scheduler L :=
  { s with threads := threads }

theorem withThreads_recordOutcome (s : Scheduler L) (threads : Roster (Thread.pid (L := L)))
    (outcome : ThreadOutcome) :
    (s.recordOutcome q outcome now).withThreads threads =
      (s.withThreads threads).recordOutcome q outcome now := by
  unfold recordOutcome withThreads
  simp only
  cases s.table.find? q with
  | none => rfl
  | some e => rfl

theorem reap_eq {t : Thread L} (hfind : s.threads.find? q = some t) :
    s.reap now q =
      if t.isTerminated then s.withThreads (s.threads.erase q)
      else (s.withThreads (s.threads.erase q)).recordOutcome q .stopped now := by
  unfold reap
  rw [hfind]
  rfl

/-- Removing threads one by one, or all at once before their entries are closed, is the same. -/
theorem foldl_reap (now : Millis) (gone : List (Thread L)) (s : Scheduler L)
    (hfind : ∀ t ∈ gone, s.threads.find? t.pid = some t) (hnodup : (gone.map Thread.pid).Nodup) :
    (gone.map Thread.pid).foldl (fun s pid => s.reap now pid) s =
      ((gone.filter (!·.isTerminated)).map Thread.pid).foldl
        (fun s pid => s.recordOutcome pid .stopped now)
        (s.withThreads (s.threads.filter fun t => !(gone.map Thread.pid).contains t.pid)) := by
  induction gone generalizing s with
  | nil =>
    have hall : s.threads.filter (fun _ => true) = s.threads := by
      refine Roster.ext_find? fun k => ?_
      rw [Roster.find?_filter]
      cases s.threads.find? k <;> rfl
    show s = s.withThreads (s.threads.filter fun _ => true)
    rw [hall]
    rfl
  | cons t gone ih =>
    rw [List.map_cons, List.nodup_cons] at hnodup
    have hne : ∀ u ∈ gone, u.pid ≠ t.pid := fun u hu hpid =>
      hnodup.1 (hpid ▸ List.mem_map_of_mem hu)
    -- The sweep closes entries when all threads are gone, so the first closing has to move behind
    -- the removal of the rest.
    have hrest := ih (s.reap now t.pid)
      (fun u hu => (find?_reap_of_ne (hne u hu)).trans (hfind u (List.mem_cons_of_mem t hu)))
      hnodup.2
    have herase : (s.threads.erase t.pid).filter
          (fun u => !(gone.map Thread.pid).contains u.pid) =
        s.threads.filter fun u => !(t.pid :: gone.map Thread.pid).contains u.pid := by
      refine Roster.ext_find? fun k => ?_
      unfold Roster.erase
      rw [Roster.find?_filter, Roster.find?_filter, Roster.find?_filter, Option.filter_filter]
      congr 1
      funext u
      by_cases hu : u.pid = t.pid <;> simp [hu]
    rw [List.map_cons, List.foldl_cons, hrest, ← herase, reap_eq (hfind t List.mem_cons_self)]
    cases hended : t.isTerminated with
    | true =>
      rw [List.filter_cons_of_neg (by simp [hended]), if_pos rfl]
      rfl
    | false =>
      rw [List.filter_cons_of_pos (by simp [hended]), List.map_cons, List.foldl_cons,
        if_neg Bool.false_ne_true, withThreads_recordOutcome, threads_recordOutcome]
      rfl

/-- A sweep keeps the threads that are not gone. -/
theorem filter_gone (r : Roster (Thread.pid (L := L))) :
    (r.filter fun t =>
        !((r.members.filter (!·.isActive)).map Thread.pid).contains t.pid) =
      r.filter Thread.isActive := by
  refine Roster.ext_find? fun k => ?_
  rw [Roster.find?_filter, Roster.find?_filter]
  cases hk : r.find? k with
  | none => rfl
  | some t =>
    have hmem : t.pid ∈ (r.members.filter (!·.isActive)).map Thread.pid ↔ t.isActive = false := by
      constructor
      · intro h
        obtain ⟨u, hu, hpid⟩ := List.mem_map.mp h
        obtain ⟨hu, hgone⟩ := List.mem_filter.mp hu
        have hsame := Roster.find?_of_mem hu
        rw [hpid, Roster.key_of_find? hk, hk] at hsame
        rw [Option.some.inj hsame]
        simpa using hgone
      · intro h
        refine List.mem_map_of_mem (List.mem_filter.mpr ⟨Roster.mem_of_find? hk, ?_⟩)
        rw [h]
        rfl
    have hkeep : (!((r.members.filter (!·.isActive)).map Thread.pid).contains t.pid) =
        t.isActive := by
      rw [Bool.eq_iff_iff, Bool.not_eq_true', ← Bool.not_eq_true, List.contains_iff_mem, hmem,
        Bool.not_eq_false]
    rw [Option.filter_some, Option.filter_some, hkeep]

/-- The threads that are gone are those that the scheduler finds, each once. -/
theorem gone_spec (s : Scheduler L) :
    (∀ t ∈ s.threads.members.filter (!·.isActive), s.threads.find? t.pid = some t) ∧
      ((s.threads.members.filter (!·.isActive)).map Thread.pid).Nodup :=
  ⟨fun _ ht => Roster.find?_of_mem (List.mem_filter.mp ht).1,
    (Roster.keys_nodup s.threads).sublist (List.filter_sublist.map Thread.pid)⟩

/-- A sweep removes the threads that are gone one by one. -/
theorem sweep_eq_foldl (now : Millis) (s : Scheduler L) :
    (s.sweep now).2 = ((s.threads.members.filter (!·.isActive)).map Thread.pid).foldl
      (fun s pid => s.reap now pid) s := by
  rw [foldl_reap now _ s (gone_spec s).1 (gone_spec s).2, filter_gone]
  rfl

theorem path_sweep (now : Millis) (s : Scheduler L) :
    QuietPath s (s.sweepMoves.map (now, ·)) (s.sweep now).2 := by
  obtain ⟨hfind, hnodup⟩ := gone_spec s
  have hpath : QuietPath s ((((s.threads.members.filter (!·.isActive)).map Thread.pid).map
      Move.reap).map (now, ·)) (((s.threads.members.filter (!·.isActive)).map Thread.pid).foldl
        (fun s pid => s.reap now pid) s) := by
    refine path_each (f := .reap) ?_ (fun s _ _ hp => find?_reap_of_ne hp) (fun _ => rfl) hnodup
      fun p hp => ?_
    · rintro s s' p hsame ⟨t, ht, hgone⟩
      exact ⟨t, hsame.trans ht, hgone⟩
    · obtain ⟨t, ht, rfl⟩ := List.mem_map.mp hp
      exact ⟨t, hfind t ht, by simpa using (List.mem_filter.mp ht).2⟩
  unfold sweepMoves
  rw [sweep_eq_foldl]
  simp only [List.map_map] at hpath ⊢
  exact hpath

theorem path_collectIfDue (now : Millis) (s : Scheduler L) :
    QuietPath s ((s.collectIfDueMoves now).map (now, ·)) (s.collectIfDue now).2 := by
  unfold collectIfDueMoves collectIfDue
  cases hretention : s.options.retention? with
  | none => exact .nil s
  | some retention =>
    simp only
    by_cases hearly : now - s.lastCollection < retention
    · rw [if_pos hearly, if_pos hearly]
      exact .nil s
    · rw [if_neg hearly, if_neg hearly]
      exact .single (m := .collect retention) hretention rfl

theorem path_collectGarbage (now : Millis) (s : Scheduler L) :
    QuietPath s (s.collectGarbageMoves.map (now, ·)) (s.collectGarbage now).2 := by
  unfold collectGarbageMoves collectGarbage
  cases hretention : s.options.retention? with
  | none => exact .nil s
  | some retention => exact .single (m := .collect retention) hretention rfl

theorem path_tick (now : Millis) (s : Scheduler L) :
    QuietPath s (s.tickMoves now) (s.tick now).2 :=
  ((path_serviceAll now s.livePids s).append (path_sweep now _)).append (path_collectIfDue now _)

end Scheduler

/-! ## Rows of operations -/

theorem path_perform (now : Millis) (op : Operation L) (s : Scheduler L) :
    Path s (op.moves now s) (op.perform now s) ∧
      ∀ moves, told (op.moves now s ++ moves) s = op.taken s ++ told moves (op.perform now s) := by
  have hquiet : ∀ {moves : List (Millis × Move L)} {s' : Scheduler L}, QuietPath s moves s' →
      Path s moves s' ∧ ∀ rest, told (moves ++ rest) s = told rest s' :=
    fun h => ⟨h.path, fun _ => h.told_append⟩
  cases op with
  | run identity args =>
    exact hquiet (Scheduler.path_startWith Scheduler.traced_spawn now identity s.searchPath args s)
  | start identity searchPath args =>
    exact hquiet (Scheduler.path_startWith Scheduler.traced_spawn now identity searchPath args s)
  | startScript name label script args =>
    exact hquiet (Scheduler.path_startScript now name label script args s)
  | parse source => exact hquiet (Scheduler.path_parse now source s)
  | tick => exact hquiet (Scheduler.path_tick now s)
  | feed line => exact hquiet (.single (m := .feed line) trivial rfl)
  | stop target => exact hquiet (Scheduler.path_stop s target now)
  | stopAll => exact hquiet (Scheduler.path_abandonAll s .all now)
  | pause target => exact hquiet (Scheduler.path_pause s target now)
  | toggleAll => exact hquiet (Scheduler.path_toggleAll s now)
  | setTurbo turbo => exact hquiet (.single (m := .setTurbo turbo) trivial rfl)
  | collectGarbage => exact hquiet (Scheduler.path_collectGarbage now s)
  | drainStatus => exact ⟨.single (m := .drain) trivial, fun _ => rfl⟩
  | outside library world => exact hquiet (.single (m := .outside library world) trivial rfl)

theorem performAll_append (ops ops' : List (Millis × Operation L)) (s : Scheduler L) :
    performAll (ops ++ ops') s = performAll ops' (performAll ops s) := by
  induction ops generalizing s with
  | nil => rfl
  | cons x ops ih => exact ih _

/-- **The operations make the moves of their history**, each at a time when it may be made. -/
theorem path_history (ops : List (Millis × Operation L)) (s : Scheduler L) :
    Path s (history ops s) (performAll ops s) := by
  induction ops generalizing s with
  | nil => exact .nil s
  | cons op ops ih => exact (path_perform op.1 op.2 s).1.append (ih _)

/-- The host gets the news of the moves. -/
theorem newsOf_eq_told (ops : List (Millis × Operation L)) (s : Scheduler L) :
    newsOf ops s = told (history ops s) s := by
  induction ops generalizing s with
  | nil => rfl
  | cons op ops ih =>
    show op.2.taken s ++ newsOf ops (op.2.perform op.1 s) = _
    rw [ih]
    exact ((path_perform op.1 op.2 s).2 _).symm

end Heartbeat

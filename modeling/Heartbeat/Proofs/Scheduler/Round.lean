import Heartbeat.Proofs.Scheduler.Consistent
import Heartbeat.Proofs.Scheduler.Frame

/-!
# Who is serviced, and when

In a heartbeat the threads that are live when it begins are serviced in order, each once at most. A
thread that is launched meanwhile, on the request of a script, is serviced right behind its start
and not again, at the time that the clock shows then. `Round` is the grammar of the moves of an
operation that says so.

* `Errand`: what requests lead to; threads are serviced only when they are launched.
* `Launch`: a start, and what it leads to.
* `Round`: a heartbeat of some threads, with errands in between, or a launch.
* `Operation.round`: every operation is a round of the threads that it finds, or of none.
* `Operation.served_nodup`: no thread is serviced twice in an operation.
-/

namespace Heartbeat

variable {L : Language} {now : Millis} {clock : Clock}

namespace Move

/-- Whether a move neither launches nor services a thread, nor changes the allowance. -/
def isPlain : Move L → Bool
  | .enroll _ _ _ _ | .serve _ | .setTurbo _ => false
  | _ => true

/-- The thread that is serviced in a move. -/
def served? : Move L → Option Pid
  | .serve pid => some pid
  | _ => none

/-- The threads that are serviced in a row of moves, in order. -/
def served (moves : List (Millis × Move L)) : List Pid := moves.filterMap (·.2.served?)

theorem plain_of_control {moves : List (Millis × Move L)}
    (h : ∀ x ∈ moves, x.2.isControl = true) : ∀ x ∈ moves, x.2.isPlain = true := by
  rintro ⟨time, m⟩ hm
  have hcontrol := h _ hm
  cases m with
  | mark | pause | resume | refuse => rfl
  | _ => exact absurd hcontrol nofun

theorem plain_of_clearance {moves : List (Millis × Move L)}
    (h : ∀ x ∈ moves, x.2.isClearance = true) : ∀ x ∈ moves, x.2.isPlain = true := by
  rintro ⟨time, m⟩ hm
  have hclearance := h _ hm
  cases m with
  | reap | collect => rfl
  | _ => exact absurd hclearance nofun

theorem served?_of_plain {m : Move L} (hplain : m.isPlain = true) : m.served? = none := by
  cases m with
  | serve pid => exact absurd hplain nofun
  | _ => rfl

/-- On plain moves nobody is serviced. -/
theorem served_of_plain {moves : List (Millis × Move L)} (h : ∀ x ∈ moves, x.2.isPlain = true) :
    served moves = [] :=
  List.filterMap_eq_nil_iff.mpr fun x hx => served?_of_plain (h x hx)

theorem served_append (moves moves' : List (Millis × Move L)) :
    served (moves ++ moves') = served moves ++ served moves' :=
  List.filterMap_append

theorem served_cons_of_plain {m : Move L} (hplain : m.isPlain = true) (now : Millis)
    (moves : List (Millis × Move L)) : served ((now, m) :: moves) = served moves :=
  List.filterMap_cons_none (f := fun x : Millis × Move L => x.2.served?)
    (served?_of_plain hplain)

end Move

theorem launchTimes_append (moves moves' : List (Millis × Move L)) :
    launchTimes (moves ++ moves') = launchTimes moves ++ launchTimes moves' :=
  List.filterMap_append

/-! ## The grammar -/

/-- **What requests lead to** that were made in a service at a time, from one next identifier to
another: a launch gives the identifier to a thread and services it at once, at the time that the
clock shows for it. -/
inductive Errand (clock : Clock) : Millis → Pid → List (Millis × Move L) → Pid → Prop
  | nil (now : Millis) (n : Pid) : Errand clock now n [] n
  | plain {now : Millis} {n n' : Pid} {m : Move L} {moves : List (Millis × Move L)}
      (hplain : m.isPlain = true) (hrest : Errand clock now n moves n') :
      Errand clock now n ((now, m) :: moves) n'
  | launched {now : Millis} {n n' n'' : Pid} {name path : String} {script : L.Script}
      {args : List String} {moves moves' : List (Millis × Move L)}
      (hinner : Errand clock (clock n now) (n + 1) moves n')
      (hrest : Errand clock now n' moves' n'') :
      Errand clock now n ((clock n now, .enroll name path script args) ::
        (clock n now, .serve n) :: (moves ++ moves')) n''

/-- **A start at a time** is refused, or there is no identifier left, or it launches a thread. -/
inductive Launch (clock : Clock) (now : Millis) (n : Pid) : List (Millis × Move L) → Pid → Prop
  | refused : Launch clock now n [] n
  | exhausted (hlimit : Pid.limit ≤ n) (path : String) :
      Launch clock now n [(now, .forget path)] n
  | launched {n' : Pid} {name path : String} {script : L.Script} {args : List String}
      {moves : List (Millis × Move L)} (hlt : n < Pid.limit)
      (herrand : Errand clock now (n + 1) moves n') :
      Launch clock now n ((now, .enroll name path script args) :: (now, .serve n) :: moves) n'

/-- **A round of threads** at a time: some of them are serviced, in order, with errands in between.
The start of a script by the host is a round of no threads. -/
inductive Round (clock : Clock) (now : Millis) :
    List Pid → Pid → List (Millis × Move L) → Pid → Prop
  | rest {n n' : Pid} {moves : List (Millis × Move L)} (h : Errand clock now n moves n') :
      Round clock now [] n moves n'
  | started {n n' : Pid} {moves : List (Millis × Move L)} (h : Launch clock now n moves n') :
      Round clock now [] n moves n'
  /-- A thread is passed over, as one that is not active any more when its turn comes. -/
  | passed {pid n n' : Pid} {pids : List Pid} {moves : List (Millis × Move L)}
      (h : Round clock now pids n moves n') : Round clock now (pid :: pids) n moves n'
  | served {pid n n' n'' : Pid} {pids : List Pid} {moves moves' : List (Millis × Move L)}
      (herrand : Errand clock now n moves n') (hrest : Round clock now pids n' moves' n'') :
      Round clock now (pid :: pids) n ((now, .serve pid) :: (moves ++ moves')) n''

namespace Errand

variable {n n' n'' : Pid} {moves moves' : List (Millis × Move L)}

theorem append (h : Errand clock now n moves n') (h' : Errand clock now n' moves' n'') :
    Errand clock now n (moves ++ moves') n'' := by
  induction h with
  | nil => exact h'
  | plain hplain _ ih => exact .plain hplain (ih h')
  | launched hinner _ _ ih =>
    rw [List.cons_append, List.cons_append, List.append_assoc]
    exact .launched hinner (ih h')

theorem of_plain (n : Pid) (h : ∀ x ∈ moves, x.1 = now ∧ x.2.isPlain = true) :
    Errand clock now n moves n := by
  induction moves with
  | nil => exact .nil now n
  | cons x moves ih =>
    rw [List.forall_mem_cons] at h
    obtain ⟨⟨rfl, hplain⟩, hrest⟩ := h
    exact .plain hplain (ih hrest)

/-- The threads that are serviced in an errand are those that are launched in it. -/
theorem served_eq (h : Errand clock now n moves n') :
    n ≤ n' ∧ Move.served moves = List.range' n (n' - n) := by
  induction h with
  | nil now n =>
    rw [Nat.sub_self]
    exact ⟨Nat.le_refl n, rfl⟩
  | @plain now n n' m moves hplain _ ih =>
    exact ⟨ih.1, (Move.served_cons_of_plain hplain now moves).trans ih.2⟩
  | @launched now n n' n'' name path script args moves moves' _ _ ih ih' =>
    obtain ⟨hle, hserved⟩ := ih
    obtain ⟨hle', hserved'⟩ := ih'
    refine ⟨Nat.le_trans (Nat.le_of_succ_le hle) hle', ?_⟩
    show n :: Move.served (moves ++ moves') = _
    rw [Move.served_append, hserved, hserved']
    obtain ⟨k, rfl⟩ := Nat.exists_eq_add_of_le hle
    obtain ⟨k', rfl⟩ := Nat.exists_eq_add_of_le hle'
    have hcount : ∀ a b c : Nat, a + 1 + b + c - a = b + c + 1 := fun a b c => by omega
    rw [Nat.add_sub_cancel_left, Nat.add_sub_cancel_left, List.range'_append_1, hcount n k k',
      List.range'_succ]

theorem keeps_turbo (h : Errand clock now n moves n') :
    ∀ x ∈ moves, ∀ turbo, x.2 ≠ .setTurbo turbo := by
  induction h with
  | nil => nofun
  | @plain now n n' m moves hplain _ ih =>
    refine List.forall_mem_cons.mpr ⟨fun turbo hm => ?_, ih⟩
    obtain rfl : m = .setTurbo turbo := hm
    exact absurd hplain nofun
  | launched _ _ ih ih' =>
    exact List.forall_mem_cons.mpr ⟨nofun, List.forall_mem_cons.mpr ⟨nofun,
      List.forall_mem_append.mpr ⟨ih, ih'⟩⟩⟩

end Errand

namespace Launch

variable {n n' : Pid} {moves : List (Millis × Move L)}

/-- The threads that are serviced in a start are those that are launched in it. -/
theorem served_eq (h : Launch clock now n moves n') :
    n ≤ n' ∧ Move.served moves = List.range' n (n' - n) := by
  cases h with
  | refused =>
    rw [Nat.sub_self]
    exact ⟨Nat.le_refl n, rfl⟩
  | exhausted hlimit path =>
    rw [Nat.sub_self]
    exact ⟨Nat.le_refl n, rfl⟩
  | @launched n' name path script args moves hlt herrand =>
    obtain ⟨hle, hserved⟩ := herrand.served_eq
    obtain ⟨k, rfl⟩ := Nat.exists_eq_add_of_le hle
    have hcount : ∀ a b : Nat, a + 1 + b - a = b + 1 := fun a b => by omega
    refine ⟨Nat.le_of_succ_le hle, ?_⟩
    show n :: Move.served moves = _
    rw [hserved, Nat.add_sub_cancel_left, hcount n k, List.range'_succ]

theorem keeps_turbo (h : Launch clock now n moves n') :
    ∀ x ∈ moves, ∀ turbo, x.2 ≠ .setTurbo turbo := by
  cases h with
  | refused => nofun
  | exhausted hlimit path => exact List.forall_mem_singleton.mpr nofun
  | launched hlt herrand =>
    exact List.forall_mem_cons.mpr ⟨nofun, List.forall_mem_cons.mpr ⟨nofun, herrand.keeps_turbo⟩⟩

end Launch

namespace Round

variable {pids : List Pid} {n n' n'' : Pid} {moves moves' : List (Millis × Move L)}

theorem keeps_turbo (h : Round clock now pids n moves n') :
    ∀ x ∈ moves, ∀ turbo, x.2 ≠ .setTurbo turbo := by
  induction h with
  | rest h => exact h.keeps_turbo
  | started h => exact h.keeps_turbo
  | passed _ ih => exact ih
  | served herrand _ ih =>
    refine List.forall_mem_cons.mpr ⟨nofun, ?_⟩
    exact List.forall_mem_append.mpr ⟨herrand.keeps_turbo, ih⟩

/-- A thread that is serviced is one of the round or is launched in it, and none is serviced
twice. -/
theorem served_spec (h : Round clock now pids n moves n') (hnodup : pids.Nodup)
    (hold : ∀ p ∈ pids, p < n) :
    n ≤ n' ∧ (Move.served moves).Nodup ∧
      ∀ p ∈ Move.served moves, p ∈ pids ∨ n ≤ p ∧ p < n' := by
  have hlaunched : ∀ {n n' : Pid} {moves : List (Millis × Move L)},
      n ≤ n' ∧ Move.served moves = List.range' n (n' - n) →
        n ≤ n' ∧ (Move.served moves).Nodup ∧ ∀ p ∈ Move.served moves, n ≤ p ∧ p < n' := by
    rintro n n' moves ⟨hle, hserved⟩
    rw [hserved]
    refine ⟨hle, List.nodup_range', fun p hp => ?_⟩
    rwa [List.mem_range'_1, Nat.add_sub_cancel' hle] at hp
  induction h with
  | rest h =>
    obtain ⟨hle, honce, hnew⟩ := hlaunched h.served_eq
    exact ⟨hle, honce, fun p hp => .inr (hnew p hp)⟩
  | started h =>
    obtain ⟨hle, honce, hnew⟩ := hlaunched h.served_eq
    exact ⟨hle, honce, fun p hp => .inr (hnew p hp)⟩
  | passed _ ih =>
    rw [List.nodup_cons] at hnodup
    obtain ⟨hle, hnodup', hwho⟩ := ih hnodup.2 fun p hp => hold p (List.mem_cons_of_mem _ hp)
    exact ⟨hle, hnodup', fun p hp => (hwho p hp).imp_left (List.mem_cons_of_mem _)⟩
  | @served pid n n' n'' pids moves moves' herrand _ ih =>
    rw [List.nodup_cons] at hnodup
    rw [List.forall_mem_cons] at hold
    obtain ⟨hle, honce, hnew⟩ := hlaunched herrand.served_eq
    obtain ⟨hle', hnodup', hwho⟩ := ih hnodup.2 fun p hp => Nat.lt_of_lt_of_le (hold.2 p hp) hle
    have hall : Move.served ((now, .serve pid) :: (moves ++ moves')) =
        pid :: (Move.served moves ++ Move.served moves') :=
      congrArg (pid :: ·) (Move.served_append moves moves')
    rw [hall]
    refine ⟨Nat.le_trans hle hle', ?_, ?_⟩
    · refine List.nodup_cons.mpr ⟨fun hmem => ?_, ?_⟩
      · -- the thread is neither launched in the errand nor serviced behind it
        rcases List.mem_append.mp hmem with hmem | hmem
        · exact absurd (hnew pid hmem).1 (Nat.not_le_of_lt hold.1)
        · rcases hwho pid hmem with hmem | hmem
          · exact hnodup.1 hmem
          · exact absurd (Nat.le_trans hle hmem.1) (Nat.not_le_of_lt hold.1)
      · refine List.nodup_append'.mpr ⟨honce, hnodup', ?_⟩
        intro p hp hp'
        obtain ⟨hlower, hupper⟩ := hnew p hp
        rcases hwho p hp' with hmem | hmem
        · exact absurd hlower (Nat.not_le_of_lt (hold.2 p hmem))
        · exact absurd hmem.1 (Nat.not_le_of_lt hupper)
    · intro p hp
      rcases List.mem_cons.mp hp with rfl | hp
      · exact .inl List.mem_cons_self
      · rcases List.mem_append.mp hp with hp | hp
        · exact .inr ⟨(hnew p hp).1, Nat.lt_of_lt_of_le (hnew p hp).2 hle'⟩
        · rcases hwho p hp with hmem | hmem
          · exact .inl (List.mem_cons_of_mem _ hmem)
          · exact .inr ⟨Nat.le_trans hle hmem.1, hmem.2⟩

end Round

/-! ## The moves of an operation -/

theorem Move.nextPid_of_plain {m : Move L} (hplain : m.isPlain = true) (now : Millis)
    (s : Scheduler L) : (m.apply now s).nextPid = s.nextPid := by
  rw [nextPid_apply]
  cases m with
  | enroll name path script args => exact absurd hplain nofun
  | _ => rfl

/-- On plain moves nobody is launched. -/
theorem Path.nextPid_of_plain {s s' : Scheduler L} {moves : List (Millis × Move L)}
    (h : Path s moves s') (hplain : ∀ x ∈ moves, x.2.isPlain = true) :
    s'.nextPid = s.nextPid := by
  induction h with
  | nil => rfl
  | cons now _ _ ih =>
    rw [List.forall_mem_cons] at hplain
    exact (ih hplain.2).trans (Move.nextPid_of_plain hplain.1 now _)

theorem mem_map_now {moves : List (Move L)} : ∀ x ∈ moves.map (now, ·), x.1 = now :=
  List.forall_mem_map.mpr fun _ _ => rfl

namespace QuietPath

variable {s s' : Scheduler L} {moves : List (Move L)}

/-- Plain moves of one time are an errand. -/
theorem errand (h : QuietPath s (moves.map (now, ·)) s') (clock : Clock)
    (hplain : ∀ x ∈ moves.map (now, ·), x.2.isPlain = true) :
    Errand clock now s.nextPid (moves.map (now, ·)) s'.nextPid := by
  rw [h.path.nextPid_of_plain hplain]
  exact .of_plain _ fun x hx => ⟨mem_map_now x hx, hplain x hx⟩

end QuietPath

/-- A start on request is an errand of the service in which it was made. -/
theorem Launch.errand {s : Scheduler L} {n' n'' : Pid} {moves moves' : List (Millis × Move L)}
    (h : Launch s.clock (s.launchTime now) s.nextPid moves n')
    (hrest : Errand s.clock now n' moves' n'') :
    Errand s.clock now s.nextPid (moves ++ moves') n'' := by
  unfold Scheduler.launchTime at h
  cases h with
  | refused => exact hrest
  | exhausted hlimit path =>
    rw [if_pos hlimit]
    exact .plain rfl hrest
  | launched hlt herrand =>
    rw [if_neg (Nat.not_le_of_lt hlt)] at herrand ⊢
    exact .launched herrand hrest

namespace Scheduler

/-- A request that is refused launches nobody. -/
theorem errand_refusal {α : Type} (result : Except RequestError α) (n : Pid) :
    Errand clock now n (refusal (L := L) now result) n := by
  cases result with
  | ok a => exact .nil now n
  | error e => exact .plain rfl (.nil now n)

/-- The starts that requests ask for are launches at the time that they are given. -/
def Launches (spawn : Spawn L) (moves : SpawnMoves L) : Prop :=
  ∀ now identity args s,
    Launch s.clock now s.nextPid (moves now identity args s) (spawn now identity args s).2.nextPid

section Launches

variable {spawn : Spawn L} {moves : SpawnMoves L} (htraced : Traced spawn moves)
  (hlaunches : Launches spawn moves)

include htraced hlaunches

theorem errand_applyRequest (now : Millis) (s : Scheduler L) (request : Request) :
    Errand s.clock now s.nextPid (requestMoves spawn moves now s request)
      (applyRequest spawn now s request).nextPid := by
  have hplain : ∀ {moves : List (Move L)} {s' : Scheduler L}
      {result : Except RequestError (List Pid)},
      QuietPath s (moves.map (now, ·) ++ refusal now result) s' →
        (∀ x ∈ moves.map (now, ·), x.2.isControl = true) →
          Errand s.clock now s.nextPid (moves.map (now, ·) ++ refusal now result) s'.nextPid := by
    intro moves s' result hpath hcontrol
    have hrefused : ∀ x ∈ refusal (L := L) now result, x.2.isControl = true :=
      control_refusal result
    rw [hpath.path.nextPid_of_plain
      (Move.plain_of_control (List.forall_mem_append.mpr ⟨hcontrol, hrefused⟩))]
    refine .append (.of_plain _ fun x hx => ?_) (errand_refusal result _)
    exact ⟨mem_map_now x hx, Move.plain_of_control hcontrol x hx⟩
  have hpath := path_applyRequest htraced now s request
  cases request with
  | stop target => exact hplain hpath (control_stopMoves s target)
  | pause target => exact hplain hpath (control_pauseMoves s target)
  | run script args =>
    have hnext : (applyRequest spawn now s (.run script args)).nextPid =
        (spawn (s.launchTime now) script args s).2.nextPid := by
      unfold applyRequest
      simp only
      rcases spawn (s.launchTime now) script args s with ⟨_ | _, s'⟩ <;> rfl
    rw [hnext]
    exact (hlaunches (s.launchTime now) script args s).errand (errand_refusal _ _)

theorem errand_applyRequests (now : Millis) (s : Scheduler L) (requests : List Request) :
    Errand s.clock now s.nextPid (requestsMoves spawn moves now requests s)
      (applyRequests spawn now s requests).nextPid := by
  induction requests generalizing s with
  | nil => exact .nil _ _
  | cons request requests ih =>
    have hrest := ih (applyRequest spawn now s request)
    rw [(path_applyRequest htraced now s request).path.clock_eq] at hrest
    exact (errand_applyRequest htraced hlaunches now s request).append hrest

/-- A service of an active thread: the thread is serviced, and an errand follows. -/
theorem errand_service {s : Scheduler L} {pid : Pid} {t : Thread L}
    (hfind : s.threads.find? pid = some t) (hactive : t.isActive = true) (now : Millis) :
    ∃ rest, serviceMoves spawn moves now pid s = (now, .serve pid) :: rest ∧
      Errand s.clock now s.nextPid rest (service spawn now pid s).2.nextPid := by
  have hrest := errand_applyRequests htraced hlaunches now (s.serve now pid)
    (s.activityOf now t).requests
  have hnext : (s.serve now pid).nextPid = s.nextPid := Move.nextPid_apply (.serve pid) now s
  have hclock : (s.serve now pid).clock = s.clock := Move.clock_apply (.serve pid) now s
  rw [hnext, hclock] at hrest
  rw [service_of_active hfind hactive, serviceMoves_of_active hfind hactive]
  exact ⟨_, rfl, hrest⟩

theorem launch_launch (now : Millis) (name path : String) (script : L.Script)
    (args : List String) (s : Scheduler L) :
    Launch s.clock now s.nextPid (launchMoves spawn moves now name path script args s)
      (launch spawn now name path script args (s.forgetFinished path)).2.nextPid := by
  unfold launchMoves launch
  by_cases hlimit : Pid.limit ≤ s.nextPid
  · have hlimit' : Pid.limit ≤ (s.forgetFinished path).nextPid := hlimit
    rw [if_pos hlimit, if_pos hlimit']
    exact .exhausted hlimit path
  · have hlimit' : ¬ Pid.limit ≤ (s.forgetFinished path).nextPid := hlimit
    have hfind : ((s.forgetFinished path).enroll now name path script args).threads.find?
        s.nextPid = some (.start s.nextPid name path args script s.options.queueLimit?) :=
      Roster.find?_insert_self s.threads _
    obtain ⟨rest, hmoves, herrand⟩ := errand_service htraced hlaunches hfind rfl now
    rw [if_neg hlimit, if_neg hlimit', hmoves]
    exact .launched (Nat.lt_of_not_le hlimit) herrand

theorem launch_startWith (now : Millis) (identity : String) (searchPath : List ScriptPath)
    (args : List String) (s : Scheduler L) :
    Launch s.clock now s.nextPid (startWithMoves spawn moves now identity searchPath args s)
      (startWith spawn now identity searchPath args s).2.nextPid := by
  unfold startWithMoves startWith
  cases s.library.resolve identity searchPath with
  | error e => exact .refused
  | ok path =>
    simp only
    cases s.rejectLive path.text with
    | error e => exact .refused
    | ok free =>
      simp only
      cases s.library.load path with
      | error e => exact .refused
      | ok program => exact launch_launch htraced hlaunches now identity path.text _ args s

end Launches

theorem launches_spawnWithin (depth : Nat) :
    Launches (L := L) (spawnWithin depth) (spawnMovesWithin depth) := by
  induction depth with
  | zero => exact fun _ _ _ _ => .refused
  | succ depth ih =>
    intro now identity args s
    unfold spawnWithin spawnMovesWithin
    exact launch_startWith (traced_spawnWithin depth) ih now identity s.searchPath args s

theorem launches_spawn : Launches (L := L) spawn spawnMoves := launches_spawnWithin Pid.limit

theorem launch_startScript (now : Millis) (name label : String) (script : L.Script)
    (args : List String) (s : Scheduler L) :
    Launch s.clock now s.nextPid (s.startScriptMoves now name label script args)
      (s.startScript now name label script args).2.nextPid := by
  unfold startScriptMoves startScript
  cases s.rejectLive label with
  | error e => exact .refused
  | ok free => exact launch_launch traced_spawn launches_spawn now name label script args s

theorem launch_parse (now : Millis) (source : String) (s : Scheduler L) :
    Launch s.clock now s.nextPid (s.parseMoves now source) (s.parse now source).2.nextPid := by
  unfold parseMoves parse
  cases s.rejectLive parseName with
  | error e => exact .refused
  | ok free =>
    simp only
    cases ScriptLibrary.loadSource parseName source with
    | error e => exact .refused
    | ok program => exact launch_launch traced_spawn launches_spawn now parseName parseName _ [] s

/-- Services one after another, and an errand behind them, are a round. -/
theorem round_serviceAll {pids : List Pid} {s : Scheduler L} {closing : List (Millis × Move L)}
    {n : Pid} (hclosing : Errand s.clock now (serviceAll now pids s).2.nextPid closing n) :
    Round s.clock now pids s.nextPid (serviceAllMoves now pids s ++ closing) n := by
  induction pids generalizing s with
  | nil => exact .rest hclosing
  | cons pid pids ih =>
    have hclock := (path_service traced_spawn now pid s).path.clock_eq
    have hrest := ih (s := (service spawn now pid s).2) (by rwa [hclock])
    rw [hclock] at hrest
    unfold serviceAllMoves
    by_cases hactive : ∃ t, s.threads.find? pid = some t ∧ t.isActive = true
    · obtain ⟨t, hfind, hactive⟩ := hactive
      obtain ⟨rest, hmoves, herrand⟩ :=
        errand_service traced_spawn launches_spawn hfind hactive now
      rw [hmoves, List.cons_append, List.cons_append, List.append_assoc]
      exact .served herrand hrest
    · rw [service_of_idle hactive] at hrest ⊢
      rw [serviceMoves_of_idle hactive]
      exact .passed hrest

theorem round_tick (now : Millis) (s : Scheduler L) :
    Round s.clock now s.livePids s.nextPid (s.tickMoves now) (s.tick now).2.nextPid := by
  have hsweep := (path_sweep now (serviceAll now s.livePids s).2).errand s.clock
    (Move.plain_of_clearance (clearance_sweepMoves _))
  have hcollect := (path_collectIfDue now ((serviceAll now s.livePids s).2.sweep now).2).errand
    s.clock (Move.plain_of_clearance (clearance_collectIfDueMoves now _))
  have hround := round_serviceAll (hsweep.append hcollect)
  rw [← List.append_assoc] at hround
  exact hround

end Scheduler

namespace Operation

/-- The threads that an operation goes through: those that are live when a heartbeat begins. -/
def snapshot (s : Scheduler L) : Operation L → List Pid
  | .tick => s.livePids
  | _ => []

/-- **Every operation is a round of the threads that it finds**, or of none. -/
theorem round (now : Millis) (op : Operation L) (s : Scheduler L)
    (hop : ∀ turbo, op ≠ .setTurbo turbo) :
    Round s.clock now (op.snapshot s) s.nextPid (op.moves now s) (op.perform now s).nextPid := by
  have hcontrol : ∀ {moves : List (Move L)} {s' : Scheduler L},
      QuietPath s (moves.map (now, ·)) s' →
        (∀ x ∈ moves.map (now, ·), x.2.isControl = true) →
          Round s.clock now [] s.nextPid (moves.map (now, ·)) s'.nextPid := fun h hmoves =>
    .rest (h.errand s.clock (Move.plain_of_control hmoves))
  cases op with
  | run identity args =>
    simp only [moves, perform, Scheduler.run]
    exact .started (Scheduler.launch_startWith Scheduler.traced_spawn Scheduler.launches_spawn now
      identity s.searchPath args s)
  | start identity searchPath args =>
    simp only [moves, perform, Scheduler.start]
    exact .started (Scheduler.launch_startWith Scheduler.traced_spawn Scheduler.launches_spawn now
      identity searchPath args s)
  | startScript name label script args =>
    exact .started (Scheduler.launch_startScript now name label script args s)
  | parse source => exact .started (Scheduler.launch_parse now source s)
  | tick => exact Scheduler.round_tick now s
  | feed line => exact .rest (.plain rfl (.nil _ _))
  | stop target =>
    exact hcontrol (Scheduler.path_stop s target now) (Scheduler.control_stopMoves s target)
  | stopAll =>
    exact hcontrol (Scheduler.path_abandonAll s .all now) (Scheduler.control_stopMoves s .all)
  | pause target =>
    exact hcontrol (Scheduler.path_pause s target now) (Scheduler.control_pauseMoves s target)
  | toggleAll =>
    exact hcontrol (Scheduler.path_toggleAll s now) (Scheduler.control_toggleAllMoves s)
  | setTurbo turbo => exact absurd rfl (hop turbo)
  | collectGarbage =>
    exact .rest ((Scheduler.path_collectGarbage now s).errand s.clock
      (Move.plain_of_clearance (Scheduler.clearance_collectGarbageMoves s)))
  | drainStatus => exact .rest (.plain rfl (.nil _ _))
  | outside library world => exact .rest (.plain rfl (.nil _ _))

variable {s : Scheduler L}

/-- The threads of a heartbeat are different threads that have been started before it. -/
theorem snapshot_spec (hacc : s.Accord) (op : Operation L) :
    (op.snapshot s).Nodup ∧ ∀ p ∈ op.snapshot s, p < s.nextPid := by
  cases op with
  | tick =>
    refine ⟨Roster.keys_nodup s.threads, fun p hp => ?_⟩
    obtain ⟨t, ht, rfl⟩ := List.mem_map.mp hp
    exact (hacc.consistent.threadPids t ht).2
  | _ => exact ⟨List.nodup_nil, nofun⟩

/-- **No thread is serviced twice in an operation.** -/
theorem served_nodup (hacc : s.Accord) (op : Operation L) (now : Millis) :
    (Move.served (op.moves now s)).Nodup := by
  by_cases hop : ∃ turbo, op = .setTurbo turbo
  · obtain ⟨turbo, rfl⟩ := hop
    exact List.nodup_nil
  · obtain ⟨hnodup, hold⟩ := op.snapshot_spec hacc
    have hround := op.round now s fun turbo h => hop ⟨turbo, h⟩
    exact (hround.served_spec hnodup hold).2.1

end Operation

end Heartbeat

import Heartbeat.Proofs.Scheduler.Allowance
import Heartbeat.Proofs.Scheduler.Census
import Heartbeat.Proofs.Scheduler.SinglePath
import Mathlib.Data.List.Perm.Subperm

/-!
# Launches in one operation

A script that asks for a start in the service that ends it is over when its request is carried out.
So its path is free, and the start may be one of this very path: in one operation a path can be
launched time and again, each time with a fresh allowance. What holds is that a path is launched
again only when the script of the launch before has ended, and that the steps of an operation are
bounded by the allowances of the threads that it goes through and of its launches.

* `Move.launched`: the paths that are launched in a row of moves.
* `work`, `work_le`: the steps that all threads together make in a row of moves.
* `Path.sameRun`: an entry tells of one run as long as it is there.
* `Path.ended_of_free`: a launched script has ended when its path is free again.
* `launch_law_of_create`: what holds of the launches and the steps of every operation.
* `relay_starts_twice`: a path that is launched twice in one operation.
-/

namespace Heartbeat

variable {L : Language} {now : Millis}

namespace Move

/-- The path that is launched in a move. -/
def launched? : Move L → Option String
  | .enroll _ path _ _ => some path
  | _ => none

/-- The paths that are launched in a row of moves, in order. -/
def launched (moves : List (Millis × Move L)) : List String := moves.filterMap (·.2.launched?)

/-- The steps that are made in a move: only the thread that is serviced in it makes any. -/
def steps (now : Millis) (s : Scheduler L) (m : Move L) : Nat :=
  match m.served? with
  | some p => (m.acts now s p).countP Act.isStep
  | none => 0

theorem handsOut_eq (m : Move L) : m.handsOut = m.launched?.toList.length := by
  cases m <;> rfl

/-- Only a service makes steps, and no more than the options allow. -/
theorem steps_le (m : Move L) (now : Millis) (s : Scheduler L) :
    m.steps now s ≤ m.served?.toList.length * s.options.turbo := by
  unfold steps
  cases hserved : m.served? with
  | none => exact Nat.zero_le _
  | some p =>
    have hsteps := m.steps_acts now s p
    rw [if_pos hserved] at hsteps
    exact Nat.le_trans hsteps (Nat.le_of_eq (Nat.one_mul _).symm)

end Move

/-- The steps that all threads together make in a row of moves. -/
def work : List (Millis × Move L) → Scheduler L → Nat
  | [], _ => 0
  | (now, m) :: moves, s => m.steps now s + work moves (m.apply now s)

/-- **The steps of a row of moves**: in each service no more than the options allow. -/
theorem work_le {moves : List (Millis × Move L)}
    (h : ∀ x ∈ moves, ∀ turbo, x.2 ≠ .setTurbo turbo) (s : Scheduler L) :
    work moves s ≤ (Move.served moves).length * s.options.turbo := by
  induction moves generalizing s with
  | nil => exact Nat.zero_le _
  | cons x moves ih =>
    obtain ⟨now, m⟩ := x
    rw [List.forall_mem_cons] at h
    have hfirst := m.steps_le now s
    have hrest := ih h.2 (m.apply now s)
    rw [Move.options_apply h.1] at hrest
    have hserved : (Move.served ((now, m) :: moves)).length =
        m.served?.toList.length + (Move.served moves).length := by
      simp only [Move.served, List.filterMap_eq_flatMap_toList, List.flatMap_cons,
        List.length_append]
    rw [hserved, Nat.add_mul]
    exact Nat.add_le_add hfirst hrest

namespace Path

variable {s s' : Scheduler L} {moves : List (Millis × Move L)} {p : Pid} {e e' : ProcessEntry}

/-- As many identifiers are handed out as threads are launched. -/
theorem nextPid_eq (h : Path s moves s') :
    s'.nextPid = s.nextPid + (Move.launched moves).length := by
  induction h with
  | nil => rfl
  | @cons s s' m moves now _ _ ih =>
    have hlaunched : (Move.launched ((now, m) :: moves)).length =
        m.launched?.toList.length + (Move.launched moves).length := by
      simp only [Move.launched, List.filterMap_eq_flatMap_toList, List.flatMap_cons,
        List.length_append]
    rw [ih, Move.nextPid_apply, Move.handsOut_eq, hlaunched, Nat.add_assoc]

/-- **An entry tells of one run as long as it is there.** -/
theorem sameRun (h : Path s moves s') (hacc : s.Accord) (hfind : s.table.find? p = some e)
    (hlater : s'.table.find? p = some e') : e.SameRun e' := by
  induction h generalizing e with
  | nil =>
    rw [Option.some.inj (hfind.symm.trans hlater)]
    exact ⟨rfl, rfl, rfl, rfl, rfl⟩
  | @cons s s' m moves now hfits hrest ih =>
    have hnext := Move.accord hfits hacc now
    have hlt := Scheduler.pid_lt_of_find? hacc hfind
    have hpassage := Move.passage hfits hacc now p
    cases hmid : (m.apply now s).table.find? p with
    | none =>
      have hgone := hrest.gone hnext hmid (Nat.lt_of_lt_of_le hlt (Move.nextPid_le m now s))
      exact absurd (hlater.symm.trans hgone) nofun
    | some e₁ =>
      rw [hfind, hmid] at hpassage
      rcases hpassage.origin with ⟨e₀, he₀, hfirst⟩ | ⟨rfl, -⟩
      · rw [← Option.some.inj he₀] at hfirst
        have hsecond := ih hnext hmid hlater
        exact ⟨hsecond.pid.trans hfirst.pid, hsecond.name.trans hfirst.name,
          hsecond.path.trans hfirst.path, hsecond.arguments.trans hfirst.arguments,
          hsecond.startTime.trans hfirst.startTime⟩
      · exact absurd hlt (Nat.lt_irrefl _)

/-- A thread stays on a path on which none is removed. -/
theorem stays (h : Path s moves s') (hacc : s.Accord) (hnone : reaped moves = [])
    (hlive : p ∈ s.livePids) : p ∈ s'.livePids := by
  have hcensus := h.census hacc
  rw [hnone, List.append_nil] at hcensus
  exact hcensus.mem_iff.mpr (List.mem_append_left _ hlive)

end Path

/-! ## The law -/

/-- **The law of launches** in an operation at a time. -/
structure LaunchLaw (now : Millis) (op : Operation L) (s : Scheduler L) : Prop where
  /-- The operation makes these moves, each when it may be made. -/
  leads : Path s (op.moves now s) (op.perform now s)
  /-- When a path is launched again, the script of the launch before has ended by itself: its thread
  is still there, and was not just stopped. -/
  ended : ∀ before time name path script args mid time' name' script' args' after,
    op.moves now s = before ++ (time, .enroll name path script args) :: mid ++
        (time', .enroll name' path script' args') :: after →
      ∃ t, (replay (before ++ (time, .enroll name path script args) :: mid) s).threads.find?
          (replay before s).nextPid = some t ∧ t.isTerminated = true
  /-- All threads together make no more steps than the options allow to each thread that the
  operation goes through, and once more for each launch. -/
  bounded : work (op.moves now s) s ≤
    s.options.turbo * ((op.snapshot s).length + (Move.launched (op.moves now s)).length)

namespace Scheduler

variable {s : Scheduler L}

/-- A script whose path is free has ended. -/
theorem ended_of_rejectLive (hacc : s.Accord) (hsingle : s.table.SinglePaths) {p : Pid}
    {t : Thread L} {path : String} (hfree : s.rejectLive path = .ok ())
    (hfind : s.threads.find? p = some t)
    (hpath : ∀ e, s.table.find? p = some e → e.path = path) : t.isTerminated = true := by
  by_contra hscript
  obtain ⟨e, he, hdesc⟩ := entry_of_script hfind (hacc.slots p) (by simpa using hscript)
  have hover := over_of_rejectLive hsingle (hpath e he ▸ hfree) (Roster.mem_of_find? he)
  exact absurd (hdesc.isLive.symm.trans hover) nofun

end Scheduler

/-- **When the path of a launch is free again, the launched script has ended**, as long as no thread
is removed. -/
theorem Path.ended_of_free {s s' : Scheduler L} {name path : String} {script : L.Script}
    {args : List String} {moves : List (Millis × Move L)}
    (hfits : (Move.enroll name path script args).Fits s) (hacc : s.Accord)
    (h : Path ((Move.enroll name path script args).apply now s) moves s')
    (hkept : reaped moves = []) (hsingle : s'.table.SinglePaths)
    (hfree : s'.rejectLive path = .ok ()) :
    ∃ t, s'.threads.find? s.nextPid = some t ∧ t.isTerminated = true := by
  have hacc' := Move.accord hfits hacc now
  have hborn := (Move.mem_livePids hfits hacc now s.nextPid).mpr
    (.inl ⟨Nat.le_refl _, Nat.lt_succ_self _⟩)
  obtain ⟨t, hfind⟩ := Option.isSome_iff_exists.mp
    (Scheduler.mem_livePids.mp (h.stays hacc' hkept hborn))
  have hentry := Scheduler.find?_enroll s now name path script args s.nextPid
  rw [if_pos rfl] at hentry
  exact ⟨t, hfind, Scheduler.ended_of_rejectLive (h.accord hacc') hsingle hfree hfind
    fun e he => (h.sameRun hacc' hentry he).path⟩

theorem launch_over {s : Scheduler L} (hacc : s.Accord) (hsingle : s.table.SinglePaths)
    {op : Operation L} {before mid after : List (Millis × Move L)} {time time' : Millis}
    {name path name' : String} {script script' : L.Script} {args args' : List String}
    (hmoves : op.moves now s = before ++ (time, .enroll name path script args) :: mid ++
      (time', .enroll name' path script' args') :: after) :
    ∃ t, (replay (before ++ (time, .enroll name path script args) :: mid) s).threads.find?
        (replay before s).nextPid = some t ∧ t.isTerminated = true := by
  have hinner := Operation.inner_of_enroll hmoves
  have hpath := (path_perform now op s).1
  rw [hmoves] at hpath
  obtain ⟨hpast, hagain⟩ := hpath.split
  have hsingle' := hpast.singlePaths hacc hsingle
  have hfree : (replay (before ++ (time, .enroll name path script args) :: mid) s).rejectLive
      path = .ok () := by
    cases hagain with
    | cons _ hfits _ => exact hfits.2
  obtain ⟨hbefore, hlaunch⟩ := hpast.split
  -- the thread of the first launch is not removed before the second one
  have hkept : reaped mid = [] :=
    reaped_eq_nil fun x hx => Move.reaped?_of_inner
      (hinner x (List.mem_append_right _ (List.mem_cons_of_mem _ hx)))
  cases hlaunch with
  | cons _ hfits hmid =>
    exact hmid.ended_of_free hfits (hbefore.accord hacc) hkept hsingle' hfree

theorem work_le_of_round {s : Scheduler L} (hacc : s.Accord) {op : Operation L}
    (hop : ∀ turbo, op ≠ .setTurbo turbo) :
    work (op.moves now s) s ≤
      s.options.turbo * ((op.snapshot s).length + (Move.launched (op.moves now s)).length) := by
  have hpath := (path_perform now op s).1
  have hround := op.round now s hop
  obtain ⟨hnodup, hold⟩ := op.snapshot_spec hacc
  obtain ⟨-, honce, hwho⟩ := hround.served_spec hnodup hold
  have hserved : Move.served (op.moves now s) ⊆
      op.snapshot s ++ List.range' s.nextPid (Move.launched (op.moves now s)).length := by
    intro p hp
    have hmem := hwho p hp
    rw [hpath.nextPid_eq] at hmem
    exact List.mem_append.mpr (hmem.imp_right List.mem_range'_1.mpr)
  have hlength := (honce.subperm hserved).length_le
  rw [List.length_append, List.length_range'] at hlength
  calc work (op.moves now s) s
      ≤ (Move.served (op.moves now s)).length * s.options.turbo :=
        work_le hround.keeps_turbo s
    _ ≤ ((op.snapshot s).length + (Move.launched (op.moves now s)).length) * s.options.turbo :=
        Nat.mul_le_mul_right _ hlength
    _ = _ := Nat.mul_comm _ _

/-- **The law of launches holds in every operation of every run**, whatever the scripts ask for. -/
theorem launch_law_of_create (options : SchedulerOptions) (library : ScriptLibrary)
    (searchPath : List ScriptPath) (world : L.World) (start : Millis) (clock : Clock)
    (ops : List (Millis × Operation L)) (now : Millis) (op : Operation L) :
    LaunchLaw now op (performAll ops
      (Scheduler.create (L := L) options library searchPath world start clock)) := by
  have hpath := path_history ops
    (Scheduler.create (L := L) options library searchPath world start clock)
  have hacc₀ := Scheduler.accord_create (L := L) options library searchPath world start clock
  have hacc := hpath.accord hacc₀
  have hsingle := hpath.singlePaths hacc₀ List.nodup_nil
  generalize performAll ops _ = s at hacc hsingle ⊢
  refine ⟨(path_perform now op s).1, ?_, ?_⟩
  · intro before time name path script args mid time' name' script' args' after hmoves
    exact launch_over hacc hsingle hmoves
  · by_cases hop : ∃ turbo, op = .setTurbo turbo
    · obtain ⟨turbo, rfl⟩ := hop
      exact Nat.zero_le _
    · exact work_le_of_round hacc fun turbo h => hop ⟨turbo, h⟩

namespace StepScript

/-- A script that, given an argument, starts itself again without one. -/
def relay : String := "ifset 1 again\nreturn\n:again\nrun relay\nreturn"

/-- A scheduler with the relay on its search path, in which a thread may make three steps in a
heartbeat. -/
def relayStart : Scheduler (language Unit) :=
  .create { turbo := 3 } (.ofFiles (.ofList [(⟨"/scripts/relay.step"⟩, relay)]) "step")
    [⟨"/scripts"⟩] () 0

/-- A start of the relay launches its path twice. Together the two runs make five steps, where no
thread is live and one path is started, so that a single allowance would be three. -/
theorem relay_starts_twice :
    let start : Operation (language Unit) := .run "relay" ["x"]
    Move.launched (start.moves 0 relayStart) = ["/scripts/relay.step", "/scripts/relay.step"] ∧
      work (start.moves 0 relayStart) relayStart = 5 ∧
      relayStart.options.turbo *
        (relayStart.livePids.length + (Move.launched (start.moves 0 relayStart)).dedup.length) =
          3 := by
  decide +kernel

end StepScript

end Heartbeat

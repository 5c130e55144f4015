import Heartbeat.Proofs.Scheduler.History

/-!
# Services and starts

What services and starts lead to, on requests nested to any depth, is a part of what a scheduler can
do: threads are launched, serviced, paused, resumed and marked, and requests are refused. In a
heartbeat no thread is removed and no entry is collected before the services are over.

* `Move.isInner`: the moves that services and starts make.
* `inner_spawn`: starts on request make such moves, whatever their depth.
* `inner_serviceAllMoves`: so do the services of a heartbeat.
* `Operation.inner_of_enroll`: so does every operation up to its last launch.
-/

namespace Heartbeat

variable {L : Language} {now : Millis}

/-- Whether services and starts make a move. -/
def Move.isInner : Move L → Bool
  | .enroll _ _ _ _ | .forget _ | .serve _ | .refuse _ | .mark _ | .pause _ | .resume _ => true
  | _ => false

theorem Move.inner_of_control {moves : List (Millis × Move L)}
    (h : ∀ x ∈ moves, x.2.isControl = true) : ∀ x ∈ moves, x.2.isInner = true := by
  rintro ⟨time, m⟩ hm
  have hcontrol := h _ hm
  cases m with
  | mark | pause | resume | refuse => rfl
  | _ => exact absurd hcontrol nofun

namespace Scheduler

/-- The starts that requests ask for make inner moves. -/
def Inner (moves : SpawnMoves L) : Prop :=
  ∀ now identity args s, ∀ x ∈ moves now identity args s, x.2.isInner = true

section Inner

variable {spawn : Spawn L} {moves : SpawnMoves L} (h : Inner moves)

include h

theorem inner_requestMoves (now : Millis) (s : Scheduler L) (request : Request) :
    ∀ x ∈ requestMoves spawn moves now s request, x.2.isInner = true := by
  cases request with
  | stop target =>
    exact Move.inner_of_control
      (List.forall_mem_append.mpr ⟨control_stopMoves s target, control_refusal _⟩)
  | pause target =>
    exact Move.inner_of_control
      (List.forall_mem_append.mpr ⟨control_pauseMoves s target, control_refusal _⟩)
  | run script args =>
    exact List.forall_mem_append.mpr
      ⟨h _ script args s, Move.inner_of_control (control_refusal _)⟩

theorem inner_requestsMoves (now : Millis) (requests : List Request) (s : Scheduler L) :
    ∀ x ∈ requestsMoves spawn moves now requests s, x.2.isInner = true := by
  induction requests generalizing s with
  | nil => nofun
  | cons request requests ih =>
    exact List.forall_mem_append.mpr ⟨inner_requestMoves h now s request, ih _⟩

theorem inner_serviceMoves (now : Millis) (pid : Pid) (s : Scheduler L) :
    ∀ x ∈ serviceMoves spawn moves now pid s, x.2.isInner = true := by
  unfold serviceMoves
  split
  · nofun
  · split
    · nofun
    · exact List.forall_mem_cons.mpr ⟨rfl, inner_requestsMoves h now _ _⟩

theorem inner_launchMoves (now : Millis) (name path : String) (script : L.Script)
    (args : List String) (s : Scheduler L) :
    ∀ x ∈ launchMoves spawn moves now name path script args s, x.2.isInner = true := by
  unfold launchMoves
  split
  · exact List.forall_mem_singleton.mpr rfl
  · exact List.forall_mem_cons.mpr ⟨rfl, inner_serviceMoves h now _ _⟩

theorem inner_startWithMoves (now : Millis) (identity : String) (searchPath : List ScriptPath)
    (args : List String) (s : Scheduler L) :
    ∀ x ∈ startWithMoves spawn moves now identity searchPath args s, x.2.isInner = true := by
  unfold startWithMoves
  split
  · nofun
  · split
    · nofun
    · split
      · nofun
      · exact inner_launchMoves h now identity _ _ args s

end Inner

/-- **Starts on request make inner moves**, whatever their depth. -/
theorem inner_spawnWithin (depth : Nat) : Inner (L := L) (spawnMovesWithin depth) := by
  induction depth with
  | zero => exact fun _ _ _ _ _ hm => absurd hm List.not_mem_nil
  | succ depth ih =>
    intro now identity args s
    unfold spawnMovesWithin
    exact inner_startWithMoves ih now identity s.searchPath args s

theorem inner_spawn : Inner (L := L) spawnMoves := inner_spawnWithin Pid.limit

theorem inner_startScriptMoves (now : Millis) (name label : String) (script : L.Script)
    (args : List String) (s : Scheduler L) :
    ∀ x ∈ s.startScriptMoves now name label script args, x.2.isInner = true := by
  unfold startScriptMoves
  split
  · nofun
  · exact inner_launchMoves inner_spawn now name label script args s

theorem inner_parseMoves (now : Millis) (source : String) (s : Scheduler L) :
    ∀ x ∈ s.parseMoves now source, x.2.isInner = true := by
  unfold parseMoves
  split
  · nofun
  · split
    · nofun
    · exact inner_launchMoves inner_spawn now parseName parseName _ [] s

theorem inner_serviceAllMoves (now : Millis) (pids : List Pid) (s : Scheduler L) :
    ∀ x ∈ serviceAllMoves now pids s, x.2.isInner = true := by
  induction pids generalizing s with
  | nil => nofun
  | cons pid pids ih =>
    exact List.forall_mem_append.mpr ⟨inner_serviceMoves inner_spawn now pid s, ih _⟩

end Scheduler

namespace Operation

/-- **What an operation does before a launch is inner**: a heartbeat removes threads and collects
entries when all its services are over. -/
theorem inner_of_enroll {op : Operation L} {s : Scheduler L}
    {before after : List (Millis × Move L)} {time : Millis} {name path : String}
    {script : L.Script} {args : List String}
    (hmoves : op.moves now s = before ++ (time, .enroll name path script args) :: after) :
    ∀ x ∈ before, x.2.isInner = true := by
  have hmem : (time, .enroll name path script args) ∈ op.moves now s := by
    rw [hmoves]
    exact List.mem_append_right _ List.mem_cons_self
  have hinner : (∀ x ∈ op.moves now s, x.2.isInner = true) → ∀ x ∈ before, x.2.isInner = true :=
    fun h x hx => h x (hmoves ▸ List.mem_append_left _ hx)
  cases op with
  | run identity args =>
    refine hinner ?_
    unfold moves
    exact Scheduler.inner_startWithMoves Scheduler.inner_spawn now identity s.searchPath args s
  | start identity searchPath args =>
    refine hinner ?_
    unfold moves
    exact Scheduler.inner_startWithMoves Scheduler.inner_spawn now identity searchPath args s
  | startScript name label script args =>
    exact hinner (Scheduler.inner_startScriptMoves now name label script args s)
  | parse source => exact hinner (Scheduler.inner_parseMoves now source s)
  | tick =>
    -- the launch is among the services, since the moves behind them launch nobody
    simp only [moves, Scheduler.tickMoves, List.append_assoc] at hmoves
    rcases List.append_eq_append_iff.mp hmoves with ⟨rest, hbefore, hrest⟩ | ⟨rest, hservices, -⟩
    · have hlast : (time, Move.enroll name path script args) ∈
          rest ++ (time, .enroll name path script args) :: after :=
        List.mem_append_right _ List.mem_cons_self
      rw [← hrest] at hlast
      rcases List.mem_append.mp hlast with hlast | hlast
      · exact absurd (Scheduler.clearance_sweepMoves _ _ hlast) nofun
      · exact absurd (Scheduler.clearance_collectIfDueMoves now _ _ hlast) nofun
    · intro x hx
      refine Scheduler.inner_serviceAllMoves now s.livePids s x ?_
      rw [hservices]
      exact List.mem_append_left _ hx
  | stop target => exact absurd (Scheduler.control_stopMoves s target _ hmem) nofun
  | stopAll => exact absurd (Scheduler.control_stopMoves s .all _ hmem) nofun
  | pause target => exact absurd (Scheduler.control_pauseMoves s target _ hmem) nofun
  | toggleAll => exact absurd (Scheduler.control_toggleAllMoves s _ hmem) nofun
  | collectGarbage => exact absurd (Scheduler.clearance_collectGarbageMoves s _ hmem) nofun
  | feed | setTurbo | drainStatus | outside => exact absurd (List.mem_singleton.mp hmem) nofun

end Operation

end Heartbeat

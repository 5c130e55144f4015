import Heartbeat.Proofs.Scheduler.Evolution

/-!
# Rows of moves without starts

Where the host starts no script and feeds no line, and no script asks for the start of another one,
no move enrolls a thread or feeds a line: threads are serviced, paused, resumed, stopped and
removed, and that is all.

* `Move.IsCalm`, `Operation.IsCalm`: such moves and operations.
* `Path.isTame`: the scripts stay tame in calm moves.
* `calm_moves`: calm operations of tame scripts make calm moves.
-/

namespace Heartbeat

variable {L : Language} {now : Millis} {tame : L.Script → Prop} {s s' : Scheduler L}

/-- The move enrolls no thread, makes no room for one, and feeds no line. -/
def Move.IsCalm : Move L → Prop
  | .enroll _ _ _ _ | .forget _ | .feed _ => False
  | _ => True

/-- The host neither starts a script nor feeds a line. -/
def Operation.IsCalm : Operation L → Prop
  | .run _ _ | .start _ _ _ | .startScript _ _ _ _ | .parse _ | .feed _ => False
  | _ => True

instance : (op : Operation L) → Decidable op.IsCalm
  | .run _ _ | .start _ _ _ | .startScript _ _ _ _ | .parse _ | .feed _ => .isFalse id
  | .tick | .stop _ | .stopAll | .pause _ | .toggleAll | .setTurbo _ | .collectGarbage
  | .drainStatus | .outside _ _ => .isTrue trivial

section Tame

variable (h : L.IsInsular Request.IsCalm tame)

include h

/-- A calm move keeps a script tame. -/
theorem Move.IsCalm.isTame {m : Move L} (hcalm : m.IsCalm) (hfits : m.Fits s) (ht : s.IsTame tame)
    (now : Millis) : (m.apply now s).IsTame tame := by
  intro p
  rw [Scheduler.view_apply hfits]
  have htp := ht p
  cases m with
  | enroll | forget | feed => exact absurd hcalm id
  | serve pid =>
    simp only [View.behind]
    split
    · rename_i hp
      obtain rfl : p = pid := hp
      have hserve : (s.view p).service now s.world = (s.view p).serve now s.world :=
        if_pos ((Scheduler.isActive_view s p).mpr hfits)
      exact hserve ▸ htp.service h now s.world
    · exact htp
  | mark pid =>
    simp only [View.behind]
    split
    · exact htp.abandon
    · exact htp
  | pause pid | resume pid =>
    simp only [View.behind]
    split
    · exact htp.changeState _
    · exact htp
  | reap pid =>
    simp only [View.behind]
    split
    · exact View.isTame_reap _ now
    · exact htp
  | _ => exact htp

/-- So does a row of calm moves. -/
theorem Path.isTame {moves : List (Millis × Move L)} (hpath : Path s moves s')
    (hcalm : ∀ x ∈ moves, x.2.IsCalm) (ht : s.IsTame tame) : s'.IsTame tame := by
  induction hpath with
  | nil => exact ht
  | cons now hfits _ ih =>
    obtain ⟨hfirst, hrest⟩ := List.forall_mem_cons.mp hcalm
    exact ih hrest (hfirst.isTame h hfits ht now)

end Tame

/-! ## The moves of the host and of requests -/

theorem Move.calm_of_control {moves : List (Millis × Move L)}
    (h : ∀ x ∈ moves, x.2.isControl = true) : ∀ x ∈ moves, x.2.IsCalm := by
  rintro ⟨time, m⟩ hm
  have hcontrol := h _ hm
  cases m with
  | enroll | forget | feed => exact absurd hcontrol nofun
  | _ => trivial

theorem Move.calm_of_clearance {moves : List (Millis × Move L)}
    (h : ∀ x ∈ moves, x.2.isClearance = true) : ∀ x ∈ moves, x.2.IsCalm := by
  rintro ⟨time, m⟩ hm
  have hclearance := h _ hm
  cases m with
  | enroll | forget | feed => exact absurd hclearance nofun
  | _ => trivial

namespace Scheduler

variable (spawn : Spawn L) (moves : SpawnMoves L)

theorem calm_requestsMoves (now : Millis) {requests : List Request}
    (hcalm : ∀ r ∈ requests, r.IsCalm) (s : Scheduler L) :
    ∀ x ∈ requestsMoves spawn moves now requests s, x.2.IsCalm := by
  induction requests generalizing s with
  | nil => nofun
  | cons r requests ih =>
    obtain ⟨hr, hrest⟩ := List.forall_mem_cons.mp hcalm
    refine List.forall_mem_append.mpr ⟨?_, ih hrest _⟩
    cases r with
    | stop target =>
      exact Move.calm_of_control
        (List.forall_mem_append.mpr ⟨control_stopMoves s target, control_refusal _⟩)
    | pause target =>
      exact Move.calm_of_control
        (List.forall_mem_append.mpr ⟨control_pauseMoves s target, control_refusal _⟩)
    | run script args => exact absurd hr id

section Tame

variable (h : L.IsInsular Request.IsCalm tame)

include h

/-- The service of a tame script makes calm moves. -/
theorem calm_serviceMoves (ht : s.IsTame tame) (now : Millis) (pid : Pid) :
    ∀ x ∈ serviceMoves spawn moves now pid s, x.2.IsCalm := by
  unfold serviceMoves
  split
  · nofun
  · rename_i t hfind
    split
    · nofun
    · rename_i hactive
      have hkept := Thread.kept_service h (ht pid t hfind) (by simpa using hactive) s.options.turbo
        (s.options.dispatch == .onResume) now s.world
      exact List.forall_mem_cons.mpr
        ⟨trivial, calm_requestsMoves spawn moves now hkept.requests _⟩

theorem calm_serviceAllMoves (ht : s.IsTame tame) (now : Millis) (pids : List Pid) :
    ∀ x ∈ serviceAllMoves now pids s, x.2.IsCalm := by
  induction pids generalizing s with
  | nil => nofun
  | cons pid pids ih =>
    have hfirst := calm_serviceMoves Scheduler.spawn spawnMoves h ht now pid
    refine List.forall_mem_append.mpr ⟨hfirst, ih ?_⟩
    exact (path_service traced_spawn now pid s).path.isTame h hfirst ht

theorem calm_tickMoves (ht : s.IsTame tame) (now : Millis) : ∀ x ∈ s.tickMoves now, x.2.IsCalm :=
  List.forall_mem_append.mpr
    ⟨List.forall_mem_append.mpr
      ⟨calm_serviceAllMoves h ht now _, Move.calm_of_clearance (clearance_sweepMoves _)⟩,
      Move.calm_of_clearance (clearance_collectIfDueMoves now _)⟩

end Tame

end Scheduler

/-- **Calm operations of tame scripts make calm moves**, whatever the scripts ask for. -/
theorem calm_moves (h : L.IsInsular Request.IsCalm tame) (ht : s.IsTame tame) {op : Operation L}
    (hop : op.IsCalm) (now : Millis) : ∀ x ∈ op.moves now s, x.2.IsCalm := by
  cases op with
  | run | start | startScript | parse | feed => exact absurd hop id
  | tick => exact Scheduler.calm_tickMoves h ht now
  | stop target => exact Move.calm_of_control (Scheduler.control_stopMoves s target)
  | stopAll => exact Move.calm_of_control (Scheduler.control_stopMoves s .all)
  | pause target => exact Move.calm_of_control (Scheduler.control_pauseMoves s target)
  | toggleAll => exact Move.calm_of_control (Scheduler.control_toggleAllMoves s)
  | collectGarbage =>
    exact Move.calm_of_clearance (Scheduler.clearance_collectGarbageMoves s)
  | setTurbo | drainStatus | outside => exact List.forall_mem_singleton.mpr trivial

/-- So do rows of them. -/
theorem calm_history (h : L.IsInsular Request.IsCalm tame) (ht : s.IsTame tame)
    {ops : List (Millis × Operation L)} (hops : ∀ x ∈ ops, x.2.IsCalm) :
    ∀ x ∈ history ops s, x.2.IsCalm := by
  induction ops generalizing s with
  | nil => exact fun x hx => absurd hx List.not_mem_nil
  | cons x ops ih =>
    obtain ⟨hop, hops⟩ := List.forall_mem_cons.mp hops
    have hfirst := calm_moves h ht hop x.1
    exact List.forall_mem_append.mpr
      ⟨hfirst, ih ((path_perform x.1 x.2 s).1.isTame h hfirst ht) hops⟩

/-- Calm moves hand out no identifier. -/
theorem Path.nextPid_of_calm {moves : List (Millis × Move L)} (hpath : Path s moves s')
    (hcalm : ∀ x ∈ moves, x.2.IsCalm) : s'.nextPid = s.nextPid := by
  induction hpath with
  | nil => rfl
  | @cons s s' m moves now hfits hrest ih =>
    obtain ⟨hfirst, hcalm⟩ := List.forall_mem_cons.mp hcalm
    have hnone : m.handsOut = 0 := by
      cases m with
      | enroll => exact absurd hfirst id
      | _ => rfl
    rw [ih hcalm, Move.nextPid_apply, hnone]
    rfl

end Heartbeat

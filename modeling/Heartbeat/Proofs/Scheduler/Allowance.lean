import Heartbeat.Proofs.Scheduler.Waiting
import Heartbeat.Proofs.Thread.Allowance

/-!
# The allowance of a heartbeat

The steps of a thread in a heartbeat are bounded by the steps that the options allow, whatever the
scripts do: the thread is serviced once at most, and one service makes no more steps than its fresh
allowance.

* `steps_timeline`: the steps of a thread in a row of moves.
* `allowance_law_of_create`: who is serviced in an operation, how, and with how many steps.
* `paused_sleeper_gets_nothing`: the allowance of a paused thread.
-/

namespace Heartbeat

variable {L : Language} {now : Millis} {s : Scheduler L} {p : Pid}

/-! ## The steps of a row of moves -/

/-- A service makes no more steps than the options allow. -/
theorem Scheduler.steps_deedsOf (s : Scheduler L) (now : Millis) (t : Thread L) :
    ((s.deedsOf now t).map Act.did).countP Act.isStep ≤ s.options.turbo := by
  have hlaw := Thread.service_law t s.options.turbo (s.options.dispatch == .onResume) now s.world
  have hsteps : ((s.deedsOf now t).map Act.did).countP Act.isStep =
      (s.deedsOf now t).countP Deed.isStep := by
    rw [List.countP_map]
    exact List.countP_congr fun deed _ => by cases deed <;> exact Iff.rfl
  rw [hsteps]
  exact Nat.le_trans hlaw.bounded (t.allowance_le _)

namespace Move

/-- A thread makes steps in a move only if it is serviced, and then no more than the options
allow. -/
theorem steps_acts (m : Move L) (now : Millis) (s : Scheduler L) (p : Pid) :
    (m.acts now s p).countP Act.isStep ≤ if m.served? = some p then s.options.turbo else 0 := by
  have hidle : ∀ {acts : List (Act L)} {bound : Nat}, (∀ act ∈ acts, act.isStep = false) →
      acts.countP Act.isStep ≤ bound := by
    intro acts bound h
    rw [List.countP_eq_zero.mpr fun act hact => by simp [h act hact]]
    exact Nat.zero_le _
  have hsingle : ∀ {q : Pid} (act : Act L), act.isStep = false →
      ∀ act' ∈ if p = q then [act] else [], act'.isStep = false := by
    intro q act hact
    split
    · exact List.forall_mem_singleton.mpr hact
    · nofun
  cases m with
  | serve q =>
    unfold acts
    by_cases hp : p = q
    · subst hp
      simp only [served?, if_true]
      cases s.threads.find? p with
      | none => exact Nat.zero_le _
      | some t => exact s.steps_deedsOf now t
    · simp only [if_neg hp]
      exact Nat.zero_le _
  | feed line =>
    unfold acts
    cases s.threads.find? p with
    | none => exact Nat.zero_le _
    | some t =>
      simp only
      split
      · exact Nat.zero_le _
      · exact hidle (List.forall_mem_singleton.mpr rfl)
  | enroll name path script args => exact hidle (hsingle _ rfl)
  | mark q | pause q | resume q | reap q => exact hidle (hsingle _ rfl)
  | _ => exact Nat.zero_le _

end Move

theorem options_replay {moves : List (Millis × Move L)}
    (h : ∀ x ∈ moves, ∀ turbo, x.2 ≠ .setTurbo turbo) (s : Scheduler L) :
    (replay moves s).options = s.options := by
  induction moves generalizing s with
  | nil => rfl
  | cons x moves ih =>
    rw [List.forall_mem_cons] at h
    exact (ih h.2 _).trans (Move.options_apply h.1 x.1 s)

/-- **The steps of a thread in a row of moves**: in each service no more than the options allow. -/
theorem steps_timeline {moves : List (Millis × Move L)}
    (h : ∀ x ∈ moves, ∀ turbo, x.2 ≠ .setTurbo turbo) (s : Scheduler L) (p : Pid) :
    (timeline p moves s).countP (fun x => x.2.isStep) ≤
      (Move.served moves).count p * s.options.turbo := by
  induction moves generalizing s with
  | nil => exact Nat.zero_le _
  | cons x moves ih =>
    obtain ⟨now, m⟩ := x
    rw [List.forall_mem_cons] at h
    have hfirst := Move.steps_acts m now s p
    have hrest := ih h.2 (m.apply now s)
    rw [Move.options_apply h.1] at hrest
    have hsplit : (timeline p ((now, m) :: moves) s).countP (fun x => x.2.isStep) =
        (m.acts now s p).countP Act.isStep +
          (timeline p moves (m.apply now s)).countP (fun x => x.2.isStep) := by
      show (((m.acts now s p).map (now, ·)) ++ _).countP _ = _
      rw [List.countP_append, List.countP_map]
      rfl
    have hcount : (Move.served ((now, m) :: moves)).count p =
        (Move.served moves).count p + if m.served? = some p then 1 else 0 := by
      unfold Move.served
      cases hserved : m.served? with
      | none => simp [hserved]
      | some q => simp [hserved, List.count_cons]
    rw [hsplit, hcount, Nat.add_mul, Nat.add_comm]
    refine Nat.add_le_add hrest (Nat.le_trans hfirst ?_)
    split
    · rw [Nat.one_mul]
    · exact Nat.zero_le _

/-! ## The law -/

/-- **The law of the allowance** in an operation at a time. -/
structure AllowanceLaw (now : Millis) (op : Operation L) (s : Scheduler L) : Prop where
  /-- The operation makes these moves, each when it may be made. -/
  leads : Path s (op.moves now s) (op.perform now s)
  /-- A heartbeat services threads that are live when it begins, in order. A thread that is
  launched meanwhile is serviced right behind its start, at the time of its launch. -/
  round : (∀ turbo, op ≠ .setTurbo turbo) →
    Round s.clock now (op.snapshot s) s.nextPid (op.moves now s) (op.perform now s).nextPid
  /-- No thread is serviced twice. -/
  once : (Move.served (op.moves now s)).Nodup
  /-- Every service is that of an active thread and obeys the law of services, with the allowance
  that the options have when the operation begins. -/
  services : ∀ before time p after, op.moves now s = before ++ (time, .serve p) :: after →
    ∃ t, (replay before s).threads.find? p = some t ∧ t.isActive = true ∧
      (replay before s).options = s.options ∧
      Thread.ServiceLaw t s.options.turbo (s.options.dispatch == .onResume) time
        (replay before s).world
  /-- No thread makes more steps than the options allow. -/
  steps : ∀ p, (timeline p (op.moves now s) s).countP (fun x => x.2.isStep) ≤ s.options.turbo

theorem allowance_law_of_round (hacc : s.Accord) {op : Operation L}
    (hop : ∀ turbo, op ≠ .setTurbo turbo) : AllowanceLaw now op s := by
  have hpath := (path_perform now op s).1
  have hround := op.round now s hop
  have honce := op.served_nodup hacc now
  refine ⟨hpath, fun _ => hround, honce, ?_, fun p => ?_⟩
  · intro before time p after hmoves
    rw [hmoves] at hpath
    obtain ⟨t, hfind, hactive⟩ : Move.Fits _ (.serve p) := by
      cases hpath.split.2 with
      | cons _ hfits _ => exact hfits
    have hkeeps : ∀ x ∈ before, ∀ turbo, x.2 ≠ .setTurbo turbo := fun x hx =>
      hround.keeps_turbo x (hmoves ▸ List.mem_append_left _ hx)
    exact ⟨t, hfind, hactive, options_replay hkeeps s, Thread.service_law t _ _ time _⟩
  · have hcount := List.nodup_iff_count_le_one.mp honce p
    calc (timeline p (op.moves now s) s).countP (fun x => x.2.isStep)
        ≤ (Move.served (op.moves now s)).count p * s.options.turbo :=
          steps_timeline hround.keeps_turbo s p
      _ ≤ 1 * s.options.turbo := Nat.mul_le_mul_right _ hcount
      _ = s.options.turbo := Nat.one_mul _

/-- **The law of the allowance holds in every operation of every run**, whatever the scripts do. -/
theorem allowance_law_of_create (options : SchedulerOptions) (library : ScriptLibrary)
    (searchPath : List ScriptPath) (world : L.World) (start : Millis) (clock : Clock)
    (ops : List (Millis × Operation L)) (now : Millis) (op : Operation L) :
    AllowanceLaw now op (performAll ops
      (Scheduler.create (L := L) options library searchPath world start clock)) := by
  have hacc := (path_history ops _).accord
    (Scheduler.accord_create (L := L) options library searchPath world start clock)
  generalize performAll ops _ = s at hacc ⊢
  by_cases hop : ∃ turbo, op = .setTurbo turbo
  · obtain ⟨turbo, rfl⟩ := hop
    refine ⟨(path_perform now _ s).1, fun h => absurd rfl (h turbo), List.nodup_nil, ?_,
      fun p => Nat.zero_le _⟩
    intro before time p after hmoves
    have hmem : (time, Move.serve p) ∈ Operation.moves now (.setTurbo turbo) s := by
      rw [hmoves]
      exact List.mem_append_right _ List.mem_cons_self
    exact absurd (List.mem_singleton.mp hmem) nofun
  · exact allowance_law_of_round hacc fun turbo h => hop ⟨turbo, h⟩

/-- A paused thread is serviced, but has no allowance: the heartbeat services the sleeper when it is
paused, with an allowance of zero steps where the options allow five hundred. -/
theorem paused_sleeper_gets_nothing :
    let s := performAll (sleeperOps.take 2) sleeperStart
    s.options.turbo = 500 ∧ Move.served (Operation.tick.moves 7 s) = [1] ∧
      (s.threads.find? 1).map (fun t => (t.beginTick s.options.turbo).budget) =
        some (.fresh 0) ∧
      ((Operation.tick.perform 7 s).threads.find? 1).map (·.budget) = some (.fresh 0) ∧
      Budget.fresh 0 ≠ .fresh s.options.turbo :=
  ⟨rfl, rfl, rfl, rfl, nofun⟩

end Heartbeat

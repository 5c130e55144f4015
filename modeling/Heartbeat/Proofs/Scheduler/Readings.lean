import Heartbeat.Proofs.Scheduler.Round

/-!
# The readings of the clock

A move has a time that the clock showed, when its operation began or for one of the launches in it.
So what a run asks of the clock is asked of its readings, and the times of the moves follow them. A
move behind a launch may have an earlier time than the launch, since the service goes on in which
the launch was asked for.

* `Round.times`: a move has the time of its round, or that of a launch in it.
* `mem_clockReadings`: the time of a move of a run is a reading.
* `Operation.le_times`: no move is earlier than its operation, if the clock does not go back.
* `clock_history`: the times of a run whose clock stands still in every operation.
-/

namespace Heartbeat

variable {L : Language} {now : Millis}

theorem launchTimes_subset {moves moves' : List (Millis × Move L)} (h : moves.Sublist moves') :
    launchTimes moves ⊆ launchTimes moves' :=
  (h.filterMap _).subset

/-! ## The times of an operation -/

section Grammar

variable {clock : Clock} {pids : List Pid} {n n' : Pid} {moves : List (Millis × Move L)}

theorem Errand.times (h : Errand clock now n moves n') :
    ∀ x ∈ moves, x.1 = now ∨ x.1 ∈ launchTimes moves := by
  induction h with
  | nil => nofun
  | plain hplain _ ih =>
    refine List.forall_mem_cons.mpr ⟨.inl rfl, fun x hx => ?_⟩
    exact (ih x hx).imp_right fun h => launchTimes_subset (List.sublist_cons_self _ _) h
  | @launched now n n' n'' name path script args moves moves' _ _ ih ih' =>
    have hlaunched : launchTimes ((clock n now, .enroll name path script args) ::
        (clock n now, .serve n) :: (moves ++ moves')) =
          clock n now :: (launchTimes moves ++ launchTimes moves') :=
      congrArg (clock n now :: ·) (launchTimes_append moves moves')
    rw [hlaunched]
    refine List.forall_mem_cons.mpr ⟨.inr List.mem_cons_self, List.forall_mem_cons.mpr
      ⟨.inr List.mem_cons_self, List.forall_mem_append.mpr ⟨fun x hx => .inr ?_, fun x hx => ?_⟩⟩⟩
    · rcases ih x hx with htime | htime
      · exact htime ▸ List.mem_cons_self
      · exact List.mem_cons_of_mem _ (List.mem_append_left _ htime)
    · exact (ih' x hx).imp_right fun h => List.mem_cons_of_mem _ (List.mem_append_right _ h)

theorem Errand.times_of_still (h : Errand .still now n moves n') : ∀ x ∈ moves, x.1 = now := by
  induction h with
  | nil => nofun
  | plain hplain _ ih => exact List.forall_mem_cons.mpr ⟨rfl, ih⟩
  | launched _ _ ih ih' =>
    exact List.forall_mem_cons.mpr ⟨rfl, List.forall_mem_cons.mpr ⟨rfl,
      List.forall_mem_append.mpr ⟨ih, ih'⟩⟩⟩

theorem Launch.times (h : Launch clock now n moves n') :
    ∀ x ∈ moves, x.1 = now ∨ x.1 ∈ launchTimes moves := by
  cases h with
  | refused => nofun
  | exhausted hlimit path => exact List.forall_mem_singleton.mpr (.inl rfl)
  | launched hlt herrand =>
    refine List.forall_mem_cons.mpr ⟨.inl rfl, List.forall_mem_cons.mpr ⟨.inl rfl, ?_⟩⟩
    exact fun x hx => (herrand.times x hx).imp_right (List.mem_cons_of_mem now)

theorem Launch.times_of_still (h : Launch .still now n moves n') : ∀ x ∈ moves, x.1 = now := by
  cases h with
  | refused => nofun
  | exhausted hlimit path => exact List.forall_mem_singleton.mpr rfl
  | launched hlt herrand =>
    exact List.forall_mem_cons.mpr ⟨rfl, List.forall_mem_cons.mpr ⟨rfl, herrand.times_of_still⟩⟩

/-- **A move has the time of its round, or that of a launch in it.** -/
theorem Round.times (h : Round clock now pids n moves n') :
    ∀ x ∈ moves, x.1 = now ∨ x.1 ∈ launchTimes moves := by
  induction h with
  | rest h => exact h.times
  | started h => exact h.times
  | passed _ ih => exact ih
  | @served pid n n' n'' pids moves moves' herrand _ ih =>
    have hlaunched : launchTimes ((now, .serve pid) :: (moves ++ moves')) =
        launchTimes moves ++ launchTimes moves' := launchTimes_append moves moves'
    rw [hlaunched]
    refine List.forall_mem_cons.mpr ⟨.inl rfl, List.forall_mem_append.mpr ⟨?_, ?_⟩⟩
    · exact fun x hx => (herrand.times x hx).imp_right (List.mem_append_left _)
    · exact fun x hx => (ih x hx).imp_right (List.mem_append_right _)

theorem Round.times_of_still (h : Round .still now pids n moves n') :
    ∀ x ∈ moves, x.1 = now := by
  induction h with
  | rest h => exact h.times_of_still
  | started h => exact h.times_of_still
  | passed _ ih => exact ih
  | served herrand _ ih =>
    exact List.forall_mem_cons.mpr ⟨rfl, List.forall_mem_append.mpr ⟨herrand.times_of_still, ih⟩⟩

end Grammar

namespace Operation

/-- **A move of an operation has its time, or that of a launch among its moves.** -/
theorem times (now : Millis) (op : Operation L) (s : Scheduler L) :
    ∀ x ∈ op.moves now s, x.1 ∈ now :: launchTimes (op.moves now s) := by
  by_cases hop : ∃ turbo, op = .setTurbo turbo
  · obtain ⟨turbo, rfl⟩ := hop
    exact List.forall_mem_singleton.mpr List.mem_cons_self
  · have hround := op.round now s fun turbo h => hop ⟨turbo, h⟩
    exact fun x hx => List.mem_cons.mpr (hround.times x hx)

/-- Where the clock stands still, all moves of an operation have its time. -/
theorem times_of_still (now : Millis) (op : Operation L) {s : Scheduler L}
    (hstill : s.clock = .still) : ∀ x ∈ op.moves now s, x.1 = now := by
  by_cases hop : ∃ turbo, op = .setTurbo turbo
  · obtain ⟨turbo, rfl⟩ := hop
    exact List.forall_mem_singleton.mpr rfl
  · have hround := op.round now s fun turbo h => hop ⟨turbo, h⟩
    rw [hstill] at hround
    exact hround.times_of_still

/-- **No move is earlier than its operation**, if the clock does not go back. -/
theorem le_times {op : Operation L} {s : Scheduler L}
    (hclock : ∀ time ∈ launchTimes (op.moves now s), now ≤ time) :
    ∀ x ∈ op.moves now s, now ≤ x.1 := by
  intro x hx
  rcases List.mem_cons.mp (op.times now s x hx) with htime | htime
  · exact Nat.le_of_eq htime.symm
  · exact hclock x.1 htime

end Operation

/-! ## The times of a run -/

section Runs

variable {ops : List (Millis × Operation L)} {s : Scheduler L}

theorem clockReadings_append (ops ops' : List (Millis × Operation L)) (s : Scheduler L) :
    clockReadings (ops ++ ops') s =
      clockReadings ops s ++ clockReadings ops' (performAll ops s) := by
  induction ops generalizing s with
  | nil => rfl
  | cons op ops ih =>
    simp only [List.cons_append, clockReadings, performAll, List.append_assoc]
    rw [ih]

/-- What the clock shows in an operation is not earlier than its time, and not later than what it
shows behind. -/
theorem clockReadings_cons {start : Millis} {op : Operation L}
    (hclock : (start :: clockReadings ((now, op) :: ops) s).Pairwise (· ≤ ·)) :
    start ≤ now ∧ (∀ time ∈ launchTimes (op.moves now s), now ≤ time) ∧
      (now :: clockReadings ops (op.perform now s)).Pairwise (· ≤ ·) := by
  obtain ⟨hstart, hrest⟩ := List.pairwise_cons.mp hclock
  obtain ⟨hnow, hlater, hbetween⟩ := List.pairwise_append.mp hrest
  refine ⟨hstart now List.mem_cons_self, (List.pairwise_cons.mp hnow).1, ?_⟩
  exact List.pairwise_cons.mpr ⟨hbetween now List.mem_cons_self, hlater⟩

/-- A reading of an operation in a run, and those before and behind it. -/
theorem clockReadings_split {start : Millis} {op : Operation L}
    {after : List (Millis × Operation L)}
    (hclock : (start :: clockReadings (ops ++ (now, op) :: after) s).Pairwise (· ≤ ·)) :
    (start :: clockReadings ops s ++ [now]).Pairwise (· ≤ ·) ∧
      (start :: clockReadings ((now, op) :: after) (performAll ops s)).Pairwise (· ≤ ·) := by
  rw [clockReadings_append] at hclock
  have hnow : [now].Sublist (clockReadings ((now, op) :: after) (performAll ops s)) :=
    List.singleton_sublist.mpr List.mem_cons_self
  exact ⟨hclock.sublist (((List.Sublist.refl _).append hnow).cons_cons start),
    hclock.sublist ((List.sublist_append_right _ _).cons_cons start)⟩

/-- **The time of a move of a run is a reading of the clock.** -/
theorem mem_clockReadings {x : Millis × Move L} (hx : x ∈ history ops s) :
    x.1 ∈ clockReadings ops s := by
  induction ops generalizing s with
  | nil => exact absurd hx List.not_mem_nil
  | cons op ops ih =>
    rcases List.mem_append.mp hx with hx | hx
    · exact List.mem_append_left _ (op.2.times op.1 s x hx)
    · exact List.mem_append_right _ (ih hx)

/-- Where the clock stands still, a move of a run has the time of an operation. -/
theorem exists_time_eq (hstill : s.clock = .still) {x : Millis × Move L}
    (hx : x ∈ history ops s) : ∃ y ∈ ops, y.1 = x.1 := by
  induction ops generalizing s with
  | nil => exact absurd hx List.not_mem_nil
  | cons op ops ih =>
    rcases List.mem_append.mp hx with hx | hx
    · exact ⟨op, List.mem_cons_self, (op.2.times_of_still op.1 hstill x hx).symm⟩
    · obtain ⟨y, hy, hxy⟩ := ih ((path_perform op.1 op.2 s).1.clock_eq.trans hstill) hx
      exact ⟨y, List.mem_cons_of_mem _ hy, hxy⟩

/-- **The times of a run whose clock stands still in every operation** and does not go back between
them. -/
theorem clock_history (hstill : s.clock = .still) (h : ops.Pairwise (·.1 ≤ ·.1)) :
    (history ops s).Pairwise (·.1 ≤ ·.1) := by
  induction ops generalizing s with
  | nil => exact .nil
  | cons op ops ih =>
    rw [List.pairwise_cons] at h
    have hnext := (path_perform op.1 op.2 s).1.clock_eq.trans hstill
    have hnow := op.2.times_of_still op.1 hstill
    refine List.pairwise_append.mpr ⟨?_, ih hnext h.2, fun x hx y hy => ?_⟩
    · exact List.pairwise_of_forall_mem_list fun x hx y hy => (hnow x hx).trans_le (hnow y hy).ge
    · obtain ⟨later, hlater, hy⟩ := exists_time_eq hnext hy
      rw [hnow x hx, ← hy]
      exact h.1 later hlater

end Runs

end Heartbeat

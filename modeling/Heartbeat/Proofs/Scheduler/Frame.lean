import Heartbeat.Proofs.Scheduler.Move

/-!
# What the moves leave alone

A scheduler carries a few things that hardly any move changes: the next identifier, the options, the
clock and the time of the last collection.

* `Scheduler.Frame`: what is done to threads and entries leaves them alone.
* `Move.frame`: so do all moves, but for a launch, a new allowance and a collection.
* `Path.nextPid_le`, `Path.retention_eq`, `Path.clock_eq`: the same along a path.
-/

namespace Heartbeat

variable {L : Language}

namespace Scheduler

/-- What is done to threads and entries leaves the next identifier, the options, the clock and the
time of the last collection alone. -/
structure Frame (s s' : Scheduler L) : Prop where
  nextPid : s'.nextPid = s.nextPid
  options : s'.options = s.options
  clock : s'.clock = s.clock
  lastCollection : s'.lastCollection = s.lastCollection

namespace Frame

theorem recordOutcome (s : Scheduler L) (q : Pid) (outcome : ThreadOutcome) (now : Millis) :
    s.Frame (s.recordOutcome q outcome now) := by
  unfold Scheduler.recordOutcome
  cases s.table.find? q <;> exact ⟨rfl, rfl, rfl, rfl⟩

theorem serve (now : Millis) (q : Pid) (s : Scheduler L) : s.Frame (s.serve now q) := by
  unfold Scheduler.serve
  cases s.threads.find? q with
  | none => exact ⟨rfl, rfl, rfl, rfl⟩
  | some t =>
    simp only
    unfold recordService
    split
    · rename_i outcome _
      have hrecord := recordOutcome (s.absorb (s.activityOf now t)) q outcome now
      exact ⟨hrecord.nextPid, hrecord.options, hrecord.clock, hrecord.lastCollection⟩
    · exact ⟨rfl, rfl, rfl, rfl⟩

theorem abandon (q : Pid) (s : Scheduler L) : s.Frame (s.abandon q) := by
  unfold Scheduler.abandon
  cases s.threads.find? q <;> exact ⟨rfl, rfl, rfl, rfl⟩

theorem changeState (change : ExecutionState L.Condition → ExecutionState L.Condition) (q : Pid)
    (s : Scheduler L) : s.Frame (s.changeState change q) := by
  unfold Scheduler.changeState
  cases s.threads.find? q <;> exact ⟨rfl, rfl, rfl, rfl⟩

theorem reap (now : Millis) (q : Pid) (s : Scheduler L) : s.Frame (s.reap now q) := by
  unfold Scheduler.reap
  cases s.threads.find? q with
  | none => exact ⟨rfl, rfl, rfl, rfl⟩
  | some t =>
    simp only
    split
    · exact ⟨rfl, rfl, rfl, rfl⟩
    · have hrecord := recordOutcome { s with threads := s.threads.erase q } q .stopped now
      exact ⟨hrecord.nextPid, hrecord.options, hrecord.clock, hrecord.lastCollection⟩

end Frame

end Scheduler

namespace Move

/-- How many identifiers are handed out in a move. -/
def handsOut : Move L → Nat
  | .enroll _ _ _ _ => 1
  | _ => 0

/-- A launch alone hands out an identifier, the host alone sets the allowance, and a collection
alone notes its time. -/
theorem frame {m : Move L} (hlaunch : m.handsOut = 0) (hset : ∀ turbo, m ≠ .setTurbo turbo)
    (hcollect : ∀ retention, m ≠ .collect retention) (now : Millis) (s : Scheduler L) :
    s.Frame (m.apply now s) := by
  cases m with
  | enroll name path script args => exact absurd hlaunch nofun
  | setTurbo turbo => exact absurd rfl (hset turbo)
  | collect retention => exact absurd rfl (hcollect retention)
  | serve q => exact .serve now q s
  | mark q => exact .abandon q s
  | pause q => exact .changeState .pause q s
  | resume q => exact .changeState .resume q s
  | reap q => exact .reap now q s
  | _ => exact ⟨rfl, rfl, rfl, rfl⟩

theorem nextPid_apply (m : Move L) (now : Millis) (s : Scheduler L) :
    (m.apply now s).nextPid = s.nextPid + m.handsOut := by
  cases m with
  | enroll name path script args => rfl
  | setTurbo turbo => rfl
  | collect retention => rfl
  | _ => exact Scheduler.Frame.nextPid (frame rfl (by nofun) (by nofun) now s)

theorem options_apply {m : Move L} (hset : ∀ turbo, m ≠ .setTurbo turbo) (now : Millis)
    (s : Scheduler L) : (m.apply now s).options = s.options := by
  cases m with
  | enroll name path script args => rfl
  | collect retention => rfl
  | _ => exact Scheduler.Frame.options (frame rfl hset (by nofun) now s)

theorem lastCollection_apply {m : Move L} (hcollect : ∀ retention, m ≠ .collect retention)
    (now : Millis) (s : Scheduler L) : (m.apply now s).lastCollection = s.lastCollection := by
  cases m with
  | enroll name path script args => rfl
  | setTurbo turbo => rfl
  | _ => exact Scheduler.Frame.lastCollection (frame rfl (by nofun) hcollect now s)

/-- What the clock will show does not depend on what is done. -/
theorem clock_apply (m : Move L) (now : Millis) (s : Scheduler L) :
    (m.apply now s).clock = s.clock := by
  cases m with
  | enroll name path script args => rfl
  | setTurbo turbo => rfl
  | collect retention => rfl
  | _ => exact Scheduler.Frame.clock (frame rfl (by nofun) (by nofun) now s)

/-- A move changes no option but the allowance. -/
theorem exists_turbo (m : Move L) (now : Millis) (s : Scheduler L) :
    ∃ turbo, (m.apply now s).options = { s.options with turbo := turbo } := by
  by_cases hset : ∃ turbo, m = .setTurbo turbo
  · obtain ⟨turbo, rfl⟩ := hset
    exact ⟨_, rfl⟩
  · exact ⟨_, options_apply (fun turbo hm => hset ⟨turbo, hm⟩) now s⟩

/-- How long entries are kept does not change. -/
theorem retention_apply (m : Move L) (now : Millis) (s : Scheduler L) :
    (m.apply now s).options.retention? = s.options.retention? := by
  obtain ⟨turbo, hoptions⟩ := m.exists_turbo now s
  rw [hoptions]

theorem nextPid_le (m : Move L) (now : Millis) (s : Scheduler L) :
    s.nextPid ≤ (m.apply now s).nextPid := by
  rw [nextPid_apply]
  exact Nat.le_add_right _ _

end Move

namespace Path

variable {s s' : Scheduler L} {moves : List (Millis × Move L)}

theorem nextPid_le (h : Path s moves s') : s.nextPid ≤ s'.nextPid := by
  induction h with
  | nil => exact Nat.le_refl _
  | cons now _ _ ih => exact Nat.le_trans (Move.nextPid_le _ now _) ih

theorem nextPid_le_limit (h : Path s moves s') (hle : s.nextPid ≤ Pid.limit) :
    s'.nextPid ≤ Pid.limit := by
  induction h with
  | nil => exact hle
  | @cons s s' m moves now hfits _ ih =>
    refine ih ?_
    rw [Move.nextPid_apply]
    cases m with
    | enroll name path script args => exact hfits.1
    | _ => exact hle

theorem retention_eq (h : Path s moves s') : s'.options.retention? = s.options.retention? := by
  induction h with
  | nil => rfl
  | cons now _ _ ih => exact ih.trans (Move.retention_apply _ now _)

theorem clock_eq (h : Path s moves s') : s'.clock = s.clock := by
  induction h with
  | nil => rfl
  | cons now _ _ ih => exact ih.trans (Move.clock_apply _ now _)

end Path

end Heartbeat

import Heartbeat.Configuration.Basic
import Heartbeat.Proofs.Duration

/-!
# The retention that a configuration asks for

Settings that pass the check say how long finished entries are kept. The clock of the scheduler
counts in words of 64 bits, and a duration may be a thousand times longer than the number of seconds
that it is written with. Such a duration is cut down to its last 64 bits and is then kept shorter
than one that fits.

* `Duration.thousand_dvd_of_parse`: a duration of more than 64 bits is in whole seconds.
* `Configuration.retention_law_of_settings`: what the scheduler is given.
-/

namespace Heartbeat

open Heartbeat.Text

variable {s : Settings} {c : Configuration} {d : Millis} {text : String}

/-- A duration that does not fit in 64 bits was written in seconds or more. -/
theorem Duration.thousand_dvd_of_parse (h : parse text = .ok d) (hd : maxWord64 < d) :
    1000 ∣ d := by
  obtain ⟨n, unit, -, hn, -, rfl⟩ := parse_eq_ok_iff.mp h
  cases unit with
  | millisecond => exact absurd hd (by simpa [DurationUnit.millis] using hn)
  | second | minute | hour => exact Dvd.dvd.mul_left (Dvd.intro _ rfl) n

namespace Configuration

/-- Settings that pass the check have a retention; the configuration has it unless it is zero. -/
theorem retention?_of_ofSettings (h : ofSettings s = .ok c) :
    ∃ d, Duration.parse s.scheduler.retention = .ok d ∧
      c.retention? = if d = 0 then none else some d := by
  unfold ofSettings at h
  cases hparse : Duration.parse s.scheduler.retention with
  | error e => grind
  | ok d => exact ⟨d, rfl, by grind⟩

/-- The longest retention that fits in 64 bits and is not longer than a duration; none at all for
no time. -/
def fitting? (d : Millis) : Option Millis := if d = 0 then none else some (min d maxWord64)

/-- **The law of the retention** that a configuration was checked to have. -/
structure RetentionLaw (c : Configuration) (d : Millis) : Prop where
  /-- Entries are kept for good if and only if no time is asked for. -/
  forever_iff : c.schedulerOptions.retention? = none ↔ d = 0
  /-- Else, the last 64 bits are left of what is asked for. -/
  word : d ≠ 0 → c.schedulerOptions.retention? = some (d % 2 ^ 64)
  /-- They are what is asked for, as far as it fits, if and only if it does fit. -/
  fitting_iff : c.schedulerOptions.retention? = fitting? d ↔ d ≤ maxWord64
  /-- Else, entries are dropped too early. -/
  early : maxWord64 < d → ∃ kept < maxWord64, c.schedulerOptions.retention? = some kept

/-- **The scheduler is given the last 64 bits of the retention**, for all settings that pass the
check. -/
theorem retention_law_of_settings (h : ofSettings s = .ok c) :
    ∃ d, Duration.parse s.scheduler.retention = .ok d ∧ RetentionLaw c d := by
  obtain ⟨d, hparse, hretention⟩ := retention?_of_ofSettings h
  have hnone : d = 0 → c.schedulerOptions.retention? = none := by
    intro hd
    simp [schedulerOptions, hretention, hd]
  have hsome : d ≠ 0 → c.schedulerOptions.retention? = some (d % 2 ^ 64) := by
    intro hd
    simp [schedulerOptions, hretention, hd, maxWord64]
  -- the last bit of whole seconds is zero, so that they do not become the longest retention
  have hearly : maxWord64 < d → d % 2 ^ 64 < maxWord64 := by
    intro hd
    obtain ⟨seconds, rfl⟩ := Duration.thousand_dvd_of_parse hparse hd
    unfold maxWord64
    omega
  have hfits : d ≤ maxWord64 → d % 2 ^ 64 = d := fun hd =>
    Nat.mod_eq_of_lt (Nat.lt_succ_of_le hd)
  refine ⟨d, hparse, ⟨fun hforever => ?_, hnone⟩, hsome, ⟨fun hfitting => ?_, fun hd => ?_⟩, ?_⟩
  · by_contra hd
    rw [hsome hd] at hforever
    cases hforever
  · by_contra hd
    have hlong := Nat.lt_of_not_le hd
    have hzero : d ≠ 0 := Nat.ne_of_gt (Nat.zero_lt_of_lt hlong)
    rw [hsome hzero, fitting?, if_neg hzero, Nat.min_eq_right hlong.le] at hfitting
    exact absurd (Option.some.inj hfitting) (hearly hlong).ne
  · by_cases hzero : d = 0
    · rw [hnone hzero, fitting?, if_pos hzero]
    · rw [hsome hzero, fitting?, if_neg hzero, hfits hd, Nat.min_eq_left hd]
  · exact fun hd => ⟨_, hearly hd, hsome (Nat.ne_of_gt (Nat.zero_lt_of_lt hd))⟩

/-- Settings with the retention `2 ^ 61` seconds. -/
def centuries : Settings := { scheduler := { retention := "2305843009213693952s" } }

/-- Retention of `2 ^ 61` seconds. -/
theorem retention_law_of_centuries : ∃ c, ofSettings centuries = .ok c ∧
    ∃ d, Duration.parse centuries.scheduler.retention = .ok d ∧ RetentionLaw c d := by
  have h : ofSettings centuries = .ok { retention? := some 2305843009213693952000 } := by
    decide +kernel
  exact ⟨_, h, retention_law_of_settings h⟩

/-- **What is to be kept for an age is dropped at once**: `2 ^ 61` seconds pass the check, and no
time at all is left of them, where a millisecond would stay a millisecond. -/
theorem retention_lost : ∃ c, ofSettings centuries = .ok c ∧
    Duration.parse centuries.scheduler.retention = .ok (1000 * 2 ^ 61) ∧
      c.schedulerOptions.retention? = some 0 ∧ fitting? (1000 * 2 ^ 61) = some maxWord64 :=
  ⟨{ retention? := some 2305843009213693952000 }, by decide +kernel, by decide +kernel,
    by decide +kernel, by decide +kernel⟩

end Configuration

end Heartbeat

import Heartbeat.Event.Queue
import Mathlib.Data.List.Basic

/-!
# What a row of pushes leaves

Entries leave a queue at its front only: a push onto a full queue drops the oldest entries, and
counts them.

* `EventQueue.push_spec`: a push drops the oldest entries, those that it counts.
* `EventQueue.pushAll_spec`: so does a row of pushes.
* `EventQueue.pushAll_of_fits`: as many as do not fit, if the queue was not too long before.
-/

namespace Heartbeat

namespace EventQueue

variable {α : Type}

/-- A push drops the oldest entries: as many as it counts, and none without a limit. -/
theorem push_spec (q : EventQueue α) (entry : α) :
    ∃ k ≤ q.entries.length, (q.push entry).entries = (q.entries ++ [entry]).drop k ∧
      (q.push entry).dropped = q.dropped + k ∧ (q.limit? = none → k = 0) := by
  refine ⟨min q.excess q.entries.length, Nat.min_le_right _ _, ?_, rfl, fun h => ?_⟩
  · rw [List.drop_append_of_le_length (Nat.min_le_right _ _)]
    show q.entries.drop q.excess ++ [entry] = _
    congr 1
    rcases Nat.le_total q.excess q.entries.length with hle | hle
    · rw [Nat.min_eq_left hle]
    · rw [Nat.min_eq_right hle, List.drop_eq_nil_of_le hle, List.drop_length]
  · unfold excess
    rw [h]
    exact Nat.zero_min _

/-- **A row of pushes drops the oldest of the old and new entries**, as many as it counts, and none
without a limit. -/
theorem pushAll_spec (q : EventQueue α) (entries : List α) :
    ∃ k ≤ (q.entries ++ entries).length,
      (q.pushAll entries).entries = (q.entries ++ entries).drop k ∧
      (q.pushAll entries).dropped = q.dropped + k ∧ (q.limit? = none → k = 0) := by
  induction entries generalizing q with
  | nil => exact ⟨0, Nat.zero_le _, by simp [pushAll], rfl, fun _ => rfl⟩
  | cons entry entries ih =>
    obtain ⟨k, hle, hentries, hdropped, hfree⟩ := q.push_spec entry
    obtain ⟨k', hle', hentries', hdropped', hfree'⟩ := ih (q.push entry)
    have hsplit : (q.push entry).entries ++ entries = (q.entries ++ entry :: entries).drop k := by
      rw [hentries, ← List.drop_append_of_le_length (by simpa using Nat.le_succ_of_le hle),
        List.append_assoc]
      rfl
    rw [hsplit] at hentries' hle'
    refine ⟨k + k', ?_, ?_, ?_, fun h => ?_⟩
    · rw [List.length_drop] at hle'
      simp only [List.length_append, List.length_cons] at hle' ⊢
      omega
    · show ((q.push entry).pushAll entries).entries = _
      rw [hentries', List.drop_drop]
    · show ((q.push entry).pushAll entries).dropped = _
      rw [hdropped', hdropped, Nat.add_assoc]
    · rw [hfree h, hfree' h]

theorem limit_pushAll (q : EventQueue α) (entries : List α) :
    (q.pushAll entries).limit? = q.limit? := by
  induction entries generalizing q with
  | nil => rfl
  | cons entry entries ih => exact ih (q.push entry)

/-- What is pushed waits in the queue or has been dropped. -/
theorem size_pushAll (q : EventQueue α) (entries : List α) :
    (q.pushAll entries).size + (q.pushAll entries).dropped =
      q.size + q.dropped + entries.length := by
  obtain ⟨k, hle, hentries, hdropped, -⟩ := q.pushAll_spec entries
  unfold size
  rw [hentries, hdropped, List.length_drop]
  rw [List.length_append] at hle ⊢
  omega

/-- How many of a number of entries are too many. -/
def overflow (q : EventQueue α) (count : Nat) : Nat :=
  match q.limit? with
  | some limit => count - limit
  | none => 0

/-- The limit leaves room for an entry, and there are no more entries than it allows. -/
def Fits (q : EventQueue α) : Prop :=
  ∀ limit, q.limit? = some limit → 0 < limit ∧ q.entries.length ≤ limit

theorem fits_empty (limit? : Option Nat) : (empty (α := α) limit?).Fits := by
  intro limit h
  obtain ⟨n, -, rfl⟩ := Option.map_eq_some_iff.mp h
  exact ⟨Nat.lt_of_lt_of_le Nat.zero_lt_one (Nat.le_max_left _ _), Nat.zero_le _⟩

/-- A queue with no more entries fits as well. -/
theorem Fits.of_length_le {q q' : EventQueue α} (h : q.Fits) (hlimit : q'.limit? = q.limit?)
    (hlength : q'.entries.length ≤ q.entries.length) : q'.Fits := by
  intro limit hl
  rw [hlimit] at hl
  exact ⟨(h limit hl).1, Nat.le_trans hlength (h limit hl).2⟩

theorem excess_le {q : EventQueue α} (h : q.Fits) : q.excess ≤ q.entries.length := by
  unfold excess
  cases hlimit : q.limit? with
  | none => exact Nat.zero_le _
  | some limit =>
    have hroom := (h limit hlimit).1
    show q.entries.length + 1 - limit ≤ _
    omega

theorem length_push {q : EventQueue α} (h : q.Fits) (entry : α) :
    (q.push entry).entries.length = q.entries.length + 1 - q.overflow (q.entries.length + 1) := by
  have hle := excess_le h
  show (q.entries.drop q.excess ++ [entry]).length = q.entries.length + 1 - q.excess
  rw [List.length_append, List.length_drop]
  exact (Nat.sub_add_comm hle).symm

theorem fits_push {q : EventQueue α} (h : q.Fits) (entry : α) : (q.push entry).Fits := by
  intro limit hlimit
  have hlength := length_push h entry
  have hsame : q.limit? = some limit := hlimit
  unfold overflow at hlength
  rw [hsame] at hlength
  obtain ⟨hroom, hle⟩ := h limit hsame
  exact ⟨hroom, by simp only at hlength; omega⟩

/-- As many entries are left as fit. -/
theorem length_pushAll {q : EventQueue α} (h : q.Fits) (entries : List α) :
    (q.pushAll entries).entries.length =
      (q.entries ++ entries).length - q.overflow (q.entries ++ entries).length := by
  induction entries generalizing q with
  | nil =>
    have hnone : q.overflow q.entries.length = 0 := by
      unfold overflow
      cases hlimit : q.limit? with
      | none => rfl
      | some limit => exact Nat.sub_eq_zero_of_le (h limit hlimit).2
    rw [List.append_nil, hnone]
    rfl
  | cons entry entries ih =>
    have hpush := length_push h entry
    show ((q.push entry).pushAll entries).entries.length = _
    rw [ih (fits_push h entry)]
    show ((q.push entry).entries ++ entries).length -
      q.overflow ((q.push entry).entries ++ entries).length = _
    simp only [List.length_append, List.length_cons, hpush]
    unfold overflow
    cases hlimit : q.limit? with
    | none => simp only; omega
    | some limit =>
      obtain ⟨hroom, hle⟩ := h limit hlimit
      simp only
      omega

theorem fits_pushAll {q : EventQueue α} (h : q.Fits) (entries : List α) :
    (q.pushAll entries).Fits := by
  induction entries generalizing q with
  | nil => exact h
  | cons entry entries ih => exact ih (fits_push h entry)

/-- **A row of pushes drops just as many as do not fit.** -/
theorem pushAll_of_fits {q : EventQueue α} (h : q.Fits) (entries : List α) :
    (q.pushAll entries).entries =
        (q.entries ++ entries).drop (q.overflow (q.entries ++ entries).length) ∧
      (q.pushAll entries).dropped = q.dropped + q.overflow (q.entries ++ entries).length := by
  obtain ⟨k, hle, hentries, hdropped, -⟩ := q.pushAll_spec entries
  have hlength := length_pushAll h entries
  have hbound : q.overflow (q.entries ++ entries).length ≤ (q.entries ++ entries).length := by
    unfold overflow
    cases q.limit? with
    | none => exact Nat.zero_le _
    | some limit => exact Nat.sub_le _ _
  -- what is left says how many were dropped
  rw [hentries, List.length_drop] at hlength
  obtain rfl : k = q.overflow (q.entries ++ entries).length := by omega
  exact ⟨hentries, hdropped⟩

end EventQueue

end Heartbeat

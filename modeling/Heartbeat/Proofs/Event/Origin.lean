import Heartbeat.Proofs.Event.Ledger

/-!
# Where matches come from

A match that is taken was queued for a line, by an event that some earlier call had registered. So
its captures are what an accepted pattern captures of a line, and its callback is one that was
registered with that pattern.

* `EventProcessor.Origin`: a match comes from a pattern and a line.
* `EventProcessor.exists_origin_of_taken`: every match that is taken has an origin.
-/

namespace Heartbeat.EventProcessor

variable {κ : Type} {engine : PatternEngine} {limit? : Option Nat} {calls : List (EventCall κ)}
  {entry : PendingEvent κ}

/-- **A match comes from a pattern and a line**, among calls: the event was registered with the
pattern, the line was fed behind that, and the captures are those of the line. -/
structure Origin (engine : PatternEngine) (calls : List (EventCall κ)) (entry : PendingEvent κ)
    (pattern line : String) : Prop where
  order : ∃ before after, calls = before ++ .feed line :: after ∧
    .register entry.name pattern entry.definition.callback ∈ before
  compiled : Pattern.compile engine pattern = .ok entry.definition.pattern
  matched : entry.definition.pattern.captures? line = some entry.captures

/-- What was registered last under a name was registered with some pattern. -/
theorem exists_registration {name : String} {d : EventDefinition κ}
    (h : EventCall.latest? engine name calls = some d) :
    ∃ pattern, EventCall.register d.name pattern d.callback ∈ calls ∧
      Pattern.compile engine pattern = .ok d.pattern := by
  have hmem := List.mem_reverse.mp (List.mem_of_find?_eq_some h)
  obtain ⟨call, hcall, hdefined⟩ := List.mem_filterMap.mp hmem
  cases call with
  | register name pattern callback =>
    simp only [EventCall.defined?] at hdefined
    cases hcompiled : Pattern.compile engine pattern with
    | error e =>
      rw [hcompiled] at hdefined
      cases hdefined
    | ok compiled =>
      rw [hcompiled] at hdefined
      cases hdefined
      exact ⟨pattern, hcall, hcompiled⟩
  | unregister | feed | pop => cases hdefined

/-- A match that is queued is found in a line that is fed. -/
theorem exists_feed_of_made {p : EventProcessor κ} (h : entry ∈ made engine p calls) :
    ∃ before line after, calls = before ++ .feed line :: after ∧
      entry ∈ (p.after engine before).found line := by
  induction calls generalizing p with
  | nil => exact absurd h List.not_mem_nil
  | cons call calls ih =>
    rcases List.mem_append.mp h with hnow | hlater
    · cases call with
      | feed line => exact ⟨[], line, calls, rfl, hnow⟩
      | register | unregister | pop => exact absurd hnow List.not_mem_nil
    · obtain ⟨before, line, after, rfl, hfound⟩ := ih hlater
      exact ⟨call :: before, line, after, rfl, hfound⟩

theorem exists_origin_of_made (h : entry ∈ made engine (empty limit?) calls) :
    ∃ pattern line, Origin engine calls entry pattern line := by
  obtain ⟨before, line, after, hcalls, hfound⟩ := exists_feed_of_made h
  obtain ⟨d, hd, hmatch⟩ := List.mem_filterMap.mp hfound
  obtain ⟨captures, hcaptures, rfl⟩ := Option.map_eq_some_iff.mp hmatch
  obtain ⟨pattern, hregister, hcompiled⟩ :=
    exists_registration ((dated_after engine limit? before).newest d hd)
  exact ⟨pattern, line, ⟨before, after, hcalls, hregister⟩, hcompiled, hcaptures⟩

/-- A match that is taken was queued. -/
theorem made_of_taken (h : entry ∈ taken engine (empty limit?) calls) :
    entry ∈ made engine (empty limit?) calls := by
  have hdelivered := delivered engine limit? calls
  rw [← hdelivered.answered] at h
  obtain ⟨r, hr, rfl⟩ := List.mem_map.mp h
  rw [← hdelivered.queued]
  exact List.mem_map_of_mem (List.mem_of_mem_filter hr)

/-- **Every match that is taken comes from a pattern and a line.** -/
theorem exists_origin_of_taken (h : entry ∈ taken engine (empty limit?) calls) :
    ∃ pattern line, Origin engine calls entry pattern line :=
  exists_origin_of_made (made_of_taken h)

end Heartbeat.EventProcessor

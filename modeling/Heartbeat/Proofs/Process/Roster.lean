import Heartbeat.Process.Table
import Mathlib.Data.List.Sort

/-!
# Rosters as finite maps

A roster is read through `find?` alone: what the changes do to look-up, and that look-up decides
everything else.

* `find?_eq_some_iff`: a member is what is found under its key.
* `find?_insert`, `find?_filter`, `find?_map`: look-up behind every change.
* `keys_eq_of_iff`: two rosters with the same keys list them alike.
* `ProcessTable.find?_update`: the same for the change of an entry.
-/

namespace Heartbeat

namespace Roster

variable {α β : Type} {key : α → Nat} {key' : β → Nat}

theorem find?_eq_some_iff {r : Roster key} {k : Nat} {a : α} :
    r.find? k = some a ↔ a ∈ r.members ∧ key a = k := by
  constructor
  · intro h
    exact ⟨mem_of_find? h, key_of_find? h⟩
  · rintro ⟨hmem, rfl⟩
    obtain ⟨members, hord⟩ := r
    show members.find? _ = _
    induction members with
    | nil => exact absurd hmem List.not_mem_nil
    | cons b rest ih =>
      rw [List.pairwise_cons] at hord
      rcases List.mem_cons.mp hmem with rfl | hrest
      · exact List.find?_cons_of_pos (by simp)
      · have hlt := hord.1 a hrest
        rw [List.find?_cons_of_neg (by simpa using Nat.ne_of_lt hlt)]
        exact ih hord.2 hrest

theorem find?_of_mem {r : Roster key} {a : α} (h : a ∈ r.members) : r.find? (key a) = some a :=
  find?_eq_some_iff.mpr ⟨h, rfl⟩

theorem find?_insert (r : Roster key) (a : α) (k : Nat) :
    (r.insert a).find? k = if k = key a then some a else r.find? k := by
  split
  · rename_i h
    rw [h]
    exact find?_insert_self r a
  · rename_i h
    exact find?_insert_of_ne h

theorem find?_filter (r : Roster key) (keep : α → Bool) (k : Nat) :
    (r.filter keep).find? k = (r.find? k).filter keep := by
  apply Option.ext
  intro a
  rw [Option.filter_eq_some_iff, find?_eq_some_iff, find?_eq_some_iff]
  show a ∈ r.members.filter keep ∧ _ ↔ _
  rw [List.mem_filter]
  exact and_right_comm

theorem find?_map (r : Roster key) (f : α → α) (h : ∀ a, key (f a) = key a) (k : Nat) :
    (r.map f h).find? k = (r.find? k).map f := by
  apply Option.ext
  intro a
  rw [Option.map_eq_some_iff, find?_eq_some_iff]
  show a ∈ r.members.map f ∧ _ ↔ _
  rw [List.mem_map]
  constructor
  · rintro ⟨⟨b, hb, rfl⟩, hk⟩
    exact ⟨b, find?_eq_some_iff.mpr ⟨hb, (h b).symm.trans hk⟩, rfl⟩
  · rintro ⟨b, hb, rfl⟩
    obtain ⟨hmem, hk⟩ := find?_eq_some_iff.mp hb
    exact ⟨⟨b, hmem, rfl⟩, (h b).trans hk⟩

/-- Members are determined by look-up. -/
theorem ext_find? {r r' : Roster key} (h : ∀ k, r.find? k = r'.find? k) : r = r' := by
  obtain ⟨members, hord⟩ := r
  obtain ⟨members', hord'⟩ := r'
  have hirr : Std.Irrefl fun a b : α => key a < key b := ⟨fun a => Nat.lt_irrefl (key a)⟩
  have hasymm : Std.Antisymm fun a b : α => key a < key b :=
    ⟨fun a b hab hba => absurd (Nat.lt_trans hab hba) (Nat.lt_irrefl _)⟩
  congr 1
  refine List.Pairwise.eq_of_mem_iff hord hord' fun a => ?_
  have ha : a ∈ members ↔ find? ⟨members, hord⟩ (key a) = some a := by
    rw [find?_eq_some_iff (r := ⟨members, hord⟩)]
    exact (and_iff_left rfl).symm
  have ha' : a ∈ members' ↔ find? ⟨members', hord'⟩ (key a) = some a := by
    rw [find?_eq_some_iff (r := ⟨members', hord'⟩)]
    exact (and_iff_left rfl).symm
  rw [ha, ha', h]

theorem keys_pairwise (r : Roster key) : r.keys.Pairwise (· < ·) :=
  List.pairwise_map.mpr r.ascending

theorem keys_nodup (r : Roster key) : r.keys.Nodup :=
  (keys_pairwise r).imp fun h => Nat.ne_of_lt h

theorem mem_keys {r : Roster key} {k : Nat} : k ∈ r.keys ↔ (r.find? k).isSome := by
  rw [Option.isSome_iff_exists]
  constructor
  · intro h
    obtain ⟨a, ha, rfl⟩ := List.mem_map.mp h
    exact ⟨a, find?_of_mem ha⟩
  · rintro ⟨a, ha⟩
    exact List.mem_map.mpr ⟨a, mem_of_find? ha, key_of_find? ha⟩

/-- Two ascending lists with the same members are the same list. -/
theorem keys_eq_of_iff {r : Roster key} {r' : Roster key'}
    (h : ∀ k, (r.find? k).isSome ↔ (r'.find? k).isSome) : r.keys = r'.keys := by
  have hirr : Std.Irrefl fun a b : Nat => a < b := ⟨Nat.lt_irrefl⟩
  have hasymm : Std.Antisymm fun a b : Nat => a < b :=
    ⟨fun a b hab hba => absurd (Nat.lt_trans hab hba) (Nat.lt_irrefl _)⟩
  refine List.Pairwise.eq_of_mem_iff (keys_pairwise r) (keys_pairwise r') fun k => ?_
  rw [mem_keys, mem_keys, h]

end Roster

namespace ProcessTable

/-- Changing an entry changes what is found under its identifier, and nothing else. -/
theorem find?_update (t : ProcessTable) (pid : Pid) (change : ProcessEntry → ProcessEntry)
    (h : ∀ e, (change e).pid = e.pid) (k : Pid) :
    (t.update pid change).find? k = if k = pid then (t.find? k).map change else t.find? k := by
  unfold update
  cases he : t.find? pid with
  | none =>
    simp only
    split
    · rename_i hk
      rw [hk, he]
      rfl
    · rfl
  | some e =>
    have hpid : (change e).pid = pid := (h e).trans (Roster.key_of_find? he)
    simp only
    rw [Roster.find?_insert, hpid]
    split
    · rename_i hk
      rw [hk, he]
      rfl
    · rfl

end ProcessTable

end Heartbeat

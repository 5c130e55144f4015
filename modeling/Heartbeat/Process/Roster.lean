/-!
# Rosters

A roster is a finite map whose members carry their own key, a natural number, and stand in ascending
order of it.

* `Roster.find?`: the member of a key.
* `Roster.insert`: adds a member, in the place of the one of its key if there is one.
* `Roster.erase`, `Roster.filter`: remove members.
* `find?_insert_self`, `find?_insert_of_ne`, `find?_erase`: what the changes do to look-up.
-/

namespace Heartbeat

/-- Members in ascending order of their keys (`BTreeMap`). -/
structure Roster {α : Type} (key : α → Nat) where
  members : List α
  ascending : members.Pairwise (key · < key ·)

namespace Roster

variable {α : Type} {key : α → Nat}

/-- The roster without members. -/
def empty : Roster key := ⟨[], .nil⟩

instance : Inhabited (Roster key) := ⟨empty⟩

/-- The member of a key. -/
def find? (r : Roster key) (k : Nat) : Option α := r.members.find? (key · == k)

/-- Puts a member into a list in its place, instead of the one of its key. -/
def insertInto (key : α → Nat) (a : α) : List α → List α
  | [] => [a]
  | b :: rest =>
    if key a < key b then a :: b :: rest
    else if key a = key b then a :: rest
    else b :: insertInto key a rest

/-- What `insertInto` adds is the new member alone. -/
theorem mem_of_mem_insertInto {a b : α} {members : List α} (h : b ∈ insertInto key a members) :
    b = a ∨ b ∈ members := by
  induction members with
  | nil => simpa [insertInto] using h
  | cons c rest ih =>
    unfold insertInto at h
    split at h
    · exact List.mem_cons.1 h
    · split at h
      · rcases List.mem_cons.1 h with h | h
        · exact .inl h
        · exact .inr (List.mem_cons_of_mem _ h)
      · rcases List.mem_cons.1 h with h | h
        · exact .inr (h ▸ List.mem_cons_self)
        · exact (ih h).imp_right (List.mem_cons_of_mem _)

/-- `insertInto` keeps the order. -/
theorem pairwise_insertInto {a : α} {members : List α} (h : members.Pairwise (key · < key ·)) :
    (insertInto key a members).Pairwise (key · < key ·) := by
  induction members with
  | nil => exact List.pairwise_singleton _ _
  | cons b rest ih =>
    rw [List.pairwise_cons] at h
    unfold insertInto
    split
    · rename_i hlt
      refine List.pairwise_cons.2 ⟨?_, List.pairwise_cons.2 h⟩
      intro c hc
      rcases List.mem_cons.1 hc with rfl | hc
      · exact hlt
      · exact Nat.lt_trans hlt (h.1 c hc)
    · split
      · rename_i heq
        exact List.pairwise_cons.2 ⟨fun c hc => heq ▸ h.1 c hc, h.2⟩
      · rename_i hlt hne
        refine List.pairwise_cons.2 ⟨?_, ih h.2⟩
        intro c hc
        rcases mem_of_mem_insertInto hc with rfl | hc
        · omega
        · exact h.1 c hc

/-- Adds a member, in the place of the one of its key if there is one. -/
def insert (r : Roster key) (a : α) : Roster key :=
  ⟨insertInto key a r.members, pairwise_insertInto r.ascending⟩

/-- Keeps the members that pass a test. -/
def filter (r : Roster key) (keep : α → Bool) : Roster key :=
  ⟨r.members.filter keep, r.ascending.filter keep⟩

/-- Changes every member by a function that keeps its key. -/
def map (r : Roster key) (f : α → α) (h : ∀ a, key (f a) = key a) : Roster key :=
  ⟨r.members.map f, r.ascending.map f fun a b hab => by rw [h a, h b]; exact hab⟩

/-- Removes the member of a key. -/
def erase (r : Roster key) (k : Nat) : Roster key := r.filter (key · != k)

/-- The keys, in ascending order. -/
def keys (r : Roster key) : List Nat := r.members.map key

/-- The number of members. -/
def size (r : Roster key) : Nat := r.members.length

/-- Whether there are no members. -/
def isEmpty (r : Roster key) : Bool := r.members.isEmpty

/-! ## Look-up after a change -/

/-- A found member has the key. -/
theorem key_of_find? {r : Roster key} {k : Nat} {a : α} (h : r.find? k = some a) : key a = k := by
  simpa using List.find?_some h

/-- A found member is a member. -/
theorem mem_of_find? {r : Roster key} {k : Nat} {a : α} (h : r.find? k = some a) :
    a ∈ r.members :=
  List.mem_of_find?_eq_some h

/-- An inserted member is found. -/
theorem find?_insert_self (r : Roster key) (a : α) : (r.insert a).find? (key a) = some a := by
  obtain ⟨members, _⟩ := r
  show (insertInto key a members).find? _ = _
  induction members with
  | nil => simp [insertInto]
  | cons b rest ih =>
    rename_i h
    rw [List.pairwise_cons] at h
    unfold insertInto
    split
    · simp
    · split
      · simp
      · rename_i hne
        rw [List.find?_cons_of_neg (by simpa using fun e => hne e.symm)]
        exact ih h.2

/-- An insertion does not change what is found under other keys. -/
theorem find?_insert_of_ne {r : Roster key} {a : α} {k : Nat} (hk : k ≠ key a) :
    (r.insert a).find? k = r.find? k := by
  obtain ⟨members, _⟩ := r
  show (insertInto key a members).find? _ = members.find? _
  induction members with
  | nil => simp [insertInto, Ne.symm hk]
  | cons b rest ih =>
    rename_i h
    rw [List.pairwise_cons] at h
    unfold insertInto
    split
    · rw [List.find?_cons_of_neg (by simpa using Ne.symm hk)]
    · split
      · rename_i heq
        rw [List.find?_cons_of_neg (by simpa using Ne.symm hk),
          List.find?_cons_of_neg (by simpa [← heq] using Ne.symm hk)]
      · by_cases hb : key b = k
        · rw [List.find?_cons_of_pos (by simpa using hb),
            List.find?_cons_of_pos (by simpa using hb)]
        · rw [List.find?_cons_of_neg (by simpa using hb),
            List.find?_cons_of_neg (by simpa using hb)]
          exact ih h.2

/-- A removed key is not found, all others as before. -/
theorem find?_erase (r : Roster key) (k j : Nat) :
    (r.erase k).find? j = if j = k then none else r.find? j := by
  obtain ⟨members, _⟩ := r
  show (members.filter _).find? _ = if j = k then none else members.find? _
  rw [List.find?_filter]
  split
  · rename_i h
    subst h
    simp
  · rename_i h
    congr 1
    funext a
    by_cases ha : key a = j
    · simp [ha, h]
    · simp [ha]

end Roster

end Heartbeat

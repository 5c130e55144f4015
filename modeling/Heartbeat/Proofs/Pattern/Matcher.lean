import Heartbeat.Pattern.Matcher
import Mathlib.Data.List.Basic

/-!
# The index of a matcher

A matcher keeps an index over its patterns, which is made anew only when a line comes behind a
change. An index that is not stale is over the current patterns, so it never gives a position that
is not there, and a line is matched as if every pattern were tried in turn.

* `PatternMatcher.Indexed`: an index that is not stale is over the current patterns.
* `indexed_push`, `indexed_replace`, `indexed_remove`, `indexed_matchLine`: this stays so.
* `matchLine_eq`: what is found in a line, index or not.
* `MatcherCall`, `after`: rows of calls, and the matcher behind them; `listed` is the plain list of
  patterns behind them.
* `matchLine_law`: behind every row of calls a line is matched by trying the patterns of the plain
  list in turn, and only positions of that list are looked up.
-/

namespace Heartbeat

theorem Pattern.isMatch_eq (p : Pattern) (line : String) :
    p.isMatch line = (p.captures? line).isSome := by
  unfold isMatch captures?
  rw [Option.isSome_map]

/-- An index gives the positions of its members that match, in ascending order. -/
theorem PatternSet.hitsFrom_eq (line : String) (start : Nat) (patterns : List Pattern) :
    hitsFrom line start patterns =
      (List.range' start patterns.length).filter fun i =>
        patterns[i - start]?.any (·.isMatch line) := by
  induction patterns generalizing start with
  | nil => rfl
  | cons p patterns ih =>
    have hrest : (List.range' (start + 1) patterns.length).filter
          (fun i => (p :: patterns)[i - start]?.any (·.isMatch line)) =
        hitsFrom line (start + 1) patterns := by
      rw [ih]
      refine List.filter_congr fun i hi => ?_
      have hlt : start + 1 ≤ i := (List.mem_range'_1.mp hi).1
      obtain ⟨k, rfl⟩ := Nat.exists_eq_add_of_le hlt
      rw [Nat.add_sub_cancel_left, Nat.add_assoc, Nat.add_sub_cancel_left, Nat.add_comm 1 k,
        List.getElem?_cons_succ]
    rw [hitsFrom, List.length_cons, List.range'_succ, List.filter_cons, hrest]
    simp

namespace PatternMatcher

variable {engine : PatternEngine} {m : PatternMatcher}

/-- **An index that is not stale is over the current patterns.** -/
def Indexed (m : PatternMatcher) : Prop :=
  m.stale = false → ∀ set, m.set? = some set → set.members = m.patterns

theorem indexed_empty : Indexed {} := nofun

theorem indexed_push (m : PatternMatcher) (p : Pattern) : (m.push p).Indexed := nofun

theorem indexed_replace (h : m.Indexed) (index : Nat) (p : Pattern) :
    (m.replace index p).Indexed := by
  unfold replace
  split
  · nofun
  · exact h

theorem indexed_remove (h : m.Indexed) (index : Nat) : (m.remove index).2.Indexed := by
  unfold remove
  split
  · nofun
  · exact h

theorem patterns_refresh (engine : PatternEngine) (m : PatternMatcher) :
    (m.refresh engine).patterns = m.patterns := by
  unfold refresh
  split <;> rfl

theorem indexed_refresh (engine : PatternEngine) (h : m.Indexed) :
    ∀ set, (m.refresh engine).set? = some set → set.members = (m.refresh engine).patterns := by
  rw [patterns_refresh]
  intro set hset
  unfold refresh at hset
  split at hset
  · unfold PatternSet.ofList? at hset
    simp only [Option.ite_none_right_eq_some, Option.some.injEq] at hset
    rw [← hset.2]
  · rename_i hfresh
    exact h (Bool.not_eq_true _ ▸ hfresh) set hset

theorem patterns_matchLine (engine : PatternEngine) (m : PatternMatcher) (line : String) :
    (m.matchLine engine line).2.patterns = m.patterns := by
  unfold matchLine
  split
  · rfl
  · exact patterns_refresh engine m

theorem indexed_matchLine (h : m.Indexed) (line : String) :
    (m.matchLine engine line).2.Indexed := by
  unfold matchLine
  split
  · exact h
  · exact fun _ => indexed_refresh engine h

/-- What is tried and does not match gives nothing. -/
theorem tryAt_eq_none {line : String} {i : Nat}
    (h : m.patterns[i]?.any (·.isMatch line) = false) : m.tryAt line i = none := by
  unfold tryAt
  cases hp : m.patterns[i]? with
  | none => rfl
  | some p =>
    rw [hp, Option.any_some, Pattern.isMatch_eq, Option.isSome_eq_false_iff,
      Option.isNone_iff_eq_none] at h
    show (p.captures? line).map _ = none
    rw [h]
    rfl

/-- The candidates of an index over the current patterns are as good as all positions. -/
theorem filterMap_candidates (h : ∀ set, m.set? = some set → set.members = m.patterns)
    (line : String) :
    (m.candidates line).filterMap (m.tryAt line) =
      (List.range m.patterns.length).filterMap (m.tryAt line) := by
  unfold candidates
  cases hset : m.set? with
  | none => rfl
  | some set =>
    show (PatternSet.hitsFrom line 0 set.members).filterMap _ = _
    rw [h set hset, PatternSet.hitsFrom_eq, List.filterMap_filter, ← List.range_eq_range']
    refine List.filterMap_congr fun i _ => ?_
    rw [Nat.sub_zero]
    split
    · rfl
    · rename_i hmiss
      exact (tryAt_eq_none (Bool.not_eq_true _ ▸ hmiss)).symm

/-- **A line is matched as if every pattern were tried in turn.** -/
theorem matchLine_eq (h : m.Indexed) (line : String) :
    (m.matchLine engine line).1 = (List.range m.patterns.length).filterMap (m.tryAt line) := by
  unfold matchLine
  split
  · rename_i hempty
    rw [List.isEmpty_iff.mp hempty]
    rfl
  · have hrest := filterMap_candidates (indexed_refresh engine h) line
    have htry : (m.refresh engine).tryAt line = m.tryAt line := by
      unfold tryAt
      rw [patterns_refresh]
    rw [patterns_refresh, htry] at hrest
    simp only
    rw [htry]
    exact hrest

/-- The candidates of an index over the current patterns are positions of patterns. -/
theorem lt_of_mem_candidates (h : ∀ set, m.set? = some set → set.members = m.patterns)
    {line : String} {i : Nat} (hi : i ∈ m.candidates line) : i < m.patterns.length := by
  unfold candidates at hi
  cases hset : m.set? with
  | none =>
    rw [hset] at hi
    exact List.mem_range.mp hi
  | some set =>
    rw [hset] at hi
    simp only [PatternSet.hits, PatternSet.hitsFrom_eq, h set hset] at hi
    simpa using (List.mem_range'_1.mp (List.mem_of_mem_filter hi)).2

end PatternMatcher

/-! ## Rows of calls -/

/-- A call of a matcher. -/
inductive MatcherCall where
  | push (p : Pattern)
  | replace (index : Nat) (p : Pattern)
  | remove (index : Nat)
  | matchLine (line : String)

/-- A plain list of patterns behind a call; a position beyond its end changes nothing. -/
def MatcherCall.edit (patterns : List Pattern) : MatcherCall → List Pattern
  | .push p => patterns ++ [p]
  | .replace index p => patterns.set index p
  | .remove index => patterns.eraseIdx index
  | .matchLine _ => patterns

/-- The plain list of patterns behind a row of calls. -/
def listed (calls : List MatcherCall) : List Pattern := calls.foldl MatcherCall.edit []

/-- **What is found in a line by trying patterns in turn**: the positions of those that match it, in
ascending order, with what they capture. -/
structure TriedInTurn (patterns : List Pattern) (line : String) (found : List (Nat × Captures)) :
    Prop where
  ascending : found.Pairwise fun hit hit' => hit.1 < hit'.1
  mem_iff : ∀ i captures, (i, captures) ∈ found ↔
    ∃ p, patterns[i]? = some p ∧ p.captures? line = some captures

namespace PatternMatcher

variable {engine : PatternEngine} {m : PatternMatcher}

/-- The matcher behind a call. -/
def perform (engine : PatternEngine) (m : PatternMatcher) : MatcherCall → PatternMatcher
  | .push p => m.push p
  | .replace index p => m.replace index p
  | .remove index => (m.remove index).2
  | .matchLine line => (m.matchLine engine line).2

/-- The matcher behind a row of calls. -/
def after (engine : PatternEngine) (m : PatternMatcher) (calls : List MatcherCall) :
    PatternMatcher :=
  calls.foldl (perform engine) m

/-- The positions that are looked up to match a line. -/
def lookups (engine : PatternEngine) (m : PatternMatcher) (line : String) : List Nat :=
  if m.patterns.isEmpty then [] else (m.refresh engine).candidates line

theorem indexed_perform (h : m.Indexed) (call : MatcherCall) : (m.perform engine call).Indexed := by
  cases call with
  | push p => exact indexed_push m p
  | replace index p => exact indexed_replace h index p
  | remove index => exact indexed_remove h index
  | matchLine line => exact indexed_matchLine h line

theorem patterns_perform (engine : PatternEngine) (m : PatternMatcher) (call : MatcherCall) :
    (m.perform engine call).patterns = call.edit m.patterns := by
  cases call with
  | push p => rfl
  | replace index p =>
    show (m.replace index p).patterns = m.patterns.set index p
    unfold replace
    split
    · rfl
    · rename_i hend
      exact (List.set_eq_of_length_le (Nat.le_of_not_lt hend)).symm
  | remove index =>
    show (m.remove index).2.patterns = m.patterns.eraseIdx index
    unfold remove
    split
    · rfl
    · rename_i hend
      exact (List.eraseIdx_of_length_le (List.getElem?_eq_none_iff.mp hend)).symm
  | matchLine line => exact patterns_matchLine engine m line

theorem indexed_after (h : m.Indexed) (calls : List MatcherCall) :
    (m.after engine calls).Indexed := by
  induction calls generalizing m with
  | nil => exact h
  | cons call calls ih => exact ih (indexed_perform h call)

theorem patterns_after (engine : PatternEngine) (m : PatternMatcher) (calls : List MatcherCall) :
    (m.after engine calls).patterns = calls.foldl MatcherCall.edit m.patterns := by
  induction calls generalizing m with
  | nil => rfl
  | cons call calls ih =>
    show ((m.perform engine call).after engine calls).patterns =
      calls.foldl _ (call.edit m.patterns)
    rw [ih, patterns_perform]

theorem tryAt_eq_some_iff {line : String} {i : Nat} {hit : Nat × Captures} :
    m.tryAt line i = some hit ↔
      hit.1 = i ∧ ∃ p, m.patterns[i]? = some p ∧ p.captures? line = some hit.2 := by
  obtain ⟨j, captures⟩ := hit
  unfold tryAt
  cases m.patterns[i]? with
  | none => simp
  | some p =>
    show (p.captures? line).map _ = _ ↔ _
    simp only [Option.map_eq_some_iff, Option.some.injEq, exists_eq_left', Prod.mk.injEq]
    constructor
    · rintro ⟨_, hcaptures, rfl, rfl⟩
      exact ⟨rfl, hcaptures⟩
    · rintro ⟨rfl, hcaptures⟩
      exact ⟨captures, hcaptures, rfl, rfl⟩

theorem triedInTurn_filterMap (m : PatternMatcher) (line : String) :
    TriedInTurn m.patterns line ((List.range m.patterns.length).filterMap (m.tryAt line)) where
  ascending := by
    refine List.pairwise_filterMap.mpr (List.pairwise_lt_range.imp ?_)
    intro _ _ hlt hit hhit hit' hhit'
    rwa [(tryAt_eq_some_iff.mp hhit).1, (tryAt_eq_some_iff.mp hhit').1]
  mem_iff i captures := by
    simp only [List.mem_filterMap, List.mem_range, tryAt_eq_some_iff]
    constructor
    · rintro ⟨_, -, rfl, hp⟩
      exact hp
    · rintro ⟨p, hp, hcaptures⟩
      exact ⟨i, (List.getElem?_eq_some_iff.mp hp).1, rfl, p, hp, hcaptures⟩

/-- **Behind every row of calls a line is matched by trying the patterns in turn**, and no position
is looked up that is not there. -/
theorem matchLine_law (engine : PatternEngine) (calls : List MatcherCall) (line : String) :
    TriedInTurn (listed calls) line ((after engine {} calls).matchLine engine line).1 ∧
      ∀ i ∈ (after engine {} calls).lookups engine line, i < (listed calls).length := by
  have hindexed : (after engine {} calls).Indexed := indexed_after indexed_empty calls
  have hpatterns : (after engine {} calls).patterns = listed calls := patterns_after engine {} calls
  rw [← hpatterns]
  refine ⟨?_, fun i hi => ?_⟩
  · rw [matchLine_eq hindexed]
    exact triedInTurn_filterMap _ line
  · unfold lookups at hi
    split at hi
    · exact absurd hi List.not_mem_nil
    · have hlt := lt_of_mem_candidates (indexed_refresh engine hindexed) hi
      rwa [patterns_refresh] at hlt

end PatternMatcher

end Heartbeat

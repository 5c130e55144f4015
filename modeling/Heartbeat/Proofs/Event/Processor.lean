import Heartbeat.Event.Processor
import Heartbeat.Proofs.Event.Queue
import Heartbeat.Proofs.Pattern.Matcher
import Mathlib.Data.List.Induction
import Mathlib.Data.List.InsertIdx
import Mathlib.Data.List.Nodup

/-!
# Events behind a row of calls

A processor is changed by four calls: events are registered and unregistered, lines are fed, and
matches are taken. Whatever calls are made in whatever order, its three parts fit together, and what
is registered now can be read off the calls.

* `EventCall`: a call; `EventProcessor.after` makes a row of them.
* `EventProcessor.Sound`: names are unique, every pattern belongs to its event, and every waiting
  match to an event that is registered.
* `found_eq`: what is found in a line, by position.
* `since?`, `latest?`: since when a name is registered, and as what.
* `EventProcessor.law`: all of this holds behind every row of calls.
-/

namespace Heartbeat

/-- A call to a processor. -/
inductive EventCall (κ : Type) where
  | register (name pattern : String) (callback : κ)
  | unregister (name : String)
  | feed (line : String)
  /-- The oldest match is taken, if one waits. -/
  | pop
deriving Repr, DecidableEq

namespace EventCall

variable {κ : Type} (engine : PatternEngine)

/-- The event that a call registers; a call with an invalid pattern registers none. -/
def defined? : EventCall κ → Option (EventDefinition κ)
  | .register name pattern callback =>
    (Pattern.compile engine pattern).toOption.map fun compiled => ⟨name, compiled, callback⟩
  | _ => none

/-- Whether a call registers an event under a name. -/
def defines (name : String) (call : EventCall κ) : Bool :=
  (call.defined? engine).any (·.name == name)

/-- Whether a call unregisters a name. -/
def removes (name : String) : EventCall κ → Bool
  | .unregister other => other == name
  | _ => false

/-- Since when a name is registered behind one more call, which stands at a position. -/
def sinceBehind (name : String) (since? : Option Nat) (position : Nat) (call : EventCall κ) :
    Option Nat :=
  if call.removes name then none
  else if call.defines engine name then some (since?.getD position)
  else since?

/-- **Since when a name is registered**: the position of its first registration since it was
unregistered last. -/
def since? (name : String) (calls : List (EventCall κ)) : Option Nat :=
  calls.zipIdx.foldl (fun since? x => x.1.sinceBehind engine name since? x.2) none

/-- The event that was registered last under a name. -/
def latest? (name : String) (calls : List (EventCall κ)) : Option (EventDefinition κ) :=
  (calls.filterMap (defined? engine)).reverse.find? (·.name == name)

variable {engine} {name : String} {calls : List (EventCall κ)} {call : EventCall κ}

theorem since?_concat :
    since? engine name (calls ++ [call]) =
      call.sinceBehind engine name (since? engine name calls) calls.length := by
  unfold since?
  rw [List.zipIdx_append, List.foldl_append, Nat.zero_add]
  rfl

theorem latest?_concat :
    latest? engine name (calls ++ [call]) =
      if call.defines engine name then call.defined? engine else latest? engine name calls := by
  unfold latest? defines
  rw [List.filterMap_append, List.reverse_append]
  cases hdef : call.defined? engine with
  | none => simp [hdef]
  | some d =>
    by_cases hname : d.name = name
    · simp [hdef, hname]
    · simp [hdef, hname]

theorem since?_lt {i : Nat} (h : since? engine name calls = some i) : i < calls.length := by
  induction calls using List.reverseRecOn generalizing i with
  | nil => exact absurd h nofun
  | append_singleton calls call ih =>
    rw [since?_concat] at h
    unfold sinceBehind at h
    rw [List.length_append]
    split at h
    · exact absurd h nofun
    · split at h
      · cases hsince : since? engine name calls with
        | none =>
          rw [hsince] at h
          rw [← Option.some.inj h]
          exact Nat.lt_succ_self _
        | some j =>
          rw [hsince] at h
          rw [← Option.some.inj h]
          exact Nat.lt_succ_of_lt (ih hsince)
      · exact Nat.lt_succ_of_lt (ih h)

theorem since?_of_defined {d : EventDefinition κ} (h : call.defined? engine = some d) :
    since? engine name (calls ++ [call]) =
      if d.name = name then some ((since? engine name calls).getD calls.length)
      else since? engine name calls := by
  have hkeeps : call.removes name = false := by
    cases call with
    | unregister other => exact absurd h nofun
    | _ => rfl
  rw [since?_concat]
  unfold sinceBehind defines
  rw [hkeeps, h, Option.any_some]
  by_cases hname : d.name = name <;> simp [hname]

theorem since?_unregister (other : String) :
    since? engine name (calls ++ [.unregister other]) =
      if other = name then none else since? engine name calls := by
  rw [since?_concat]
  by_cases hname : other = name <;> simp [sinceBehind, removes, defines, defined?, hname]

/-- A call that neither registers nor unregisters anything changes nothing about any name. -/
theorem since?_of_silent (hdefined : call.defined? engine = none)
    (hremoves : ∀ name, call.removes name = false) :
    since? engine name (calls ++ [call]) = since? engine name calls := by
  rw [since?_concat]
  unfold sinceBehind defines
  rw [hremoves, hdefined]
  rfl

end EventCall

namespace EventProcessor

variable {κ : Type} {engine : PatternEngine} {p : EventProcessor κ}

/-- The match of a line by an event, if it matches. -/
def match? (line : String) (d : EventDefinition κ) : Option (PendingEvent κ) :=
  (d.pattern.captures? line).map (⟨d, ·⟩)

/-- The matches of a line, in the order of the events. -/
def found (p : EventProcessor κ) (line : String) : List (PendingEvent κ) :=
  p.definitions.filterMap (match? line)

/-- The processor behind a call. -/
def perform (engine : PatternEngine) (p : EventProcessor κ) : EventCall κ → EventProcessor κ
  | .register name pattern callback =>
    match p.register engine name pattern callback with
    | .ok p => p
    | .error _ => p
  | .unregister name => (p.unregister name).2
  | .feed line => (p.feed engine line).2
  | .pop =>
    match p.pop? with
    | some (_, p) => p
    | none => p

/-- The processor behind a row of calls. -/
def after (engine : PatternEngine) (p : EventProcessor κ) (calls : List (EventCall κ)) :
    EventProcessor κ :=
  calls.foldl (perform engine) p

theorem after_append (engine : PatternEngine) (p : EventProcessor κ)
    (calls calls' : List (EventCall κ)) :
    p.after engine (calls ++ calls') = (p.after engine calls).after engine calls' :=
  List.foldl_append

/-! ## The parts fit together -/

/-- **The parts of a processor fit together.** -/
structure Sound (p : EventProcessor κ) : Prop where
  unique : p.names.Nodup
  patterns : p.matcher.patterns = p.definitions.map (·.pattern)
  indexed : p.matcher.Indexed
  current : ∀ entry ∈ p.queue.entries, entry.definition ∈ p.definitions

theorem sound_empty (limit? : Option Nat) : (empty (κ := κ) limit?).Sound :=
  ⟨List.nodup_nil, rfl, PatternMatcher.indexed_empty, nofun⟩

theorem isRegistered_iff {name : String} : p.isRegistered name = true ↔ name ∈ p.names := by
  unfold isRegistered position? names
  rw [List.findIdx?_isSome, List.any_eq_true, List.mem_map]
  exact exists_congr fun d => and_congr_right fun _ => beq_iff_eq

/-- A name that is not found is not there. -/
theorem not_mem_names {name : String} (h : p.position? name = none) : name ∉ p.names := by
  rw [← isRegistered_iff]
  unfold isRegistered
  rw [h]
  exact Bool.false_ne_true

/-- The event at the position of a name has the name. -/
theorem position?_spec {name : String} {i : Nat} (h : p.position? name = some i) :
    ∃ hi : i < p.definitions.length, p.definitions[i].name = name := by
  unfold position? at h
  obtain ⟨hi, hname, -⟩ := List.findIdx?_eq_some_iff_getElem.mp h
  exact ⟨hi, by simpa using hname⟩

theorem mem_names_of_position? {name : String} {i : Nat} (h : p.position? name = some i) :
    name ∈ p.names := by
  rw [← isRegistered_iff]
  unfold isRegistered
  rw [h]
  rfl

/-- The waiting matches of a name that is not registered: there are none. -/
theorem discard_of_not_mem (h : p.Sound) {name : String} (hname : name ∉ p.names) :
    p.discard name = p.queue := by
  unfold discard EventQueue.retain
  rw [List.filter_eq_self.mpr fun entry hentry => ?_]
  rw [bne_iff_ne]
  rintro rfl
  exact hname (List.mem_map_of_mem (h.current entry hentry))

theorem mem_discard {name : String} {entry : PendingEvent κ} :
    entry ∈ (p.discard name).entries ↔ entry ∈ p.queue.entries ∧ entry.name ≠ name := by
  show entry ∈ p.queue.entries.filter _ ↔ _
  rw [List.mem_filter, bne_iff_ne]

section Define

variable (d : EventDefinition κ)

theorem names_define :
    (p.define d).names = if d.name ∈ p.names then p.names else p.names ++ [d.name] := by
  unfold define
  cases hpos : p.position? d.name with
  | none =>
    rw [if_neg (not_mem_names hpos)]
    exact List.map_append
  | some i =>
    obtain ⟨hi, hname⟩ := position?_spec hpos
    rw [if_pos (mem_names_of_position? hpos)]
    show (p.definitions.set i d).map (·.name) = p.definitions.map (·.name)
    have hmapped : i < (p.definitions.map (·.name)).length := by simpa using hi
    have hsame : (p.definitions.map (·.name))[i] = d.name := by simpa using hname
    rw [List.map_set, ← hsame, List.set_getElem_self]

/-- Behind a registration an event is the new one, or one of another name that was there before. -/
theorem mem_definitions_define (h : p.Sound) {d' : EventDefinition κ} :
    d' ∈ (p.define d).definitions ↔ d' = d ∨ d' ∈ p.definitions ∧ d'.name ≠ d.name := by
  unfold define
  cases hpos : p.position? d.name with
  | none =>
    have hnew := not_mem_names hpos
    show d' ∈ p.definitions ++ [d] ↔ _
    rw [List.mem_append, List.mem_singleton, or_comm]
    refine or_congr_right (iff_self_and.mpr fun hmem hname => hnew ?_)
    rw [← hname]
    exact List.mem_map_of_mem hmem
  | some i =>
    obtain ⟨hi, hname⟩ := position?_spec hpos
    show d' ∈ p.definitions.set i d ↔ _
    constructor
    · intro hmem
      obtain ⟨j, hj, rfl⟩ := List.getElem_of_mem hmem
      rw [List.length_set] at hj
      rw [List.getElem_set]
      split
      · exact .inl rfl
      · rename_i hne
        refine .inr ⟨List.getElem_mem hj, fun heq => hne ?_⟩
        -- two positions with one name are one position
        have hi' : i < (p.definitions.map (·.name)).length := by simpa using hi
        have hj' : j < (p.definitions.map (·.name)).length := by simpa using hj
        have hsame : (p.definitions.map (·.name))[i] = (p.definitions.map (·.name))[j] := by
          simpa using hname.trans heq.symm
        exact (List.Nodup.getElem_inj_iff h.unique).mp hsame
    · rintro (rfl | ⟨hmem, hne⟩)
      · exact List.mem_set hi d'
      · obtain ⟨j, hj, rfl⟩ := List.getElem_of_mem hmem
        have hij : i ≠ j := by
          rintro rfl
          exact hne hname
        have hj' : j < (p.definitions.set i d).length := by simpa using hj
        have hsame : (p.definitions.set i d)[j] = p.definitions[j] := by
          rw [List.getElem_set, if_neg hij]
        exact hsame ▸ List.getElem_mem hj'

/-- A registration discards the matches of its name that wait, if there are any. -/
theorem queue_define (h : p.Sound) : (p.define d).queue = p.discard d.name := by
  unfold define
  cases hpos : p.position? d.name with
  | none => exact (discard_of_not_mem h (not_mem_names hpos)).symm
  | some i => rfl

theorem sound_define (h : p.Sound) : (p.define d).Sound where
  unique := by
    rw [names_define]
    split
    · exact h.unique
    · rename_i hnew
      exact List.nodup_append'.mpr ⟨h.unique, List.nodup_singleton _, by simpa using hnew⟩
  patterns := by
    unfold define
    cases hpos : p.position? d.name with
    | none =>
      show p.matcher.patterns ++ [d.pattern] = (p.definitions ++ [d]).map _
      rw [h.patterns, List.map_append]
      rfl
    | some i =>
      obtain ⟨hi, -⟩ := position?_spec hpos
      have hlt : i < p.matcher.patterns.length := by
        rw [h.patterns, List.length_map]
        exact hi
      show (p.matcher.replace i d.pattern).patterns = (p.definitions.set i d).map _
      unfold PatternMatcher.replace
      rw [if_pos hlt, List.map_set, ← h.patterns]
  indexed := by
    unfold define
    cases p.position? d.name with
    | none => exact PatternMatcher.indexed_push _ _
    | some i => exact PatternMatcher.indexed_replace h.indexed _ _
  current := by
    intro entry hentry
    rw [queue_define d h, mem_discard] at hentry
    exact (mem_definitions_define d h).mpr (.inr ⟨h.current entry hentry.1, hentry.2⟩)

end Define

section Unregister

variable (name : String)

/-- Where names are unique the first event of a name is the only one. -/
theorem eraseP_eq_filter {definitions : List (EventDefinition κ)}
    (h : (definitions.map (·.name)).Nodup) :
    definitions.eraseP (·.name == name) = definitions.filter (·.name != name) := by
  induction definitions with
  | nil => rfl
  | cons d definitions ih =>
    rw [List.map_cons, List.nodup_cons] at h
    by_cases hname : d.name = name
    · rw [List.eraseP_cons_of_pos (by simpa using hname),
        List.filter_cons_of_neg (by simpa using hname)]
      refine (List.filter_eq_self.mpr fun d' hd' => ?_).symm
      rw [bne_iff_ne]
      intro heq
      exact h.1 (List.mem_map.mpr ⟨d', hd', heq.trans hname.symm⟩)
    · rw [List.eraseP_cons_of_neg (by simpa using hname),
        List.filter_cons_of_pos (by simpa using hname), ih h.2]

/-- Unregistering takes away the event of the name. -/
theorem definitions_unregister (h : p.names.Nodup) :
    (p.unregister name).2.definitions = p.definitions.filter (·.name != name) := by
  rw [← eraseP_eq_filter name h, List.eraseP_eq_eraseIdx]
  unfold unregister position?
  cases p.definitions.findIdx? (·.name == name) <;> rfl

theorem names_unregister (h : p.names.Nodup) :
    (p.unregister name).2.names = p.names.filter (· != name) := by
  show (p.unregister name).2.definitions.map _ = (p.definitions.map _).filter _
  rw [definitions_unregister name h, List.filter_map]
  rfl

theorem queue_unregister (h : p.Sound) : (p.unregister name).2.queue = p.discard name := by
  unfold unregister
  cases hpos : p.position? name with
  | none => exact (discard_of_not_mem h (not_mem_names hpos)).symm
  | some i => rfl

theorem sound_unregister (h : p.Sound) : (p.unregister name).2.Sound where
  unique := by
    rw [names_unregister name h.unique]
    exact h.unique.filter _
  patterns := by
    unfold unregister
    cases hpos : p.position? name with
    | none => exact h.patterns
    | some i =>
      obtain ⟨hi, -⟩ := position?_spec hpos
      have hlt : i < p.matcher.patterns.length := by
        rw [h.patterns, List.length_map]
        exact hi
      show (p.matcher.remove i).2.patterns = (p.definitions.eraseIdx i).map _
      unfold PatternMatcher.remove
      rw [List.getElem?_eq_getElem hlt]
      show p.matcher.patterns.eraseIdx i = _
      rw [h.patterns, List.eraseIdx_map]
  indexed := by
    unfold unregister
    cases p.position? name with
    | none => exact h.indexed
    | some i => exact PatternMatcher.indexed_remove h.indexed i
  current := by
    intro entry hentry
    rw [queue_unregister name h, mem_discard] at hentry
    rw [definitions_unregister name h.unique, List.mem_filter, bne_iff_ne]
    exact ⟨h.current entry hentry.1, hentry.2⟩

end Unregister

section Feed

variable (line : String)

/-- What stands at a position of the matcher that matches a line is an event, and it matches. -/
theorem event_of_hit (h : p.Sound) {hit : Nat × Captures}
    (hhit : hit ∈ (p.matcher.matchLine engine line).1) :
    ∃ d, p.definitions[hit.1]? = some d ∧ d.pattern.captures? line = some hit.2 := by
  rw [PatternMatcher.matchLine_eq h.indexed, List.mem_filterMap] at hhit
  obtain ⟨i, -, hi⟩ := hhit
  unfold PatternMatcher.tryAt at hi
  rw [h.patterns, List.getElem?_map] at hi
  cases hd : p.definitions[i]? with
  | none =>
    rw [hd] at hi
    exact absurd hi nofun
  | some d =>
    rw [hd] at hi
    obtain ⟨captures, hcaptures, rfl⟩ := Option.map_eq_some_iff.mp hi
    exact ⟨d, hd, hcaptures⟩

/-- Going through a list by position is going through the list. -/
theorem filterMap_range_getElem? {α β : Type} (f : α → Option β) (l : List α) :
    (List.range l.length).filterMap (fun i => l[i]? >>= f) = l.filterMap f := by
  induction l with
  | nil => rfl
  | cons a l ih =>
    have hfirst : ((a :: l)[0]? >>= f) = f a := rfl
    rw [List.length_cons, List.range_succ_eq_map, List.filterMap_cons, List.filterMap_map, hfirst,
      List.filterMap_cons]
    have hrest : ((fun i => (a :: l)[i]? >>= f) ∘ Nat.succ) = fun i => l[i]? >>= f :=
      funext fun i => by rw [Function.comp_apply, List.getElem?_cons_succ]
    rw [hrest, ih]

/-- **The matches that are found by position are those of the events, in their order.** -/
theorem found_eq (h : p.Sound) :
    (p.matcher.matchLine engine line).1.filterMap (pendingOf p.definitions) = p.found line := by
  have hone : ∀ i, (p.matcher.tryAt line i).bind (pendingOf p.definitions) =
      p.definitions[i]? >>= match? line := by
    intro i
    unfold PatternMatcher.tryAt
    rw [h.patterns, List.getElem?_map]
    cases hd : p.definitions[i]? with
    | none => rfl
    | some d =>
      show ((d.pattern.captures? line).map fun captures => (i, captures)).bind _ = match? line d
      unfold match?
      cases d.pattern.captures? line with
      | none => rfl
      | some captures => simp [pendingOf, hd]
  rw [PatternMatcher.matchLine_eq h.indexed, List.filterMap_filterMap, h.patterns,
    List.length_map]
  simp only [hone]
  exact filterMap_range_getElem? _ _

theorem feed_eq (engine : PatternEngine) (h : p.Sound) :
    p.feed engine line = ((p.found line).length,
      { p with
        matcher := (p.matcher.matchLine engine line).2
        queue := p.queue.pushAll (p.found line) }) := by
  unfold feed
  simp only
  rw [found_eq line h]

theorem sound_feed (engine : PatternEngine) (h : p.Sound) : (p.feed engine line).2.Sound := by
  rw [feed_eq line engine h]
  refine ⟨h.unique, (PatternMatcher.patterns_matchLine _ _ _).trans h.patterns,
    PatternMatcher.indexed_matchLine h.indexed line, fun entry hentry => ?_⟩
  obtain ⟨k, -, hentries, -⟩ := p.queue.pushAll_spec (p.found line)
  have hmem : entry ∈ (p.queue.pushAll (p.found line)).entries := hentry
  rw [hentries] at hmem
  rcases List.mem_append.mp (List.mem_of_mem_drop hmem) with hold | hnew
  · exact h.current entry hold
  · obtain ⟨d, hd, hmatch⟩ := List.mem_filterMap.mp hnew
    obtain ⟨captures, -, rfl⟩ := Option.map_eq_some_iff.mp hmatch
    exact hd

end Feed

/-! ## Behind a row of calls -/

/-- A registration with a valid pattern adds the event; one with an invalid pattern is refused and
changes nothing. -/
theorem perform_register (engine : PatternEngine) (p : EventProcessor κ) (name pattern : String)
    (callback : κ) :
    p.perform engine (.register name pattern callback) =
      match (EventCall.register name pattern callback).defined? engine with
      | some d => p.define d
      | none => p := by
  simp only [perform, register, EventCall.defined?]
  cases Pattern.compile engine pattern <;> rfl

/-- Taking a match leaves the others, and all else as it was. -/
theorem perform_pop (engine : PatternEngine) (p : EventProcessor κ) :
    p.perform engine .pop =
      { p with queue := { p.queue with entries := p.queue.entries.tail } } := by
  obtain ⟨definitions, matcher, ⟨entries, limit?, dropped⟩⟩ := p
  cases entries <;> rfl

/-- What a call does to the events: it registers one, or unregisters a name, or leaves them as they
are. -/
theorem perform_cases (engine : PatternEngine) (h : p.Sound) (call : EventCall κ) :
    (∃ d, call.defined? engine = some d ∧ p.perform engine call = p.define d) ∨
      (∃ name, call = .unregister name ∧ p.perform engine call = (p.unregister name).2) ∨
      call.defined? engine = none ∧ (∀ name, call.removes name = false) ∧
        (p.perform engine call).definitions = p.definitions := by
  cases call with
  | register name pattern callback =>
    rw [perform_register]
    cases hdef : (EventCall.register name pattern callback).defined? engine with
    | some d => exact .inl ⟨d, rfl, rfl⟩
    | none => exact .inr (.inr ⟨rfl, fun _ => rfl, rfl⟩)
  | unregister name => exact .inr (.inl ⟨name, rfl, rfl⟩)
  | feed line =>
    refine .inr (.inr ⟨rfl, fun _ => rfl, ?_⟩)
    show (p.feed engine line).2.definitions = _
    rw [feed_eq line engine h]
  | pop =>
    refine .inr (.inr ⟨rfl, fun _ => rfl, ?_⟩)
    rw [perform_pop]

/-- **The parts fit together behind every call.** -/
theorem sound_perform (engine : PatternEngine) (h : p.Sound) (call : EventCall κ) :
    (p.perform engine call).Sound := by
  cases call with
  | register name pattern callback =>
    rw [perform_register]
    cases (EventCall.register name pattern callback).defined? engine with
    | some d => exact sound_define d h
    | none => exact h
  | unregister name => exact sound_unregister name h
  | feed line => exact sound_feed line engine h
  | pop =>
    rw [perform_pop]
    exact ⟨h.unique, h.patterns, h.indexed,
      fun entry hentry => h.current entry (List.mem_of_mem_tail hentry)⟩

theorem sound_after (engine : PatternEngine) (h : p.Sound) (calls : List (EventCall κ)) :
    (p.after engine calls).Sound := by
  induction calls generalizing p with
  | nil => exact h
  | cons call calls ih => exact ih (sound_perform engine h call)

/-- **What is registered can be read off the calls**: which names, in which order, and which event
under each of them. -/
structure Dated engine (calls : List (EventCall κ)) (p : EventProcessor κ) : Prop where
  known : ∀ name, name ∈ p.names ↔ (EventCall.since? engine name calls).isSome
  order : p.names.Pairwise fun a b =>
    ∃ i j, EventCall.since? engine a calls = some i ∧ EventCall.since? engine b calls = some j ∧
      i < j
  newest : ∀ d ∈ p.definitions, EventCall.latest? engine d.name calls = some d

theorem dated_empty (engine : PatternEngine) (limit? : Option Nat) :
    Dated engine [] (empty (κ := κ) limit?) where
  known := fun _ => ⟨nofun, nofun⟩
  order := .nil
  newest := nofun

namespace Dated

variable {calls : List (EventCall κ)} {call : EventCall κ}

/-- The order of some names that were there before, if nothing has changed about them. -/
theorem order_of_sublist (h : Dated engine calls p) {names : List String}
    (hsome : names.Sublist p.names)
    (hsame : ∀ a ∈ names,
      EventCall.since? engine a (calls ++ [call]) = EventCall.since? engine a calls) :
    names.Pairwise fun a b => ∃ i j, EventCall.since? engine a (calls ++ [call]) = some i ∧
      EventCall.since? engine b (calls ++ [call]) = some j ∧ i < j := by
  refine (h.order.sublist hsome).imp_of_mem fun ha hb => ?_
  rw [hsame _ ha, hsame _ hb]
  exact id

theorem define (h : Dated engine calls p) (hs : p.Sound) {d : EventDefinition κ}
    (hd : call.defined? engine = some d) : Dated engine (calls ++ [call]) (p.define d) where
  known := by
    intro name
    rw [names_define, EventCall.since?_of_defined hd]
    by_cases hname : d.name = name
    · subst hname
      rw [if_pos rfl]
      split
      · rename_i hmem
        exact iff_of_true hmem rfl
      · exact iff_of_true (List.mem_append_right _ List.mem_cons_self) rfl
    · rw [if_neg hname, ← h.known]
      split
      · rfl
      · rw [List.mem_append, List.mem_singleton]
        exact or_iff_left (Ne.symm hname)
  order := by
    rw [names_define]
    split
    · -- the event takes the place of the one of its name, whose date stays
      refine h.order_of_sublist (List.Sublist.refl _) fun a ha => ?_
      obtain ⟨i, hi⟩ := Option.isSome_iff_exists.mp ((h.known a).mp ha)
      rw [EventCall.since?_of_defined hd, hi]
      exact ite_id _
    · rename_i hnew
      have hother : ∀ a ∈ p.names,
          EventCall.since? engine a (calls ++ [call]) = EventCall.since? engine a calls := by
        intro a ha
        rw [EventCall.since?_of_defined hd, if_neg]
        rintro rfl
        exact hnew ha
      refine List.pairwise_append.mpr
        ⟨h.order_of_sublist (List.Sublist.refl _) hother, List.pairwise_singleton _ _, ?_⟩
      intro a ha b hb
      obtain rfl := List.mem_singleton.mp hb
      obtain ⟨i, hi⟩ := Option.isSome_iff_exists.mp ((h.known a).mp ha)
      have hfree : EventCall.since? engine d.name calls = none :=
        Option.not_isSome_iff_eq_none.mp fun hsome => hnew ((h.known _).mpr hsome)
      refine ⟨i, calls.length, (hother a ha).trans hi, ?_, EventCall.since?_lt hi⟩
      rw [EventCall.since?_of_defined hd, if_pos rfl, hfree]
      rfl
  newest := by
    intro d' hd'
    rw [EventCall.latest?_concat]
    unfold EventCall.defines
    rw [hd, Option.any_some]
    rcases (mem_definitions_define d hs).mp hd' with rfl | ⟨hmem, hne⟩
    · rw [beq_self_eq_true, if_pos rfl]
    · rw [if_neg (by simpa using Ne.symm hne)]
      exact h.newest d' hmem

theorem unregister (h : Dated engine calls p) (hs : p.Sound) (name : String) :
    Dated engine (calls ++ [.unregister name]) (p.unregister name).2 where
  known := by
    intro other
    rw [names_unregister name hs.unique, List.mem_filter, bne_iff_ne, EventCall.since?_unregister,
      h.known]
    by_cases hname : name = other
    · subst hname
      rw [if_pos rfl]
      exact iff_of_false (fun hboth => hboth.2 rfl) nofun
    · rw [if_neg hname]
      exact and_iff_left (Ne.symm hname)
  order := by
    rw [names_unregister name hs.unique]
    refine h.order_of_sublist List.filter_sublist fun a ha => ?_
    rw [List.mem_filter, bne_iff_ne] at ha
    rw [EventCall.since?_unregister, if_neg (Ne.symm ha.2)]
  newest := by
    intro d hd
    rw [definitions_unregister name hs.unique, List.mem_filter] at hd
    rw [EventCall.latest?_concat]
    exact h.newest d hd.1

/-- A call that leaves the events as they are changes nothing about them. -/
theorem silent {p' : EventProcessor κ} (h : Dated engine calls p)
    (hdefined : call.defined? engine = none)
    (hremoves : ∀ name, call.removes name = false) (hsame : p'.definitions = p.definitions) :
    Dated engine (calls ++ [call]) p' := by
  have hnames : p'.names = p.names := congrArg (List.map EventDefinition.name) hsame
  have hsince : ∀ name,
      EventCall.since? engine name (calls ++ [call]) = EventCall.since? engine name calls :=
    fun name => EventCall.since?_of_silent hdefined hremoves
  refine ⟨fun name => ?_, ?_, fun d hd => ?_⟩
  · rw [hnames, hsince]
    exact h.known name
  · rw [hnames]
    exact h.order_of_sublist (List.Sublist.refl _) fun a _ => hsince a
  · rw [EventCall.latest?_concat]
    unfold EventCall.defines
    rw [hdefined]
    exact h.newest d (hsame ▸ hd)

theorem perform (h : Dated engine calls p) (hs : p.Sound) (call : EventCall κ) :
    Dated engine (calls ++ [call]) (p.perform engine call) := by
  rcases perform_cases engine hs call with
    ⟨d, hd, heq⟩ | ⟨name, rfl, heq⟩ | ⟨hdefined, hremoves, hsame⟩
  · rw [heq]
    exact h.define hs hd
  · rw [heq]
    exact h.unregister hs name
  · exact h.silent hdefined hremoves hsame

end Dated

theorem dated_after (engine : PatternEngine) (limit? : Option Nat) (calls : List (EventCall κ)) :
    Dated engine calls ((empty limit?).after engine calls) := by
  induction calls using List.reverseRecOn with
  | nil => exact dated_empty engine limit?
  | append_singleton calls call ih =>
    rw [after_append]
    exact ih.perform (sound_after engine (sound_empty limit?) calls) call

/-- **The law of a processor** behind a row of calls. -/
structure Law (engine : PatternEngine) (calls : List (EventCall κ)) (p : EventProcessor κ) :
    Prop where
  /-- No two events have the same name. -/
  unique : p.names.Nodup
  /-- The matcher has the patterns of the events, in their order. -/
  patterns : p.matcher.patterns = p.definitions.map (·.pattern)
  /-- A line is found at positions of events whose patterns match it. -/
  inRange : ∀ line, ∀ hit ∈ (p.matcher.matchLine engine line).1,
    ∃ d, p.definitions[hit.1]? = some d ∧ d.pattern.captures? line = some hit.2
  /-- A line that is fed queues the matches of the events, in their order, and nothing else. -/
  fed : ∀ line, (p.feed engine line).1 = (p.found line).length ∧
    (p.feed engine line).2.queue = p.queue.pushAll (p.found line)
  /-- A waiting match belongs to an event that is registered now. Callbacks are of any type, so that
  two registrations under a name can be told apart by theirs. -/
  current : ∀ entry ∈ p.queue.entries, entry.definition ∈ p.definitions
  /-- The names are those that have been registered since they were unregistered last, in the order
  of their first registrations since then, and each stands for what was registered last under
  it. -/
  dated : Dated engine calls p
  /-- A registration that is refused changes nothing. -/
  refused : ∀ name pattern callback error,
    p.register engine name pattern callback = .error error →
    p.perform engine (.register name pattern callback) = p

/-- **The law holds behind every row of calls.** -/
theorem law (engine : PatternEngine) (limit? : Option Nat) (calls : List (EventCall κ)) :
    Law engine calls ((empty limit?).after engine calls) := by
  have hs := sound_after engine (sound_empty limit?) calls
  refine ⟨hs.unique, hs.patterns, fun line _ hhit => event_of_hit line hs hhit, fun line => ?_,
    hs.current, dated_after engine limit? calls, fun name pattern callback error herror => ?_⟩
  · rw [feed_eq line engine hs]
    exact ⟨rfl, rfl⟩
  · simp only [perform, herror]

end EventProcessor

end Heartbeat

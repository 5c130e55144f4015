import Heartbeat.Proofs.Pattern.Reader
import Heartbeat.Proofs.Scheduler.Registration
import Heartbeat.Proofs.Thread.Desk
import Heartbeat.StepScript.Interpreter

/-!
# Hit counters

The callback of an event stores the captures of a match and then counts the match in a variable of
the name of the event. Both go into the variables of the script, under names that its author
chooses. The names of the captures of a pattern are different, so that they do not get in each
other's way; but an event may have the name of one of its captures, and what is counted up then is
the text that was just captured.

* `Counted`: what the variables are behind a match.
* `hitLaw`: the callback of a match, in any context.
* `registers_language`: a step script registers nothing but hit counters, under their own names.
* `counter_law_of_create`: the law of hit counters, in every run.
* `clash_counts_captured_text`: an event with the name of its capture.
-/

namespace Heartbeat

open Heartbeat.Text

/-! ## Captures by name -/

namespace Captures

variable {captures : Captures} {name : String}

theorem get?_eq_none (h : name ∉ captures.map Prod.fst) : get? captures name = none := by
  unfold get?
  rw [Option.map_eq_none_iff, List.find?_eq_none]
  intro capture hcapture heq
  exact h (List.mem_map.mpr ⟨capture, hcapture, beq_iff_eq.mp heq⟩)

/-- Where the names are different, each has its text. -/
theorem get?_of_mem (h : (captures.map Prod.fst).Nodup) {capture : String × String}
    (hcapture : capture ∈ captures) : get? captures capture.1 = some capture.2 := by
  induction captures with
  | nil => exact absurd hcapture List.not_mem_nil
  | cons first captures ih =>
    rw [List.map_cons, List.nodup_cons] at h
    rcases List.mem_cons.mp hcapture with rfl | hmem
    · simp [get?]
    · have hne : first.1 ≠ capture.1 := by
        intro heq
        exact h.1 (heq ▸ List.mem_map_of_mem hmem)
      have hrest := ih h.2 hmem
      simpa [get?, hne] using hrest

end Captures

namespace StepScript

variable {W : Type} {engine : PatternEngine} {captures : Captures}

/-! ## Captures in the variables -/

/-- Behind captures of different names, each of these names has its text, and the others are as
before. -/
theorem get?_foldl_set (h : (captures.map Prod.fst).Nodup) (vars : Variables) (name : String) :
    Variables.get? (captures.foldl (fun vars (name, text) => vars.set name text) vars) name =
      (Captures.get? captures name).or (vars.get? name) := by
  induction captures generalizing vars with
  | nil => rfl
  | cons capture captures ih =>
    obtain ⟨other, text⟩ := capture
    rw [List.map_cons, List.nodup_cons] at h
    rw [List.foldl_cons, ih h.2, Variables.get?_set]
    by_cases hname : name = other
    · -- no later capture has the name, so its text stays
      subst hname
      rw [Captures.get?_eq_none h.1]
      simp [Captures.get?]
    · simp [Captures.get?, hname, Ne.symm hname]

/-- The number that a text shows; no text, or one that shows no number, counts as zero. -/
def shown (text? : Option String) : Nat :=
  (text?.bind fun text => readNat? maxWord64 text.toList).getD 0

/-- The text that the counter of a match shows when it is counted up: a text that was captured under
its name, or else the one it had. -/
def counterText? (entry : PendingEvent HitCounter) (vars : Variables) : Option String :=
  (entry.captures.get? entry.name).or (vars.get? entry.name)

/-- **What the variables are behind a match**: the captured texts, one more hit, and all else as it
was. -/
structure Counted (entry : PendingEvent HitCounter) (vars vars' : Variables) : Prop where
  captured : ∀ capture ∈ entry.captures, capture.1 ≠ entry.name →
    vars'.get? capture.1 = some capture.2
  counted : vars'.get? entry.name = some (toString (shown (counterText? entry vars) + 1))
  others : ∀ name, name ∉ entry.captures.map Prod.fst → name ≠ entry.name →
    vars'.get? name = vars.get? name

/-- **The captures are stored and the counter goes up.** -/
theorem counted_set {entry : PendingEvent HitCounter}
    (h : (entry.captures.map Prod.fst).Nodup) (vars : Variables) :
    Counted entry vars
      (Variables.set (entry.captures.foldl (fun vars (name, text) => vars.set name text) vars)
        entry.name (toString (shown (counterText? entry vars) + 1))) where
  captured capture hcapture hname := by
    rw [Variables.get?_set, if_neg hname, get?_foldl_set h, Captures.get?_of_mem h hcapture]
    rfl
  counted := by rw [Variables.get?_set, if_pos rfl]
  others name hcaptures hname := by
    rw [Variables.get?_set, if_neg hname, get?_foldl_set h, Captures.get?_eq_none hcaptures]
    rfl

/-! ## The callback of a match -/

/-- What the callback does: the captures are stored, and the counter goes up unless it shows the
largest number. -/
theorem answer_eq (caller : Caller) (c : Context (language W engine))
    (entry : PendingEvent HitCounter) :
    c.answer caller entry =
      let stored := Memory.storeCaptures c.memory entry.captures
      let count := hits stored entry.definition.callback
      if count = maxWord64 then
        (.fault (.panicked (some overflowText)), { c with memory := stored })
      else
        (.success, { c with
          memory := stored.set entry.definition.callback.event (toString (count + 1)) }) := by
  simp only [Context.answer, language, respond, Context.run]
  split <;> rfl

/-- A callback that succeeds leaves no report. -/
theorem respond_of_success {L : Language} {caller : Caller} {entry : PendingEvent L.Callback}
    {c c' : Context L} (h : c.answer caller entry = (.success, c')) :
    c.respond caller entry = c' := by
  unfold Context.answer at h
  unfold Context.respond
  simp only
  rw [h]

/-- **The law of a hit** in a context. -/
structure HitLaw (caller : Caller) (entry : PendingEvent HitCounter)
    (c : Context (language W engine)) : Prop where
  /-- The callback succeeds unless the counter shows the largest number of 64 bits. -/
  success_iff : (c.answer caller entry).1 = .success ↔
    shown (counterText? entry c.memory.vars) ≠ maxWord64
  /-- If it succeeds, it has changed nothing but variables, and these as it should. -/
  success : (c.answer caller entry).1 = .success → ∃ vars,
    c.respond caller entry = { c with memory := { c.memory with vars := vars } } ∧
      Counted entry c.memory.vars vars

/-- **The callback of a match counts a hit**, if it is the counter of the event and the captures
have different names. -/
theorem hitLaw {entry : PendingEvent HitCounter}
    (hcounter : entry.definition.callback = ⟨entry.name⟩)
    (hnames : (entry.captures.map Prod.fst).Nodup) (caller : Caller)
    (c : Context (language W engine)) :
    HitLaw caller entry c := by
  have hcount : hits (Memory.storeCaptures c.memory entry.captures) entry.definition.callback =
      shown (counterText? entry c.memory.vars) := by
    rw [hcounter]
    exact congrArg shown (get?_foldl_set hnames _ _)
  -- the count is made behind the captures, so that it is the captured text that a clash leaves
  have hanswer := answer_eq caller c entry
  simp only [hcount] at hanswer
  by_cases hmax : shown (counterText? entry c.memory.vars) = maxWord64
  · rw [if_pos hmax] at hanswer
    refine ⟨?_, fun hsuccess => ?_⟩
    · rw [hanswer]
      exact iff_of_false nofun (not_not_intro hmax)
    · rw [hanswer] at hsuccess
      cases hsuccess
  · rw [if_neg hmax] at hanswer
    refine ⟨?_, fun _ => ⟨_, ?_, counted_set hnames c.memory.vars⟩⟩
    · rw [hanswer]
      exact iff_of_true rfl hmax
    · rw [respond_of_success hanswer, hcounter]
      rfl

/-! ## What step scripts register -/

/-- A callback that counts under the name of its event. -/
def IsOwnCounter (name _pattern : String) (callback : HitCounter) : Prop := callback = ⟨name⟩

variable {program : Program} {caller : Caller}

theorem registers_execute (m : Memory) (line : Nat) (i : Instruction) :
    (execute (W := W) program caller m line i).Registers IsOwnCounter := by
  cases i with
  | event name pattern => exact ⟨rfl, fun answer => by cases answer <;> trivial⟩
  | incr var =>
    simp only [execute, increment]
    split
    · trivial
    · split
      · trivial
      · split <;> trivial
  | unevent name => exact fun _ => trivial
  | doEvents => exact fun _ => trivial
  | delay amount until? =>
    simp only [execute]
    split <;> trivial
  | goto label =>
    simp only [execute, jump]
    split <;> trivial
  | ifSet var label =>
    simp only [execute, jump]
    split
    · split <;> trivial
    · trivial
  | _ => trivial

/-- **A step script registers nothing but counters of its events**, and callbacks register
nothing. -/
theorem registers_language : (language W engine).Registers IsOwnCounter where
  step program caller m := by
    simp only
    split
    · trivial
    · exact registers_execute _ _ _
  respond counter captures caller m := by
    simp only
    split <;> trivial

/-! ## The law -/

/-- The captures of a match have the names that the pattern gives them, which are different. -/
theorem names_of_match {source line : String} {pattern : Pattern}
    (hcompiled : Pattern.compile engine source = .ok pattern)
    (hmatched : pattern.captures? line = some captures) :
    captures.map Prod.fst = pattern.names ∧ (captures.map Prod.fst).Nodup := by
  have hnames : captures.map Prod.fst = pattern.names :=
    (pattern.captureLaw line).names captures hmatched
  obtain ⟨-, -, hregular, -⟩ := Pattern.compile_eq_ok_iff.mp hcompiled
  exact ⟨hnames, hnames ▸ hregular.distinct⟩

/-- **The law of hit counters** in the run of a row of operations from a state. -/
structure CounterLaw (ops : List (Millis × Operation (language W engine)))
    (s₀ : Scheduler (language W engine)) : Prop where
  /-- Whatever name and accepted pattern an event has, and whatever line it matches, its callback
  counts a hit in any context. -/
  accepted : ∀ (event source line : String) (pattern : Pattern) (captures : Captures),
    Pattern.compile engine source = .ok pattern → pattern.captures? line = some captures →
      ∀ (caller : Caller) (c : Context (language W engine)),
        HitLaw caller ⟨⟨event, pattern, ⟨event⟩⟩, captures⟩ c
  /-- Every match that is handed to a callback comes from a pattern that its event was registered
  with and a line that was fed behind that, and the callback is the counter of the event. -/
  handed : ∀ p, ∀ entry ∈ EventDeed.invoked (eventLog p (history ops s₀) s₀), ∃ pattern line,
    EventProcessor.Origin engine (EventDeed.calls (eventLog p (history ops s₀) s₀)) entry pattern
        line ∧
      entry.definition.callback = ⟨entry.name⟩
  /-- Its captures are those that the pattern names. -/
  named : ∀ p, ∀ entry ∈ EventDeed.invoked (eventLog p (history ops s₀) s₀),
    entry.captures.map Prod.fst = entry.definition.pattern.names
  /-- So it counts a hit. -/
  answered : ∀ p, ∀ entry ∈ EventDeed.invoked (eventLog p (history ops s₀) s₀),
    ∀ (caller : Caller) (c : Context (language W engine)), HitLaw caller entry c

/-- **Captures are stored and hits are counted**, in every run, whatever the names are. -/
theorem counter_law_of_create (options : SchedulerOptions) (library : ScriptLibrary)
    (searchPath : List ScriptPath) (world : W) (start : Millis) (clock : Clock)
    (ops : List (Millis × Operation (language W engine))) :
    CounterLaw ops
      (Scheduler.create (L := language W engine) options library searchPath world start clock) := by
  have horigin := fun p => exists_origin_of_create (L := language W engine) options library
    searchPath world start clock ops p registers_language
  refine ⟨fun event source line pattern captures hcompiled hmatched caller c => ?_, horigin,
    fun p entry hentry => ?_, fun p entry hentry caller c => ?_⟩
  · exact hitLaw rfl (names_of_match hcompiled hmatched).2 caller c
  · obtain ⟨pattern, line, hfrom, -⟩ := horigin p entry hentry
    exact (names_of_match hfrom.compiled hfrom.matched).1
  · obtain ⟨pattern, line, hfrom, hcounter⟩ := horigin p entry hentry
    exact hitLaw hcounter (names_of_match hfrom.compiled hfrom.matched).2 caller c

/-! ## An event with the name of its capture -/

/-- The variables behind a match, if the captures and the counter were apart. -/
structure CountedApart (entry : PendingEvent HitCounter) (vars vars' : Variables) : Prop where
  captured : ∀ capture ∈ entry.captures, vars'.get? capture.1 = some capture.2
  counted : vars'.get? entry.name = some (toString (shown (vars.get? entry.name) + 1))
  others : ∀ name, name ∉ entry.captures.map Prod.fst → name ≠ entry.name →
    vars'.get? name = vars.get? name

/-- A script whose event has the name of its capture; it returns what it finds under the name. -/
def namesake : Program :=
  ⟨[⟨1, .event "n" "hit \x7bn\x7d"⟩, ⟨2, .delay "0" (some "n")⟩, ⟨3, .leave ["$n"]⟩], []⟩

/-- The script is started, a line is fed, and time goes on. -/
def namesakeRun : List (Millis × Operation (language Unit)) :=
  [(0, .startScript "namesake" "namesake" namesake []), (0, .feed "hit 1"), (10, .tick)]

/-- A scheduler without threads. -/
def namesakeStart : Scheduler (language Unit) :=
  .create {} (.ofFiles (.ofList []) "step") [] () 0

/-- The match of the line. -/
def namesakeHit : PendingEvent HitCounter :=
  ⟨⟨"n", ⟨"hit \x7bn\x7d", [.literal "hit ".toList, .gap (some "n")]⟩, ⟨"n"⟩⟩, [("n", "1")]⟩

/-- The variables that a callback leaves behind where there were none. -/
def leftBy (entry : PendingEvent HitCounter) : CallbackEnd × Variables :=
  let c : Context (language Unit) := ⟨.empty none, {}, ({} : Memory), (), [], []⟩
  let answer := c.answer ⟨1, "namesake", [], 10⟩ entry
  (answer.1, Memory.vars answer.2.memory)

/-- **A captured text is counted up**: the line has a one, and there is one hit, but the script
finds a two. -/
theorem clash_counts_captured_text :
    (EventDeed.invoked (eventLog 1 (history namesakeRun namesakeStart) namesakeStart) :
        List (PendingEvent HitCounter)) = [namesakeHit] ∧
      ((performAll namesakeRun namesakeStart).table.find? 1).map (·.returnValues) = some ["2"] ∧
      (leftBy namesakeHit).1 = .success ∧ ¬ CountedApart namesakeHit [] (leftBy namesakeHit).2 := by
  refine ⟨by decide +kernel, by decide +kernel, by decide +kernel, fun hapart => ?_⟩
  have hcounted := hapart.counted
  revert hcounted
  decide +kernel

end StepScript

end Heartbeat

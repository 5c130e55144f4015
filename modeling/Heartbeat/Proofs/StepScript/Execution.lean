import Heartbeat.Proofs.StepScript.Program
import Heartbeat.Proofs.Thread.Memory
import Heartbeat.StepScript.Interpreter

/-!
# How a step of a step script goes wrong

Only three instructions can go wrong: `error` always does, `delay` does when its amount is no
duration or too long a one, and `incr` does when its variable shows no number or the largest one.
A jump cannot, since the labels of a program that was read are defined; and the position stays
within the program, whatever the callbacks of the events do between the steps and during them.

* `GoesWrong`, `Overflows`: when an instruction faults, and with what message; when it breaks down.
* `outcome_execute`: the cases of how an instruction comes out, one for each of these and one for
  all that goes well.
* `Reachable`: the memories that a script can have; `bears_reachable_service`: those of threads
  are of this kind.
* `within_of_reachable`: the position is never behind the end of the program.
* `stepLaw_of_parse`: the law of a step, for every program that was read.
-/

namespace Heartbeat.StepScript

open Heartbeat.Text

/-! ## Instructions that go wrong -/

/-- The instruction faults with the message, under these variables. -/
inductive GoesWrong (vars : Variables) : Instruction → String → Prop where
  | raised (message : String) : GoesWrong vars (.fail message) (interpolate vars message)
  | badDelay {amount : String} {until? : Option String} {error : DurationError}
      (h : Duration.parse (interpolate vars amount) = .error error) :
      GoesWrong vars (.delay amount until?) error.message
  | delayTooLong {amount : String} {until? : Option String} {millis : Millis}
      (h : Duration.parse (interpolate vars amount) = .ok millis) (hlong : maxWord64 < millis) :
      GoesWrong vars (.delay amount until?) s!"delay '{interpolate vars amount}' is too long"
  | notANumber {var value : String} (h : vars.get? var = some value)
      (hread : readInt? maxInt64 value.toList = none) :
      GoesWrong vars (.incr var) s!"'{var}' is not a number: {value}"

/-- The instruction counts up a variable that shows the largest number. -/
def Overflows (vars : Variables) (i : Instruction) : Prop :=
  ∃ var value, i = .incr var ∧ vars.get? var = some value ∧
    readInt? maxInt64 value.toList = some (maxInt64 : Int)

variable {vars : Variables} {i : Instruction} {message other : String}

/-- An instruction that faults has one message. -/
theorem GoesWrong.unique (h : GoesWrong vars i message) (h' : GoesWrong vars i other) :
    message = other := by
  cases h with
  | raised => cases h'; rfl
  | badDelay hbad =>
    cases h' with
    | badDelay hbad' =>
      obtain rfl := Except.error.inj (hbad.symm.trans hbad')
      rfl
    | delayTooLong hgood => exact absurd (hbad.symm.trans hgood) nofun
  | delayTooLong hgood =>
    cases h' with
    | badDelay hbad => exact absurd (hgood.symm.trans hbad) nofun
    | delayTooLong => rfl
  | notANumber hvalue =>
    cases h' with
    | notANumber hvalue' =>
      obtain rfl := Option.some.inj (hvalue.symm.trans hvalue')
      rfl

/-- An instruction that faults does not break down. -/
theorem GoesWrong.not_overflows (h : GoesWrong vars i message) : ¬ Overflows vars i := by
  rintro ⟨var, value, rfl, hvalue, hmax⟩
  cases h with
  | notANumber hvalue' hread =>
    obtain rfl := Option.some.inj (hvalue.symm.trans hvalue')
    exact absurd (hmax.symm.trans hread) nofun

/-- A jump does not fault. -/
theorem GoesWrong.jump?_eq_none (h : GoesWrong vars i message) : i.jump? = none := by
  cases h <;> rfl

theorem Overflows.jump?_eq_none (h : Overflows vars i) : i.jump? = none := by
  obtain ⟨_, _, rfl, -⟩ := h
  rfl

/-! ## Memory that callbacks leave alone -/

variable {W : Type} {engine : PatternEngine} {program : Program} {caller : Caller}

/-- The position and the mark of stored arguments are the same: at most the variables differ. -/
structure SamePlace (m m' : Memory) : Prop where
  index : m'.index = m.index
  seeded : m'.seeded = m.seeded

theorem SamePlace.refl (m : Memory) : SamePlace m m := ⟨rfl, rfl⟩

theorem SamePlace.trans {m m' m'' : Memory} (h : SamePlace m m') (h' : SamePlace m' m'') :
    SamePlace m m'' :=
  ⟨h'.index.trans h.index, h'.seeded.trans h.seeded⟩

/-- A callback changes nothing but variables. -/
theorem samePlace_respond (entry : PendingEvent HitCounter) (c : Context (language W engine)) :
    SamePlace c.memory (c.respond caller entry).memory := by
  -- The code stores captures and a count, or only captures if the counter is full.
  have hcode : SamePlace c.memory (Context.run caller Context.alreadyDraining
      (respond entry.definition.callback entry.captures) c).2.memory := by
    unfold respond
    simp only [Context.run]
    split <;> exact ⟨rfl, rfl⟩
  unfold Context.respond
  simp only
  split
  · rename_i hrun
    exact congrArg (fun result => result.2.memory) hrun ▸ hcode
  · rename_i hrun
    exact congrArg (fun result => result.2.memory) hrun ▸ hcode

theorem samePlace_drainWithin (bound : Nat) (c : Context (language W engine)) :
    SamePlace c.memory (Context.drainWithin caller bound c).2.memory := by
  induction bound generalizing c with
  | zero => exact .refl _
  | succ bound ih =>
    unfold Context.drainWithin
    split
    · exact .refl _
    · rename_i entry events _
      exact (@samePlace_respond W engine caller entry
        (({ c with events := events } : Context (language W engine)).charge 1)).trans (ih _)

/-! ## How an instruction comes out -/

/-- The step faults or breaks down. -/
def EndsBadly {C : Type} : StepEnd C → Prop
  | .fault _ | .panicked _ => True
  | _ => False

/-- How an instruction on a line comes out, if it runs in this memory: how it ends, and the context
that it leaves. -/
inductive Outcome (program : Program) (m : Memory) (line : Nat) (i : Instruction) :
    StepEnd VariableSet × Context (language W engine) → Prop where
  | faulted {message : String} {c : Context (language W engine)} (h : GoesWrong m.vars i message)
      (hm : c.memory = m) : Outcome program m line i (.fault ⟨message, some s!"line {line}"⟩, c)
  | overflowed {c : Context (language W engine)} (h : Overflows m.vars i) (hm : c.memory = m) :
      Outcome program m line i (.panicked (some overflowText), c)
  | jumped {label : String} {target : Nat} {c : Context (language W engine)}
      (hjump : i.jump? = some label) (htarget : target ≤ program.size)
      (hm : c.memory = { m with index := target }) : Outcome program m line i (.proceed, c)
  | went {last : StepEnd VariableSet} {c : Context (language W engine)} (hlast : ¬ EndsBadly last)
      (hright : ∀ message, ¬ GoesWrong m.vars i message) (hcounts : ¬ Overflows m.vars i)
      (hplace : SamePlace m c.memory) : Outcome program m line i (last, c)

variable {drain : Context (language W engine) → Nat × Context (language W engine)} {m : Memory}
  {c : Context (language W engine)}

/-- A variable that shows no number is the fault of `incr`, and one that shows the largest number
its breakdown; any other one can be counted up. -/
theorem outcome_increment (line : Nat) (var : String) (hm : c.memory = m) :
    Outcome program m line (.incr var) (Context.run caller drain (increment m line var) c) := by
  unfold increment
  cases hvalue : m.vars.get? var with
  | none =>
    refine .went id (fun message hwrong => ?_) ?_ ⟨rfl, rfl⟩
    · cases hwrong with
      | notANumber hset => exact absurd (hvalue.symm.trans hset) nofun
    · rintro ⟨_, _, hincr, hset, -⟩
      obtain rfl := Instruction.incr.inj hincr
      exact absurd (hvalue.symm.trans hset) nofun
  | some value =>
    cases hread : readInt? maxInt64 value.toList with
    | none =>
      simp only [hread]
      exact .faulted (.notANumber hvalue hread) hm
    | some n =>
      by_cases hmax : n = maxInt64
      · simp only [hread, if_pos hmax]
        exact .overflowed ⟨var, value, rfl, hvalue, hmax ▸ hread⟩ hm
      · simp only [hread, if_neg hmax]
        refine .went id (fun message hwrong => ?_) ?_ ⟨rfl, rfl⟩
        · cases hwrong with
          | notANumber hset hnone =>
            obtain rfl := Option.some.inj (hvalue.symm.trans hset)
            exact absurd (hread.symm.trans hnone) nofun
        · rintro ⟨_, _, hincr, hset, hlargest⟩
          obtain rfl := Instruction.incr.inj hincr
          obtain rfl := Option.some.inj (hvalue.symm.trans hset)
          exact hmax (Option.some.inj (hread.symm.trans hlargest))

/-- A jump that leads somewhere works. -/
theorem outcome_jump (line : Nat) {label : String} (hjump : i.jump? = some label)
    (hknown : ∃ target, program.label? label = some target ∧ target ≤ program.size) :
    Outcome program m line i (Context.run caller drain (jump program m line label) c) := by
  obtain ⟨target, hlabel, htarget⟩ := hknown
  unfold jump
  rw [hlabel]
  exact .jumped hjump htarget rfl

/-- An amount that is no duration, or too long a one, is the fault of `delay`. -/
theorem outcome_delay (line : Nat) (amount : String) (until? : Option String)
    (hm : c.memory = m) :
    Outcome program m line (.delay amount until?)
      (Context.run caller drain (execute program caller m line (.delay amount until?)) c) := by
  simp only [execute, readWait]
  cases hparse : Duration.parse (m.interpolate amount) with
  | error error => exact .faulted (.badDelay hparse) hm
  | ok millis =>
    by_cases hlong : maxWord64 < millis
    · simp only [if_pos hlong]
      exact .faulted (.delayTooLong hparse hlong) hm
    · simp only [if_neg hlong]
      refine .went id (fun message hwrong => ?_) nofun (hm ▸ .refl _)
      cases hwrong with
      | badDelay hbad => exact absurd (hparse.symm.trans hbad) nofun
      | delayTooLong hgood hlong' =>
        obtain rfl := Except.ok.inj (hparse.symm.trans hgood)
        exact hlong hlong'

/-- Registering an event touches nothing of the memory, whether it works or not. -/
theorem exists_run_register {L : Language} {α : Type} {drain : Context L → Nat × Context L}
    (name pattern : String) (callback : L.Callback)
    (next : Option PatternError → Code L.Memory L.World L.Callback α) (c : Context L) :
    ∃ answer d, d.memory = c.memory ∧
      Context.run caller drain (.register name pattern callback next) c =
        Context.run caller drain (next answer) d := by
  cases h : c.events.register L.engine name pattern callback with
  | ok events => exact ⟨none, { c with events := events }, rfl, by simp only [Context.run, h]⟩
  | error e => exact ⟨some e, c, rfl, by simp only [Context.run, h]⟩

/-- **How an instruction whose jumps lead somewhere comes out.** -/
theorem outcome_execute (line : Nat) (i : Instruction) (hm : c.memory = m)
    (hknown : ∀ label, i.jump? = some label →
      ∃ target, program.label? label = some target ∧ target ≤ program.size) :
    Outcome program m line i
      (Context.run caller (Context.drain caller) (execute program caller m line i) c) := by
  cases i with
  | incr var => exact outcome_increment line var hm
  | delay amount until? => exact outcome_delay line amount until? hm
  | goto label => exact outcome_jump line rfl (hknown label rfl)
  | ifSet var label =>
    simp only [execute]
    split
    · exact outcome_jump line rfl (hknown label rfl)
    · exact .went id nofun nofun (hm ▸ .refl _)
  | fail message => exact .faulted (.raised message) hm
  | event name pattern =>
    -- A refused pattern is printed, so both answers end the same way.
    obtain ⟨answer, d, hd, hrun⟩ := @exists_run_register caller (language W engine) _
      (Context.drain caller) name (m.interpolate pattern) ⟨name⟩ _ c
    refine (congrArg (Outcome program m line (.event name pattern)) hrun).mpr ?_
    cases answer with
    | none | some => exact .went id nofun nofun (hm ▸ hd ▸ .refl _)
  | doEvents => exact .went id nofun nofun (hm ▸ samePlace_drainWithin _ c)
  | set | unset => exact .went id nofun nofun ⟨rfl, rfl⟩
  | _ => exact .went id nofun nofun (hm ▸ .refl _)

namespace Outcome

variable {line : Nat} {result : StepEnd VariableSet × Context (language W engine)}

theorem fault_iff (h : Outcome program m line i result) (fault : Fault) :
    result.1 = .fault fault ↔
      ∃ message, GoesWrong m.vars i message ∧ fault = ⟨message, some s!"line {line}"⟩ := by
  cases h with
  | @faulted message _ h =>
    refine ⟨fun heq => ⟨message, h, (StepEnd.fault.inj heq).symm⟩, ?_⟩
    rintro ⟨other, hother, rfl⟩
    rw [h.unique hother]
  | overflowed h =>
    refine ⟨nofun, ?_⟩
    rintro ⟨message, hwrong, -⟩
    exact absurd h hwrong.not_overflows
  | jumped hjump =>
    refine ⟨nofun, ?_⟩
    rintro ⟨message, hwrong, -⟩
    exact absurd (hjump.symm.trans hwrong.jump?_eq_none) nofun
  | went hlast hright =>
    refine ⟨fun heq => absurd ((congrArg EndsBadly heq).mpr trivial) hlast, ?_⟩
    rintro ⟨message, hwrong, -⟩
    exact absurd hwrong (hright message)

theorem panicked_iff (h : Outcome program m line i result) (text? : Option String) :
    result.1 = .panicked text? ↔ text? = some overflowText ∧ Overflows m.vars i := by
  cases h with
  | faulted h => exact ⟨nofun, fun hcounts => absurd hcounts.2 h.not_overflows⟩
  | overflowed h => exact ⟨fun heq => ⟨(StepEnd.panicked.inj heq).symm, h⟩, fun h => h.1 ▸ rfl⟩
  | jumped hjump =>
    refine ⟨nofun, fun hcounts => ?_⟩
    exact absurd (hjump.symm.trans hcounts.2.jump?_eq_none) nofun
  | went hlast _ hcounts =>
    refine ⟨fun heq => absurd ((congrArg EndsBadly heq).mpr trivial) hlast, fun h => ?_⟩
    exact absurd h.2 hcounts

theorem memory_eq (h : Outcome program m line i result) (hbad : EndsBadly result.1) :
    result.2.memory = m := by
  cases h with
  | faulted _ hm | overflowed _ hm => exact hm
  | jumped => exact absurd hbad id
  | went hlast => exact absurd hbad hlast

theorem seeded_eq (h : Outcome program m line i result) :
    result.2.memory.seeded = m.seeded := by
  cases h with
  | faulted _ hm | overflowed _ hm | jumped _ _ hm => rw [hm]
  | went _ _ _ hplace => exact hplace.seeded

/-- A position that is not behind the end of the program before is not behind it afterwards. -/
theorem index_le (h : Outcome program m line i result) (hm : m.index ≤ program.size) :
    result.2.memory.index ≤ program.size := by
  cases h with
  | faulted _ heq | overflowed _ heq => exact heq ▸ hm
  | jumped _ htarget heq => exact heq ▸ htarget
  | went _ _ _ hplace => exact hplace.index ▸ hm

end Outcome

/-! ## Steps -/

@[simp] theorem index_ready (m : Memory) (caller : Caller) : (m.ready caller).index = m.index := by
  unfold Memory.ready
  split <;> rfl

@[simp] theorem seeded_ready (m : Memory) (caller : Caller) : (m.ready caller).seeded = true := by
  unfold Memory.ready
  split
  · assumption
  · rfl

/-- The code of a step behind the last instruction, and of one at an instruction. -/
theorem step_eq (caller : Caller) (program : Program) (c : Context (language W engine)) :
    c.step caller program = Context.run caller (Context.drain caller)
      (match program.code[c.memory.index]? with
        | none => .store (c.memory.ready caller) (.finish (.done []))
        | some ⟨line, instruction⟩ => .store (c.memory.ready caller).advance
            (execute program caller (c.memory.ready caller).advance line instruction))
      (c.charge 1) := by
  rw [← index_ready c.memory caller]
  rfl

/-- Behind the last instruction the script is done. -/
theorem step_of_end (h : program.code[c.memory.index]? = none) :
    c.step caller program = (.done [], { c.charge 1 with memory := c.memory.ready caller }) := by
  rw [step_eq, h]
  rfl

/-- A step carries out the instruction at the position, once the position is behind it. -/
theorem outcome_step (hclosed : program.IsClosed) {i : SourceInstruction}
    (h : program.code[c.memory.index]? = some i) :
    Outcome program (c.memory.ready caller).advance i.line i.instruction
      (c.step caller program) := by
  rw [step_eq, h]
  exact outcome_execute i.line i.instruction rfl (hclosed i (List.mem_of_getElem? h))

/-! ## Memories that a script can have -/

/-- The memories that a script can have: the one that it starts with, and those that steps and the
callbacks of events make of them, in any order and in any context. -/
inductive Reachable (W : Type) (engine : PatternEngine) (program : Program) : Memory → Prop where
  | boot : Reachable W engine program ((language W engine).boot program)
  | step (caller : Caller) {c : Context (language W engine)}
      (h : Reachable W engine program c.memory) :
      Reachable W engine program (c.step caller program).2.memory
  | respond (caller : Caller) (entry : PendingEvent HitCounter) {c : Context (language W engine)}
      (h : Reachable W engine program c.memory) :
      Reachable W engine program (c.respond caller entry).memory

theorem index_step_le (hclosed : program.IsClosed) (h : c.memory.index ≤ program.size) :
    (c.step caller program).2.memory.index ≤ program.size := by
  cases hi : program.code[c.memory.index]? with
  | none =>
    rw [step_of_end hi]
    exact Nat.le_trans (Nat.le_of_eq (index_ready c.memory caller)) h
  | some i =>
    have hadvance : (c.memory.ready caller).advance.index ≤ program.size := by
      have hlt : c.memory.index < program.size := (List.getElem?_eq_some_iff.mp hi).1
      rwa [← index_ready c.memory caller] at hlt
    exact (outcome_step hclosed hi).index_le hadvance

/-- **The position is never behind the end of the program.** -/
theorem within_of_reachable (hclosed : program.IsClosed) (h : Reachable W engine program m) :
    m.index ≤ program.size := by
  induction h with
  | boot => exact Nat.zero_le _
  | step caller _ ih => exact index_step_le hclosed ih
  | respond caller entry _ ih => exact (samePlace_respond entry _).index.symm ▸ ih

/-- Steps, callbacks and conditions keep the memory one of those that the script can have. -/
theorem preserves_reachable (program : Program) :
    (language W engine).Preserves program (Reachable W engine program) where
  step caller _ h := h.step caller
  respond caller entry _ h := h.respond caller entry
  evaluate _ _ _ h := h

/-- A thread starts with one of the memories that its script can have. -/
theorem bears_reachable_start (pid : Pid) (name path : String) (args : List String)
    (queueLimit? : Option Nat) (program : (language W engine).Script) :
    (Thread.start pid name path args program queueLimit?).Bears program
      (Reachable W engine program) :=
  Thread.bears_start pid name path args queueLimit? .boot

/-- **A heartbeat leaves a thread with one of the memories that its script can have.** -/
theorem bears_reachable_service {t : Thread (language W engine)}
    (h : t.Bears program (Reachable W engine program)) (turbo : Nat) (dispatchFirst : Bool)
    (now : Millis) (world : W) :
    (t.service turbo dispatchFirst now world).thread.Bears program (Reachable W engine program) :=
  Thread.bears_service (preserves_reachable program) h turbo dispatchFirst now world

/-! ## The law of a step -/

/-- **How a step of a script ends badly.** -/
structure StepLaw (source : String) (program : Program) (caller : Caller)
    (c : Context (language W engine)) : Prop where
  /-- The position is not behind the end of the program, where the script is done. -/
  within : c.memory.index ≤ program.size
  done : c.memory.index = program.size → (c.step caller program).1 = .done []
  /-- The instruction at the position comes from a line of the source and has its number. -/
  placed : ∀ i, program.code[c.memory.index]? = some i → ∃ index text, i.line = index + 1 ∧
    (lines source.toList)[index]? = some text ∧ readLine text = .ok (.instruction i.instruction)
  /-- If it is a jump, then it leads to a position of the program or to its end. -/
  known : ∀ i, program.code[c.memory.index]? = some i → ∀ label,
    i.instruction.jump? = some label →
      ∃ target, program.label? label = some target ∧ target ≤ program.size
  /-- The step faults exactly if the instruction goes wrong, and names its line. -/
  fault_iff : ∀ fault, (c.step caller program).1 = .fault fault ↔
    ∃ i message, program.code[c.memory.index]? = some i ∧
      GoesWrong (c.memory.ready caller).vars i.instruction message ∧
      fault = ⟨message, some s!"line {i.line}"⟩
  /-- The step breaks down exactly if the instruction counts too far. -/
  panicked_iff : ∀ text?, (c.step caller program).1 = .panicked text? ↔
    text? = some overflowText ∧ ∃ i, program.code[c.memory.index]? = some i ∧
      Overflows (c.memory.ready caller).vars i.instruction
  /-- A step that ends badly leaves the variables as they were once the arguments were stored; and
  after any step the arguments are stored. -/
  unchanged : EndsBadly (c.step caller program).1 →
    (c.step caller program).2.memory.vars = (c.memory.ready caller).vars
  seeded : (c.step caller program).2.memory.seeded = true

section Step

variable (hclosed : program.IsClosed)

include hclosed

theorem step_fault_iff (fault : Fault) : (c.step caller program).1 = .fault fault ↔
    ∃ i message, program.code[c.memory.index]? = some i ∧
      GoesWrong (c.memory.ready caller).vars i.instruction message ∧
      fault = ⟨message, some s!"line {i.line}"⟩ := by
  cases hi : program.code[c.memory.index]? with
  | none =>
    rw [step_of_end hi]
    exact ⟨nofun, nofun⟩
  | some i =>
    refine ((outcome_step hclosed hi).fault_iff fault).trans ⟨fun h => ?_, ?_⟩
    · obtain ⟨message, hwrong, hfault⟩ := h
      exact ⟨i, message, rfl, hwrong, hfault⟩
    · rintro ⟨_, message, hi', hwrong, hfault⟩
      obtain rfl := Option.some.inj hi'
      exact ⟨message, hwrong, hfault⟩

theorem step_panicked_iff (text? : Option String) :
    (c.step caller program).1 = .panicked text? ↔
      text? = some overflowText ∧ ∃ i, program.code[c.memory.index]? = some i ∧
        Overflows (c.memory.ready caller).vars i.instruction := by
  cases hi : program.code[c.memory.index]? with
  | none =>
    rw [step_of_end hi]
    refine ⟨nofun, ?_⟩
    rintro ⟨-, i, hi', -⟩
    exact absurd hi' nofun
  | some i =>
    refine ((outcome_step hclosed hi).panicked_iff text?).trans (and_congr_right fun _ => ?_)
    refine ⟨fun hcounts => ⟨i, rfl, hcounts⟩, ?_⟩
    rintro ⟨_, hi', hcounts⟩
    obtain rfl := Option.some.inj hi'
    exact hcounts

theorem vars_step_of_endsBadly (hbad : EndsBadly (c.step caller program).1) :
    (c.step caller program).2.memory.vars = (c.memory.ready caller).vars := by
  cases hi : program.code[c.memory.index]? with
  | none => rw [step_of_end hi]
  | some i => rw [(outcome_step hclosed hi).memory_eq hbad, Memory.advance]

theorem seeded_step : (c.step caller program).2.memory.seeded = true := by
  cases hi : program.code[c.memory.index]? with
  | none =>
    rw [step_of_end hi]
    exact seeded_ready c.memory caller
  | some i => exact (outcome_step hclosed hi).seeded_eq.trans (seeded_ready c.memory caller)

end Step

/-- **Every step of a script that was read keeps the law**, whatever its thread is given, whatever
waits in its queue, and whatever the steps and the callbacks before it did. -/
theorem stepLaw_of_parse {source : String} (hparse : Program.parse source = .ok program)
    (hreach : Reachable W engine program c.memory) (caller : Caller) :
    StepLaw source program caller c := by
  have hclosed : program.IsClosed := Program.isClosed_of_parse hparse
  exact {
    within := within_of_reachable hclosed hreach
    done := fun hend => by
      rw [step_of_end (List.getElem?_eq_none_iff.mpr (Nat.le_of_eq hend.symm))]
    placed := fun i hi => (Program.readFrom_parse hparse).placed i (List.mem_of_getElem? hi)
    known := fun i hi => hclosed i (List.mem_of_getElem? hi)
    fault_iff := step_fault_iff hclosed
    panicked_iff := step_panicked_iff hclosed
    unchanged := vars_step_of_endsBadly hclosed
    seeded := seeded_step hclosed }

/-- A script that counts up a variable that shows no number. -/
def misguided : Program := ⟨[⟨2, .set "n" "x"⟩, ⟨3, .incr "n"⟩], []⟩

theorem stepLaw_of_misguided :
    let caller : Caller := ⟨7, "count", [], 0⟩
    let c : Context (language Unit) := ⟨.empty none, {}, {}, (), [], []⟩
    Program.parse "# count\nset n x\nincr n" = .ok misguided ∧
      Reachable Unit .boundless misguided (c.step caller misguided).2.memory ∧
      ((c.step caller misguided).2.step caller misguided).1 =
        .fault ⟨"'n' is not a number: x", some "line 3"⟩ := by
  intro caller c
  have hparse : Program.parse "# count\nset n x\nincr n" = .ok misguided := rfl
  have hreach : Reachable Unit .boundless misguided (c.step caller misguided).2.memory :=
    @Reachable.step Unit .boundless misguided caller c .boot
  have hvalue : ((c.step caller misguided).2.memory.ready caller).vars.get? "n" = some "x" := by
    decide +kernel
  have hread : readInt? maxInt64 "x".toList = none := by decide +kernel
  exact ⟨hparse, hreach, ((stepLaw_of_parse hparse hreach caller).fault_iff _).mpr
    ⟨⟨3, .incr "n"⟩, _, by decide +kernel, .notANumber hvalue hread, by decide +kernel⟩⟩

end Heartbeat.StepScript

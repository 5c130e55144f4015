import Heartbeat.Proofs.StepScript.Program
import Heartbeat.Proofs.Text.Lines

/-!
# What reading a program comes to

Whether a source is a program, and which error is reported otherwise, can be told from what its
lines say, without the order in which they are read. A line is at fault if it cannot be read or
defines a label once more. The first line at fault is reported; if there is none, it is the first
jump to a label that no line defines.

* `Says`, `Faulty`, `Dangling`: what a line says, that it is at fault, that it jumps nowhere.
* `Program.Renders`: a program that says what the lines say; `renders_addLines`.
* `Refused`: which error a source has; `parse_eq_error_iff`: it is the one that is reported.
* `Refused.of_alike`: a line at fault is told from the lines up to it.
* `reading_law`: the law of reading, for every source.
-/

namespace Heartbeat.StepScript

open Heartbeat.Text

/-! ## What lines say -/

/-- What the line of an index, counted from zero, is read as. -/
def readAt? (texts : List (List Char)) (index : Nat) : Option (Except ParseFault LineContent) :=
  texts[index]?.map readLine

/-- A line says something. -/
abbrev Says (texts : List (List Char)) (index : Nat) (content : LineContent) : Prop :=
  readAt? texts index = some (.ok content)

/-- Some line defines the label. -/
def Defines (texts : List (List Char)) (name : String) : Prop :=
  ∃ index, Says texts index (.label name)

/-- **A line is at fault**, by its number: it cannot be read, or it defines a label that a line
before it defines. -/
inductive Faulty (texts : List (List Char)) : Nat → ParseFault → Prop where
  | unreadable {index : Nat} {fault : ParseFault}
      (hread : readAt? texts index = some (.error fault)) : Faulty texts (index + 1) fault
  | repeated {index earlier : Nat} {name : String} (hagain : Says texts index (.label name))
      (hfirst : Says texts earlier (.label name)) (hearlier : earlier < index) :
      Faulty texts (index + 1) (.duplicateLabel name)

/-- **A line jumps nowhere**, by its number: no line defines the label that it names. -/
def Dangling (texts : List (List Char)) (number : Nat) (label : String) : Prop :=
  ∃ index i, number = index + 1 ∧ Says texts index (.instruction i) ∧ i.jump? = some label ∧
    ¬ Defines texts label

/-- **The error of a source that is no program**: the first line at fault, and if there is none the
first that jumps nowhere. -/
inductive Refused (texts : List (List Char)) : ParseError → Prop where
  | faulty {number : Nat} {fault : ParseFault} (hfault : Faulty texts number fault)
      (hfirst : ∀ n < number, ∀ fault, ¬ Faulty texts n fault) : Refused texts ⟨number, fault⟩
  | dangling {number : Nat} {label : String} (hsound : ∀ n fault, ¬ Faulty texts n fault)
      (hjump : Dangling texts number label)
      (hfirst : ∀ n < number, ∀ label, ¬ Dangling texts n label) :
      Refused texts ⟨number, .unknownLabel label⟩

section Lines

variable {texts texts' more : List (List Char)} {text : List Char} {index number n : Nat}
  {content : LineContent} {result : Except ParseFault LineContent} {fault fault' : ParseFault}
  {label label' name : String} {e e' : ParseError}

theorem lt_of_readAt? (h : readAt? texts index = some result) : index < texts.length := by
  obtain ⟨text, hline, -⟩ := Option.map_eq_some_iff.mp h
  exact (List.getElem?_eq_some_iff.mp hline).1

theorem readAt?_append (h : index < texts.length) :
    readAt? (texts ++ more) index = readAt? texts index := by
  unfold readAt?
  rw [List.getElem?_append_left h]

/-- The line that comes next. -/
theorem readAt?_concat (texts : List (List Char)) (text : List Char) :
    readAt? (texts ++ [text]) texts.length = some (readLine text) := by
  unfold readAt?
  rw [List.getElem?_concat_length]
  rfl

theorem readAt?_take (h : index < n) : readAt? (texts.take n) index = readAt? texts index := by
  unfold readAt?
  rw [List.getElem?_take_of_lt h]

theorem says_concat_iff : Says (texts ++ [text]) index content ↔
    Says texts index content ∨ index = texts.length ∧ readLine text = .ok content := by
  constructor
  · intro h
    rcases Nat.lt_or_ge index texts.length with hlt | hge
    · exact .inl ((readAt?_append hlt).symm.trans h)
    · have hlength := lt_of_readAt? h
      rw [List.length_append, List.length_singleton] at hlength
      obtain rfl : index = texts.length := by omega
      exact .inr ⟨rfl, Option.some.inj ((readAt?_concat texts text).symm.trans h)⟩
  · rintro (h | ⟨rfl, hread⟩)
    · exact (readAt?_append (lt_of_readAt? h)).trans h
    · exact (readAt?_concat texts text).trans (congrArg some hread)

theorem defines_concat : Defines (texts ++ [text]) name ↔
    Defines texts name ∨ readLine text = .ok (.label name) := by
  constructor
  · rintro ⟨index, h⟩
    exact (says_concat_iff.mp h).imp (fun h => ⟨index, h⟩) And.right
  · rintro (⟨index, h⟩ | hread)
    · exact ⟨index, says_concat_iff.mpr (.inl h)⟩
    · exact ⟨texts.length, says_concat_iff.mpr (.inr ⟨rfl, hread⟩)⟩

/-! ## Faults -/

/-- Whether a line is at fault is told from the lines up to it. -/
theorem Faulty.congr (h : Faulty texts number fault) (hn : number ≤ n)
    (hsame : ∀ index < n, readAt? texts index = readAt? texts' index) :
    Faulty texts' number fault := by
  cases h with
  | unreadable hread => exact .unreadable ((hsame _ hn).symm.trans hread)
  | repeated hagain hfirst hearlier =>
    exact .repeated ((hsame _ hn).symm.trans hagain)
      ((hsame _ (Nat.lt_trans hearlier hn)).symm.trans hfirst) hearlier

theorem Faulty.placed (h : Faulty texts number fault) : 1 ≤ number ∧ number ≤ texts.length := by
  cases h with
  | unreadable hread => exact ⟨Nat.le_add_left 1 _, lt_of_readAt? hread⟩
  | repeated hagain => exact ⟨Nat.le_add_left 1 _, lt_of_readAt? hagain⟩

/-- A line is at fault in one way. -/
theorem Faulty.unique (h : Faulty texts number fault) (h' : Faulty texts number fault') :
    fault = fault' := by
  cases h with
  | unreadable hread =>
    cases h' with
    | unreadable hread' => exact Except.error.inj (Option.some.inj (hread.symm.trans hread'))
    | repeated hagain' => exact absurd (Option.some.inj (hread.symm.trans hagain')) nofun
  | repeated hagain =>
    cases h' with
    | unreadable hread' => exact absurd (Option.some.inj (hagain.symm.trans hread')) nofun
    | repeated hagain' =>
      obtain rfl := LineContent.label.inj
        (Except.ok.inj (Option.some.inj (hagain.symm.trans hagain')))
      rfl

theorem Dangling.placed (h : Dangling texts number label) :
    1 ≤ number ∧ number ≤ texts.length := by
  obtain ⟨index, i, rfl, hsaid, -⟩ := h
  exact ⟨Nat.le_add_left 1 _, lt_of_readAt? hsaid⟩

theorem Dangling.unique (h : Dangling texts number label) (h' : Dangling texts number label') :
    label = label' := by
  obtain ⟨index, i, rfl, hsaid, hjump, -⟩ := h
  obtain ⟨index', i', hnumber, hsaid', hjump', -⟩ := h'
  obtain rfl := Nat.succ.inj hnumber
  obtain rfl := LineContent.instruction.inj
    (Except.ok.inj (Option.some.inj (hsaid.symm.trans hsaid')))
  exact Option.some.inj (hjump.symm.trans hjump')

/-- There is one first number. -/
theorem eq_of_first {P : Nat → Prop} {m n : Nat} (hm : P m) (hm' : ∀ k < m, ¬ P k) (hn : P n)
    (hn' : ∀ k < n, ¬ P k) : m = n :=
  Nat.le_antisymm (Nat.le_of_not_lt fun h => hm' n h hn) (Nat.le_of_not_lt fun h => hn' m h hm)

/-- **A source has one error.** -/
theorem Refused.unique (h : Refused texts e) (h' : Refused texts e') : e = e' := by
  cases h with
  | faulty hfault hfirst =>
    cases h' with
    | faulty hfault' hfirst' =>
      obtain rfl := eq_of_first (P := fun n => ∃ fault, Faulty texts n fault) ⟨_, hfault⟩
        (fun n hn ⟨fault, h⟩ => hfirst n hn fault h) ⟨_, hfault'⟩
        (fun n hn ⟨fault, h⟩ => hfirst' n hn fault h)
      rw [hfault.unique hfault']
    | dangling hsound => exact absurd hfault (hsound _ _)
  | dangling hsound hjump hfirst =>
    cases h' with
    | faulty hfault' => exact absurd hfault' (hsound _ _)
    | dangling _ hjump' hfirst' =>
      obtain rfl := eq_of_first (P := fun n => ∃ label, Dangling texts n label) ⟨_, hjump⟩
        (fun n hn ⟨label, h⟩ => hfirst n hn label h) ⟨_, hjump'⟩
        (fun n hn ⟨label, h⟩ => hfirst' n hn label h)
      rw [hjump.unique hjump']

theorem Refused.placed (h : Refused texts e) : 1 ≤ e.line ∧ e.line ≤ texts.length := by
  cases h with
  | faulty hfault => exact hfault.placed
  | dangling _ hjump => exact hjump.placed

/-- **A line at fault is told from the lines up to it.** -/
theorem Refused.of_alike (h : Refused texts e) (hfault : ∀ label, e.fault ≠ .unknownLabel label)
    (hsame : ∀ index < e.line, readAt? texts index = readAt? texts' index) : Refused texts' e := by
  cases h with
  | faulty hfaulty hfirst =>
    refine .faulty (hfaulty.congr (Nat.le_refl _) hsame) fun n hn fault hbefore => ?_
    exact hfirst n hn fault
      (hbefore.congr (Nat.le_of_lt hn) fun index hindex => (hsame index hindex).symm)
  | dangling => exact absurd rfl (hfault _)

/-- No line before the one of the error is at fault. -/
theorem Refused.sound_before (h : Refused texts e) (hlength : texts'.length < e.line)
    (hsame : ∀ index < texts'.length, readAt? texts' index = readAt? texts index) :
    ∀ n fault, ¬ Faulty texts' n fault := by
  intro n fault hfault
  have hn := hfault.placed.2
  have hfault' := hfault.congr hn hsame
  cases h with
  | faulty _ hfirst => exact hfirst n (Nat.lt_of_le_of_lt hn hlength) fault hfault'
  | dangling hsound => exact hsound n fault hfault'

end Lines

/-! ## Faults of single lines -/

theorem map_eq_error_iff {ε α β : Type} {x : Except ε α} {f : α → β} {e : ε} :
    x.map f = .error e ↔ x = .error e := by
  cases x with
  | error e' => exact ⟨fun h => congrArg _ (Except.error.inj h), congrArg _⟩
  | ok a => exact ⟨nofun, nofun⟩

theorem readInstruction_ne (keyword : String) (rest : List Char) (label : String) :
    readInstruction keyword rest ≠ .error (.unknownLabel label) := by
  have hone : ∀ word args, oneArgument word args ≠ .error (.unknownLabel label) := by
    intro word args
    unfold oneArgument
    split <;> nofun
  fun_cases readInstruction keyword rest <;> simp [map_eq_error_iff, hone]

/-- That a label is unknown cannot be told from a line alone. -/
theorem readLine_ne (text : List Char) (label : String) :
    readLine text ≠ .error (.unknownLabel label) := by
  unfold readLine
  fun_cases readTrimmedLine (trim text) with
  | case1 => nofun
  | case2 => nofun
  | case3 s =>
    rw [Ne, map_eq_error_iff]
    unfold readLabel
    simp only
    split <;> nofun
  | case4 s =>
    rw [Ne, map_eq_error_iff]
    exact readInstruction_ne _ _ _

theorem Faulty.ne_unknownLabel {texts : List (List Char)} {number : Nat} {fault : ParseFault}
    (h : Faulty texts number fault) (label : String) : fault ≠ .unknownLabel label := by
  cases h with
  | unreadable hread =>
    obtain ⟨text, -, herror⟩ := Option.map_eq_some_iff.mp hread
    rintro rfl
    exact readLine_ne text label herror
  | repeated => nofun

/-! ## Programs that say what lines say -/

namespace Program

/-- **A program says what the lines say**, and none of them is at fault. -/
structure Renders (p : Program) (texts : List (List Char)) : Prop where
  sound : ∀ number fault, ¬ Faulty texts number fault
  mem_code : ∀ i, i ∈ p.code ↔
    ∃ index, i.line = index + 1 ∧ Says texts index (.instruction i.instruction)
  ascending : p.code.Pairwise (·.line < ·.line)
  labels : ∀ name, (p.label? name).isSome = true ↔ Defines texts name

variable {p q : Program} {done texts : List (List Char)} {text : List Char} {e : ParseError}
  {number : Nat}

theorem renders_empty : empty.Renders [] where
  sound number fault h := by
    have hplaced := h.placed
    rw [List.length_nil] at hplaced
    omega
  mem_code i := ⟨nofun, fun ⟨_, _, hsaid⟩ => absurd (lt_of_readAt? hsaid) (Nat.not_lt_zero _)⟩
  ascending := .nil
  labels name := ⟨nofun, fun ⟨_, hsaid⟩ => absurd (lt_of_readAt? hsaid) (Nat.not_lt_zero _)⟩

/-- Only a label that is there already cannot be added. -/
theorem add_eq_error_iff {content : LineContent} {fault : ParseFault} :
    p.add number content = .error fault ↔
      ∃ name, content = .label name ∧ (p.label? name).isSome = true ∧
        fault = .duplicateLabel name := by
  cases content with
  | nothing => simp [add]
  | instruction i => simp [add]
  | label name =>
    rw [add]
    by_cases hdefined : (p.label? name).isSome = true
    · rw [if_pos hdefined]
      constructor
      · intro h
        exact ⟨name, rfl, hdefined, (Except.error.inj h).symm⟩
      · rintro ⟨name', ⟨⟩, -, rfl⟩
        rfl
    · simp [hdefined]

theorem addLine_eq (p : Program) (number : Nat) (text : List Char) :
    p.addLine number text =
      (readLine text >>= p.add number).mapError fun fault => ⟨number, fault⟩ := by
  unfold addLine
  cases readLine text >>= p.add number <;> rfl

theorem addLine_eq_error_iff : p.addLine number text = .error e ↔
    e.line = number ∧ (readLine text = .error e.fault ∨
      ∃ name, readLine text = .ok (.label name) ∧ (p.label? name).isSome = true ∧
        e.fault = .duplicateLabel name) := by
  obtain ⟨line, fault⟩ := e
  have hfails : p.addLine number text = .error ⟨line, fault⟩ ↔
      line = number ∧ (readLine text >>= p.add number) = .error fault := by
    rw [addLine_eq]
    cases readLine text >>= p.add number <;> simp [Except.mapError, eq_comm]
  rw [hfails]
  refine and_congr Iff.rfl ?_
  cases readLine text with
  | error fault' =>
    show Except.error fault' = .error fault ↔ _
    simp
  | ok content =>
    show p.add number content = .error fault ↔ _
    rw [add_eq_error_iff]
    simp

theorem label?_append (labels labels' : List (String × Nat)) (code : List SourceInstruction)
    (name : String) :
    label? ⟨code, labels ++ labels'⟩ name =
      (label? ⟨code, labels⟩ name).or (label? ⟨code, labels'⟩ name) := by
  unfold label?
  rw [List.find?_append, Option.map_or]

/-- No line is at fault behind one that was read. -/
theorem Renders.sound_concat (h : p.Renders done) {content : LineContent}
    (hread : readLine text = .ok content)
    (hnew : ∀ name, content = .label name → (p.label? name).isSome = false) :
    ∀ number fault, ¬ Faulty (done ++ [text]) number fault := by
  intro number fault hfault
  have hplaced := hfault.placed
  rw [List.length_append, List.length_singleton] at hplaced
  rcases Nat.lt_or_ge done.length number with hlast | hbefore
  · obtain rfl : number = done.length + 1 := by omega
    cases hfault with
    | unreadable hread' =>
      have herror := Option.some.inj ((readAt?_concat done text).symm.trans hread')
      exact absurd (hread.symm.trans herror) nofun
    | repeated hagain hfirst hearlier =>
      have hlabel := Option.some.inj ((readAt?_concat done text).symm.trans hagain)
      obtain rfl := Except.ok.inj (hread.symm.trans hlabel)
      have hdefined := (h.labels _).mpr ⟨_, (readAt?_append hearlier).symm.trans hfirst⟩
      rw [hnew _ rfl] at hdefined
      exact absurd hdefined nofun
  · exact h.sound number fault (hfault.congr hbefore fun index => readAt?_append)

/-- A line that says nothing adds nothing. -/
theorem Renders.nothing (h : p.Renders done) (hread : readLine text = .ok .nothing) :
    p.Renders (done ++ [text]) where
  sound := h.sound_concat hread (by simp)
  mem_code i := by simp only [h.mem_code, says_concat_iff, hread, Except.ok.injEq, reduceCtorEq,
    and_false, or_false]
  ascending := h.ascending
  labels name := by simp only [h.labels, defines_concat, hread, Except.ok.injEq, reduceCtorEq,
    or_false]

theorem Renders.label (h : p.Renders done) {name : String}
    (hread : readLine text = .ok (.label name)) (hnew : (p.label? name).isSome = false)
    (index : Nat) :
    Renders { p with labels := p.labels ++ [(name, index)] } (done ++ [text]) where
  sound := by
    refine h.sound_concat hread ?_
    rintro _ ⟨⟩
    exact hnew
  mem_code i := by simp only [h.mem_code, says_concat_iff, hread, Except.ok.injEq, reduceCtorEq,
    and_false, or_false]
  ascending := h.ascending
  labels name' := by
    rw [label?_append, Option.isSome_or, Bool.or_eq_true, defines_concat, ← h.labels, hread,
      Except.ok.injEq, LineContent.label.injEq]
    refine or_congr Iff.rfl ?_
    by_cases hname : name = name' <;> simp [label?, hname]

theorem Renders.instruction (h : p.Renders done) {i : Instruction}
    (hread : readLine text = .ok (.instruction i)) :
    Renders { p with code := p.code ++ [⟨done.length + 1, i⟩] } (done ++ [text]) where
  sound := h.sound_concat hread (by simp)
  mem_code j := by
    rw [List.mem_append, List.mem_singleton, h.mem_code]
    simp only [says_concat_iff, hread, Except.ok.injEq, LineContent.instruction.injEq,
      and_or_left, exists_or]
    refine or_congr Iff.rfl ⟨?_, ?_⟩
    · rintro rfl
      exact ⟨done.length, rfl, rfl, rfl⟩
    · rintro ⟨index, hline, rfl, hsame⟩
      obtain ⟨line, instruction⟩ := j
      simp only at hline hsame
      rw [hline, hsame]
  ascending := by
    refine List.pairwise_append.mpr ⟨h.ascending, List.pairwise_singleton _ _, ?_⟩
    intro j hj k hk
    obtain rfl := List.mem_singleton.mp hk
    obtain ⟨index, hline, hsaid⟩ := (h.mem_code j).mp hj
    rw [hline]
    exact Nat.succ_lt_succ (lt_of_readAt? hsaid)
  labels name := by
    show (p.label? name).isSome = true ↔ _
    simp only [h.labels, defines_concat, hread, Except.ok.injEq, reduceCtorEq, or_false]

/-- **A line that is read adds what it says.** -/
theorem renders_addLine (h : p.Renders done)
    (hadd : p.addLine (done.length + 1) text = .ok q) : q.Renders (done ++ [text]) := by
  obtain ⟨content, hread, hadd⟩ := addLine_eq_ok_iff.mp hadd
  cases content with
  | nothing =>
    obtain rfl := Except.ok.inj hadd
    exact h.nothing hread
  | label name =>
    simp only [add] at hadd
    split at hadd
    · cases hadd
    · rename_i hnew
      obtain rfl := Except.ok.inj hadd
      exact h.label hread (Bool.eq_false_iff.mpr hnew) p.size
  | instruction i =>
    obtain rfl := Except.ok.inj hadd
    exact h.instruction hread

/-- A line that cannot be added is at fault. -/
theorem faulty_of_addLine (h : p.Renders done)
    (hadd : p.addLine (done.length + 1) text = .error e) :
    e.line = done.length + 1 ∧ Faulty (done ++ [text]) e.line e.fault := by
  obtain ⟨hline, hread | ⟨name, hread, hdefined, hfault⟩⟩ := addLine_eq_error_iff.mp hadd
  · refine ⟨hline, ?_⟩
    rw [hline]
    exact .unreadable ((readAt?_concat done text).trans (congrArg some hread))
  · refine ⟨hline, ?_⟩
    obtain ⟨index, hsaid⟩ := (h.labels name).mp hdefined
    have hearlier := lt_of_readAt? hsaid
    rw [hline, hfault]
    exact .repeated ((readAt?_concat done text).trans (congrArg some hread))
      ((readAt?_append hearlier).trans hsaid) hearlier

theorem renders_addLines (h : p.Renders done)
    (hadd : p.addLines (done.length + 1) texts = .ok q) : q.Renders (done ++ texts) := by
  induction texts generalizing p done with
  | nil =>
    obtain rfl := Except.ok.inj hadd
    rwa [List.append_nil]
  | cons text texts ih =>
    rw [addLines] at hadd
    split at hadd
    · rename_i next hnext
      have hlength : done.length + 1 = (done ++ [text]).length := by simp
      rw [hlength] at hadd
      have hrest := ih (renders_addLine h hnext) hadd
      rwa [List.append_assoc] at hrest
    · cases hadd

/-- **Reading stops at the first line at fault.** -/
theorem refused_of_addLines (h : p.Renders done)
    (hadd : p.addLines (done.length + 1) texts = .error e) : Refused (done ++ texts) e := by
  induction texts generalizing p done with
  | nil => cases hadd
  | cons text texts ih =>
    rw [addLines] at hadd
    split at hadd
    · rename_i next hnext
      have hlength : done.length + 1 = (done ++ [text]).length := by simp
      rw [hlength] at hadd
      have hrest := ih (renders_addLine h hnext) hadd
      rwa [List.append_assoc] at hrest
    · rename_i e' hwrong
      obtain rfl := Except.error.inj hadd
      obtain ⟨hline, hfault⟩ := faulty_of_addLine h hwrong
      rw [List.append_cons]
      refine .faulty (hfault.congr hfault.placed.2 fun index hindex => (readAt?_append hindex).symm)
        fun n hn fault hearlier => ?_
      have hbefore : n ≤ done.length := by omega
      rw [List.append_assoc] at hearlier
      exact h.sound n fault (hearlier.congr hbefore fun index => readAt?_append)

/-! ## Jumps -/

theorem jumpError?_eq_some_iff {i : SourceInstruction} : p.jumpError? i = some e ↔
    ∃ label, i.instruction.jump? = some label ∧ ¬ (p.label? label).isSome = true ∧
      e = ⟨i.line, .unknownLabel label⟩ := by
  unfold jumpError?
  cases i.instruction.jump? with
  | none => exact ⟨nofun, fun ⟨_, heq, _⟩ => absurd heq nofun⟩
  | some label =>
    simp only
    split
    · rename_i hdefined
      refine ⟨nofun, ?_⟩
      rintro ⟨label', ⟨⟩, hnone, -⟩
      exact absurd hdefined hnone
    · rename_i hnone
      constructor
      · intro h
        exact ⟨label, rfl, hnone, (Option.some.inj h).symm⟩
      · rintro ⟨label', ⟨⟩, -, rfl⟩
        rfl

/-- A line jumps nowhere if its instruction does so in the program. -/
theorem Renders.dangling_iff (h : p.Renders texts) {label : String} :
    Dangling texts number label ↔
      ∃ i ∈ p.code, p.jumpError? i = some ⟨number, .unknownLabel label⟩ := by
  constructor
  · rintro ⟨index, i, rfl, hsaid, hjump, hnone⟩
    refine ⟨⟨index + 1, i⟩, (h.mem_code _).mpr ⟨index, rfl, hsaid⟩, ?_⟩
    exact jumpError?_eq_some_iff.mpr ⟨label, hjump, mt (h.labels label).mp hnone, rfl⟩
  · rintro ⟨i, hi, hwrong⟩
    obtain ⟨label', hjump, hnone, heq⟩ := jumpError?_eq_some_iff.mp hwrong
    obtain ⟨rfl, hlabel⟩ := ParseError.mk.inj heq
    obtain rfl := ParseFault.unknownLabel.inj hlabel
    obtain ⟨index, hline, hsaid⟩ := (h.mem_code i).mp hi
    exact ⟨index, i.instruction, hline, hsaid, hjump, mt (h.labels label).mpr hnone⟩

/-- **The first jump that leads nowhere is reported.** -/
theorem refused_of_checkJumps (h : p.Renders texts)
    (hwrong : p.code.findSome? p.jumpError? = some e) : Refused texts e := by
  obtain ⟨before, i, after, hcode, hi, hbefore⟩ := List.findSome?_eq_some_iff.mp hwrong
  obtain ⟨label, hjump, hnone, rfl⟩ := jumpError?_eq_some_iff.mp hi
  have hmem : i ∈ p.code := hcode ▸ List.mem_append_right before List.mem_cons_self
  refine .dangling h.sound (h.dangling_iff.mpr ⟨i, hmem, hi⟩) fun n hn label' hother => ?_
  obtain ⟨j, hj, hwrong'⟩ := h.dangling_iff.mp hother
  obtain ⟨label'', -, -, heq⟩ := jumpError?_eq_some_iff.mp hwrong'
  have hline : n = j.line := (ParseError.mk.inj heq).1
  have hascending := h.ascending
  rw [hcode] at hj hascending
  -- an earlier line stands in front of the jump that was found, where all jumps lead somewhere
  rcases List.mem_append.mp hj with hj | hj
  · rw [hbefore j hj] at hwrong'
    exact absurd hwrong' nofun
  · rcases List.mem_cons.mp hj with rfl | hj
    · omega
    · have hlater := List.rel_of_pairwise_cons (List.pairwise_append.mp hascending).2.1 hj
      omega

end Program

/-! ## Reading a source -/

section Source

variable {source : String} {p : Program} {e : ParseError}

theorem renders_parse (h : Program.parse source = .ok p) : p.Renders (lines source.toList) :=
  Program.renders_addLines Program.renders_empty (Program.parse_eq_ok_iff.mp h).1

theorem refused_parse (h : Program.parse source = .error e) :
    Refused (lines source.toList) e := by
  unfold Program.parse at h
  cases hadd : Program.empty.addLines 1 (lines source.toList) with
  | error e' =>
    rw [hadd] at h
    obtain rfl := Except.error.inj h
    exact Program.refused_of_addLines Program.renders_empty hadd
  | ok q =>
    rw [hadd] at h
    have hcheck : q.checkJumps = .error e := h
    unfold Program.checkJumps at hcheck
    split at hcheck
    · rename_i e' hwrong
      obtain rfl := Except.error.inj hcheck
      exact Program.refused_of_checkJumps
        (Program.renders_addLines Program.renders_empty hadd) hwrong
    · cases hcheck

/-- A source that is a program has no error. -/
theorem not_refused_of_parse (h : Program.parse source = .ok p) :
    ¬ Refused (lines source.toList) e := by
  intro hrefused
  have hrenders := renders_parse h
  cases hrefused with
  | faulty hfault => exact hrenders.sound _ _ hfault
  | dangling _ hjump =>
    obtain ⟨i, hi, hwrong⟩ := hrenders.dangling_iff.mp hjump
    rw [List.findSome?_eq_none_iff.mp (Program.parse_eq_ok_iff.mp h).2 i hi] at hwrong
    exact absurd hwrong nofun

/-- **The error that is reported is the error of the source.** -/
theorem parse_eq_error_iff :
    Program.parse source = .error e ↔ Refused (lines source.toList) e := by
  refine ⟨refused_parse, fun h => ?_⟩
  cases hparse : Program.parse source with
  | ok p => exact absurd h (not_refused_of_parse hparse)
  | error e' => rw [(refused_parse hparse).unique h]

end Source

/-! ## The law -/

/-- Blanks at the ends of lines do not change what these say. -/
theorem readLine_trim (text : List Char) : readLine (trim text) = readLine text := by
  unfold readLine
  rw [trim_trim]

theorem readAt?_trimmedLines (s : List Char) :
    readAt? (trimmedLines s) = readAt? (lines s) := by
  funext index
  unfold readAt? trimmedLines
  rw [List.getElem?_map, Option.map_map]
  refine congrArg (Option.map · _) (funext readLine_trim)

/-- A text that goes on behind its first lines in another way says the same up to there. -/
theorem readAt?_firstLines {n index : Nat} {s : List Char} (hn : n ≤ (lines s).length)
    (hindex : index < n) (others : List Char) :
    readAt? (lines (firstLines n s ++ others)) index = readAt? (lines s) index := by
  have hlength : index < ((trimmedLines s).take n).length := by
    rw [List.length_take, length_trimmedLines, Nat.min_eq_left hn]
    exact hindex
  rw [← readAt?_trimmedLines, trimmedLines_firstLines, readAt?_append hlength,
    readAt?_take hindex, readAt?_trimmedLines]

/-- The first lines of a text are as many as were asked for. -/
theorem length_firstLines {n : Nat} {s : List Char} (hn : n ≤ (lines s).length) :
    (lines (firstLines n s)).length = n := by
  have hfirst := trimmedLines_firstLines n s []
  rw [List.append_nil] at hfirst
  rw [← length_trimmedLines, hfirst, List.length_append, List.length_take, length_trimmedLines,
    Nat.min_eq_left hn]
  rfl

/-- **The law of a source that is a program.** -/
structure ProgramLaw (source : String) (p : Program) : Prop where
  /-- Every instruction has a line, and every line that is kept has an instruction. -/
  paired : ∀ index, ((p.get? index).isSome = true ↔ index < p.size) ∧
    (1 ≤ p.lineOf index ↔ index < p.size)
  /-- The instructions are those that the lines say, in the order of the lines. -/
  read : ∀ i, i ∈ p.code ↔ ∃ index, i.line = index + 1 ∧
    Says (lines source.toList) index (.instruction i.instruction)
  ascending : (p.code.map (·.line)).Pairwise (· < ·)
  placed : ∀ i ∈ p.code, 1 ≤ i.line ∧ i.line ≤ (lines source.toList).length
  /-- Every label that a jump names is defined. -/
  closed : ∀ i ∈ p.code, ∀ label, i.instruction.jump? = some label →
    (p.label? label).isSome = true
  within : ∀ label target, p.label? label = some target → target ≤ p.size

/-- **The law of a source that is no program.** -/
structure ErrorLaw (source : String) (e : ParseError) : Prop where
  placed : 1 ≤ e.line ∧ e.line ≤ (lines source.toList).length
  /-- The lines in front of the one of the error are a program, up to labels that these lines do
  not define. -/
  before : ∀ e', Program.parse (String.ofList (firstLines (e.line - 1) source.toList)) = .error e' →
    ∃ label, e'.fault = .unknownLabel label
  /-- Unless a label is unknown, the lines behind the one of the error do not matter. -/
  after : (∀ label, e.fault ≠ .unknownLabel label) → ∀ others,
    Program.parse (String.ofList (firstLines e.line source.toList ++ others)) = .error e
  /-- A label is only reported to be unknown if no line is at fault; and then the first line is
  reported that jumps to a label that is defined nowhere. -/
  unknown : ∀ label, e.fault = .unknownLabel label →
    (∀ number fault, ¬ Faulty (lines source.toList) number fault) ∧
      Dangling (lines source.toList) e.line label ∧
      ∀ number label', Dangling (lines source.toList) number label' → e.line ≤ number
  /-- Otherwise it is the first line at fault. -/
  faulty : (∀ label, e.fault ≠ .unknownLabel label) →
    Faulty (lines source.toList) e.line e.fault ∧
      ∀ number fault, Faulty (lines source.toList) number fault → e.line ≤ number

theorem programLaw_of_parse {source : String} {p : Program} (h : Program.parse source = .ok p) :
    ProgramLaw source p := by
  have hrenders := renders_parse h
  have hplaced : ∀ i ∈ p.code, 1 ≤ i.line ∧ i.line ≤ (lines source.toList).length := by
    intro i hi
    obtain ⟨index, hline, hsaid⟩ := (hrenders.mem_code i).mp hi
    rw [hline]
    exact ⟨Nat.le_add_left 1 _, lt_of_readAt? hsaid⟩
  refine ⟨fun index => ?_, hrenders.mem_code, List.pairwise_map.mpr hrenders.ascending, hplaced,
    fun i hi label hjump => ?_, fun label target => (Program.readFrom_parse h).target_le⟩
  · unfold Program.get? Program.lineOf Program.size
    rcases Nat.lt_or_ge index p.code.length with hlt | hge
    · have hline := (hplaced p.code[index] (List.getElem_mem hlt)).1
      simp [hlt, hline]
    · simp [hge]
  · obtain ⟨target, htarget, -⟩ := Program.isClosed_of_parse h i hi label hjump
    rw [htarget]
    rfl

/-- The lines in front of the one of the error are a program up to labels. -/
theorem unknownLabel_of_before {source : String} {e e' : ParseError}
    (h : Refused (lines source.toList) e)
    (hbefore : Program.parse (String.ofList (firstLines (e.line - 1) source.toList)) = .error e') :
    ∃ label, e'.fault = .unknownLabel label := by
  obtain ⟨hpositive, hlast⟩ := h.placed
  have hless : e.line - 1 ≤ (lines source.toList).length := Nat.le_trans (Nat.sub_le _ _) hlast
  have hlength := length_firstLines hless
  have hsame : ∀ index < (lines (firstLines (e.line - 1) source.toList)).length,
      readAt? (lines (firstLines (e.line - 1) source.toList)) index =
        readAt? (lines source.toList) index := by
    intro index hindex
    have hfirst := readAt?_firstLines hless (hlength ▸ hindex) []
    rwa [List.append_nil] at hfirst
  have hsound := h.sound_before (by omega) hsame
  rw [parse_eq_error_iff, String.toList_ofList] at hbefore
  cases hbefore with
  | faulty hfaulty => exact absurd hfaulty (hsound _ _)
  | dangling => exact ⟨_, rfl⟩

theorem errorLaw_of_parse {source : String} {e : ParseError} (h : Program.parse source = .error e) :
    ErrorLaw source e := by
  have hrefused := refused_parse h
  refine ⟨hrefused.placed, fun e' => unknownLabel_of_before hrefused, fun hfault others => ?_,
    fun label hlabel => ?_, fun hfault => ?_⟩
  · rw [parse_eq_error_iff, String.toList_ofList]
    exact hrefused.of_alike hfault fun index hindex =>
      (readAt?_firstLines hrefused.placed.2 hindex others).symm
  · cases hrefused with
    | faulty hfaulty => exact absurd hlabel (hfaulty.ne_unknownLabel label)
    | dangling hsound hjump hfirst =>
      obtain rfl := ParseFault.unknownLabel.inj hlabel
      exact ⟨hsound, hjump, fun number label' hother =>
        Nat.le_of_not_lt fun hlt => hfirst number hlt label' hother⟩
  · cases hrefused with
    | faulty hfaulty hfirst =>
      exact ⟨hfaulty, fun number fault hother =>
        Nat.le_of_not_lt fun hlt => hfirst number hlt fault hother⟩
    | dangling => exact absurd rfl (hfault _)

/-- **The law of reading holds for every source.** -/
theorem reading_law (source : String) :
    match Program.parse source with
    | .ok p => ProgramLaw source p
    | .error e => ErrorLaw source e := by
  split
  · exact programLaw_of_parse ‹_›
  · exact errorLaw_of_parse ‹_›

end Heartbeat.StepScript

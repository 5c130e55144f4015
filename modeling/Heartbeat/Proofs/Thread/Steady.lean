import Heartbeat.Proofs.Thread.Service

/-!
# Code that does not notice heartbeats

Heartbeats cut the work of a script into slices. Code can learn of it in three ways: it can ask for
its budget, look at the world, or look at the time. Steady code does none of this. As long as no
match waits for it, what it does depends on nothing but its memory and its events.

* `Code.IsSteady`, `Language.IsSteady`: such code, and a language of it.
* `Context.Agrees`: two contexts that are the same to steady code.
* `Context.Abreast.run`, `step`: steady code says the same in both, and they agree behind it.
-/

namespace Heartbeat

section Code

variable {M W K α : Type}

/-- The code asks neither for its budget nor for the world. -/
def Code.IsSteady : Code M W K α → Prop
  | .finish _ => True
  | .print _ next => next.IsSteady
  | .register _ _ _ next => ∀ answer, (next answer).IsSteady
  | .unregister _ next => ∀ answer, (next answer).IsSteady
  | .pending next => ∀ answer, (next answer).IsSteady
  | .dispatchEvents next => ∀ answer, (next answer).IsSteady
  | .consume _ next => next.IsSteady
  | .remaining _ => False
  | .request _ next => next.IsSteady
  | .recall next => ∀ answer, (next answer).IsSteady
  | .store _ next => next.IsSteady
  | .observe _ => False
  | .affect _ next => next.IsSteady

end Code

/-- The code of scripts is steady and does not look at the time; conditions change nothing and do
not break down. -/
structure Language.IsSteady (L : Language) : Prop where
  step : ∀ script caller, (L.step script caller).IsSteady
  timeless : ∀ script caller now, L.step script { caller with now := now } = L.step script caller
  evaluate : ∀ condition here, ∃ holds, L.evaluate condition here = (.known holds, here)

/-! ## Events without matches -/

namespace EventProcessor

variable {κ : Type} {p q : EventProcessor κ}

theorem definitions_define_congr (h : p.definitions = q.definitions) (d : EventDefinition κ) :
    (p.define d).definitions = (q.define d).definitions := by
  unfold define position?
  rw [h]
  split <;> rfl

theorem unregister_congr (h : p.definitions = q.definitions) (name : String) :
    (p.unregister name).1 = (q.unregister name).1 ∧
      (p.unregister name).2.definitions = (q.unregister name).2.definitions := by
  unfold unregister position?
  rw [h]
  split
  · exact ⟨rfl, rfl⟩
  · exact ⟨rfl, h⟩

/-- Where no match waits, none is left behind a discard. -/
theorem size_discard (h : p.pending = 0) (name : String) : (p.discard name).size = 0 :=
  Nat.le_zero.mp (Nat.le_trans (List.length_filter_le _ p.queue.entries) (Nat.le_of_eq h))

theorem pending_define (h : p.pending = 0) (d : EventDefinition κ) : (p.define d).pending = 0 := by
  unfold define
  split
  · exact size_discard h d.name
  · exact h

theorem pending_unregister (h : p.pending = 0) (name : String) :
    (p.unregister name).2.pending = 0 := by
  unfold unregister
  split
  · exact size_discard h name
  · exact h

end EventProcessor

/-! ## Code in contexts that agree -/

namespace Context

variable {L : Language} {α : Type} {caller : Caller} {now : Millis} {c d c' d' c'' d'' : Context L}

/-- No match waits in either context, and they are the same to steady code. -/
structure Agrees (c d : Context L) : Prop where
  memory : c.memory = d.memory
  definitions : c.events.definitions = d.events.definitions
  idle : c.events.pending = 0
  idle' : d.events.pending = 0

theorem drain_of_idle (caller : Caller) (c : Context L) (h : c.events.pending = 0) :
    c.drain caller = (0, c) := by
  unfold drain
  rw [h]
  rfl

/-- The news of texts that code prints. -/
def prints (caller : Caller) (texts : List String) : List StatusEvent :=
  texts.map fun text => .thread caller.pid caller.name (.output text)

/-- Code went from two contexts to contexts that agree, and printed the same on both ways. -/
structure Abreast (caller : Caller) (c d c' d' : Context L) : Prop where
  agrees : Agrees c' d'
  said : ∃ texts, c'.status = c.status ++ prints caller texts ∧
    d'.status = d.status ++ prints caller texts

namespace Abreast

theorem refl (h : Agrees c d) : Abreast caller c d c d :=
  ⟨h, [], (List.append_nil _).symm, (List.append_nil _).symm⟩

theorem trans (h : Abreast caller c d c' d') (h' : Abreast caller c' d' c'' d'') :
    Abreast caller c d c'' d'' := by
  obtain ⟨texts, hc, hd⟩ := h.said
  obtain ⟨texts', hc', hd'⟩ := h'.said
  refine ⟨h'.agrees, texts ++ texts', ?_, ?_⟩
  · rw [hc', hc, List.append_assoc]
    exact congrArg _ List.map_append.symm
  · rw [hd', hd, List.append_assoc]
    exact congrArg _ List.map_append.symm

/-- The same is printed. -/
theorem report (caller : Caller) (h : Agrees c d) (text : String) :
    Abreast caller c d (c.report caller (.output text)) (d.report caller (.output text)) :=
  ⟨⟨h.memory, h.definitions, h.idle, h.idle'⟩, [text], rfl, rfl⟩

/-- Code that goes on in contexts with the same news. -/
theorem of_next (h : Abreast caller c'' d'' c' d') (hc : c''.status = c.status)
    (hd : d''.status = d.status) : Abreast caller c d c' d' := by
  obtain ⟨texts, hc', hd'⟩ := h.said
  exact ⟨h.agrees, texts, hc ▸ hc', hd ▸ hd'⟩

/-- **Steady code ends alike in contexts that agree**, and prints the same. -/
theorem run (caller : Caller) (now : Millis) {drain drain' : Context L → Nat × Context L}
    (hdrain : ∀ c, c.events.pending = 0 → drain c = (0, c))
    (hdrain' : ∀ c, c.events.pending = 0 → drain' c = (0, c))
    (code : Code L.Memory L.World L.Callback α) (hcode : code.IsSteady) (h : Agrees c d) :
    (Context.run caller drain code c).1 =
        (Context.run { caller with now := now } drain' code d).1 ∧
      Abreast caller c d (Context.run caller drain code c).2
        (Context.run { caller with now := now } drain' code d).2 := by
  induction code generalizing c d with
  | finish a => exact ⟨rfl, refl h⟩
  | print text next ih =>
    have hsaid := report caller h text
    obtain ⟨hend, hrest⟩ := ih hcode hsaid.agrees
    exact ⟨hend, hsaid.trans hrest⟩
  | register name pattern callback next ih =>
    simp only [Context.run, EventProcessor.register]
    cases Pattern.compile L.engine pattern with
    | error e => exact ih _ (hcode _) h
    | ok compiled =>
      have hagrees : Agrees { c with events := c.events.define ⟨name, compiled, callback⟩ }
          { d with events := d.events.define ⟨name, compiled, callback⟩ } :=
        ⟨h.memory, EventProcessor.definitions_define_congr h.definitions _,
          EventProcessor.pending_define h.idle _, EventProcessor.pending_define h.idle' _⟩
      obtain ⟨hend, hrest⟩ := ih none (hcode _) hagrees
      exact ⟨hend, hrest.of_next rfl rfl⟩
  | unregister name next ih =>
    obtain ⟨hfound, hdefinitions⟩ := EventProcessor.unregister_congr h.definitions name
    have hagrees : Agrees { c with events := (c.events.unregister name).2 }
        { d with events := (d.events.unregister name).2 } :=
      ⟨h.memory, hdefinitions, EventProcessor.pending_unregister h.idle name,
        EventProcessor.pending_unregister h.idle' name⟩
    simp only [Context.run]
    rw [← hfound]
    obtain ⟨hend, hrest⟩ := ih _ (hcode (c.events.unregister name).1) hagrees
    exact ⟨hend, hrest.of_next rfl rfl⟩
  | pending next ih =>
    simp only [Context.run, h.idle, h.idle']
    exact ih 0 (hcode 0) h
  | dispatchEvents next ih =>
    simp only [Context.run, hdrain c h.idle, hdrain' d h.idle']
    exact ih 0 (hcode 0) h
  | consume steps next ih =>
    have hagrees : Agrees (c.charge steps) (d.charge steps) :=
      ⟨h.memory, h.definitions, h.idle, h.idle'⟩
    obtain ⟨hend, hrest⟩ := ih hcode hagrees
    exact ⟨hend, hrest.of_next rfl rfl⟩
  | remaining next ih => exact absurd hcode id
  | request r next ih =>
    have hagrees : Agrees (c.leave caller r) (d.leave { caller with now := now } r) :=
      ⟨h.memory, h.definitions, h.idle, h.idle'⟩
    obtain ⟨hend, hrest⟩ := ih hcode hagrees
    exact ⟨hend, hrest.of_next rfl rfl⟩
  | «recall» next ih =>
    simp only [Context.run]
    rw [← h.memory]
    exact ih c.memory (hcode _) h
  | store memory next ih =>
    have hagrees : Agrees { c with memory := memory } { d with memory := memory } :=
      ⟨rfl, h.definitions, h.idle, h.idle'⟩
    obtain ⟨hend, hrest⟩ := ih hcode hagrees
    exact ⟨hend, hrest.of_next rfl rfl⟩
  | observe next ih => exact absurd hcode id
  | affect world next ih =>
    have hagrees : Agrees { c with world := world } { d with world := world } :=
      ⟨h.memory, h.definitions, h.idle, h.idle'⟩
    obtain ⟨hend, hrest⟩ := ih hcode hagrees
    exact ⟨hend, hrest.of_next rfl rfl⟩

/-- So do the steps of a script. -/
theorem step (hsteady : L.IsSteady) (caller : Caller) (now : Millis) (script : L.Script)
    (h : Agrees c d) :
    (c.step caller script).1 = (d.step { caller with now := now } script).1 ∧
      Abreast caller c d (c.step caller script).2
        (d.step { caller with now := now } script).2 := by
  have hagrees : Agrees (c.charge 1) (d.charge 1) := ⟨h.memory, h.definitions, h.idle, h.idle'⟩
  unfold Context.step
  rw [hsteady.timeless script caller now]
  obtain ⟨hend, hrest⟩ := run caller now (drain_of_idle caller)
    (drain_of_idle { caller with now := now }) (L.step script caller) (hsteady.step script caller)
    hagrees
  exact ⟨hend, hrest.of_next rfl rfl⟩

end Abreast

end Context

end Heartbeat

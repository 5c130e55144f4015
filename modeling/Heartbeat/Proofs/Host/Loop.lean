import Heartbeat.Host.Rehearsal
import Heartbeat.Proofs.Scheduler.History

/-!
# The loop of a host

A host handles one signal after another, heartbeats and what its input brings, in whatever order
they come, until it ends behind a heartbeat. Each signal makes the scheduler do some operations, so
that a run of a host is a run of its scheduler.

* `Host.Loop`: the runs of a host up to its end.
* `scheduler_handleAll`: what the host does with its scheduler in a row of signals.
* `Rehearsal.loop_of_play`: a rehearsal whose host ends has made such a run.
-/

namespace Heartbeat

variable {L : Language} {now : Millis}

namespace Host

/-- Handles signals at their times, one after another. -/
def handleAll : List (Millis × HostSignal) → Host L → Host L
  | [], h => h
  | (now, signal) :: signals, h => handleAll signals (h.step now signal).host

/-- **The runs of a host up to its end.** Heartbeats come at any time, and the rest only as long as
the input is open. -/
inductive Loop : Host L → List (Millis × HostSignal) → Host L → Prop
  | ends {h : Host L} (now : Millis) (hends : (h.beat now).ends = true) :
      Loop h [(now, .beat)] (h.beat now).host
  | goesOn {h h' : Host L} {signal : HostSignal} {signals : List (Millis × HostSignal)}
      (now : Millis) (hopen : signal = .beat ∨ h.inputOpen = true)
      (hgoes : (h.step now signal).ends = false)
      (hrest : Loop (h.step now signal).host signals h') :
      Loop h ((now, signal) :: signals) h'

section Rows

variable {h h' : Host L} {signals before after : List (Millis × HostSignal)}

theorem handleAll_append :
    handleAll (before ++ after) h = handleAll after (handleAll before h) := by
  induction before generalizing h with
  | nil => rfl
  | cons x before ih => exact ih

namespace Loop

theorem handleAll_eq (hloop : h.Loop signals h') : handleAll signals h = h' := by
  induction hloop with
  | ends => rfl
  | goesOn _ _ _ _ ih => exact ih

/-- A run can be cut before any of its signals. -/
theorem rest (hloop : h.Loop (before ++ after) h') (hafter : after ≠ []) :
    (handleAll before h).Loop after h' := by
  induction before generalizing h with
  | nil => exact hloop
  | cons x before ih =>
    generalize hsignals : x :: before ++ after = signals at hloop
    cases hloop with
    | ends now hends =>
      obtain ⟨-, hnil⟩ := List.cons.inj hsignals
      exact absurd (List.append_eq_nil_iff.mp hnil).2 hafter
    | goesOn now hopen hgoes hrest =>
      obtain ⟨rfl, rfl⟩ := List.cons.inj hsignals
      exact ih hrest

end Loop

end Rows

end Host

/-! ## What becomes of the scheduler -/

/-- What an event makes the scheduler do; views need nothing of it. -/
def HostEvent.operation? : HostEvent → Option (Operation L)
  | .text line => some (.feed line)
  | .run script args => some (.run script args)
  | .parse source => some (.parse source)
  | .stop target => some (.stop target)
  | .pause target => some (.pause target)
  | .list _ | .info _ => none
  | .shutdown => some .stopAll

/-- What a signal makes the scheduler do; at last the host takes the news. -/
def HostSignal.operations : HostSignal → List (Operation L)
  | .beat => [.tick, .drainStatus]
  | .event e => e.operation?.toList ++ [.drainStatus]
  | .inputEnds => [.drainStatus]

namespace Host

/-- What a row of signals makes the scheduler do, with the times. -/
def operationsOf (signals : List (Millis × HostSignal)) : List (Millis × Operation L) :=
  signals.flatMap fun x => x.2.operations.map (x.1, ·)

theorem scheduler_carryOut (now : Millis) (h : Host L) (event : HostEvent) :
    (h.carryOut now event).2.scheduler =
      performAll (event.operation?.toList.map (now, ·)) h.scheduler := by
  unfold carryOut
  cases event with
  | info target =>
    simp only
    split <;> rfl
  | _ => rfl

theorem scheduler_beat (now : Millis) (h : Host L) :
    (h.beat now).host.scheduler = (h.scheduler.tick now).2.drainStatus.2 := rfl

theorem scheduler_step (now : Millis) (h : Host L) (signal : HostSignal) :
    (h.step now signal).host.scheduler =
      performAll (signal.operations.map (now, ·)) h.scheduler := by
  cases signal with
  | beat => rfl
  | event event =>
    show (h.carryOut now event).2.scheduler.drainStatus.2 =
      performAll ((event.operation?.toList ++ [Operation.drainStatus]).map (now, ·)) h.scheduler
    rw [scheduler_carryOut, List.map_append, performAll_append]
    rfl
  | inputEnds => rfl

/-- **A run of a host is a run of its scheduler.** -/
theorem scheduler_handleAll (signals : List (Millis × HostSignal)) (h : Host L) :
    (handleAll signals h).scheduler = performAll (operationsOf signals) h.scheduler := by
  induction signals generalizing h with
  | nil => rfl
  | cons x signals ih =>
    show (handleAll signals (h.step x.1 x.2).host).scheduler =
      performAll (x.2.operations.map (x.1, ·) ++ operationsOf signals) h.scheduler
    rw [ih, scheduler_step, performAll_append]

theorem path_handleAll (signals : List (Millis × HostSignal)) (h : Host L) :
    Path h.scheduler (history (operationsOf signals) h.scheduler)
      (handleAll signals h).scheduler := by
  rw [scheduler_handleAll]
  exact path_history _ _

end Host

/-! ## Rehearsals -/

namespace Host

theorem inputOpen_handle (now : Millis) (h : Host L) (event : HostEvent) :
    (h.handle now event).host.inputOpen = h.inputOpen := by
  show (h.carryOut now event).2.inputOpen = h.inputOpen
  unfold carryOut
  cases event with
  | info target =>
    simp only
    split <;> rfl
  | _ => rfl

end Host

namespace Rehearsal

variable {t : Transcript L} {h' : Host L} {start time : Millis}

theorem returned_takeLine (line : String) :
    (takeLine start time t line).returned = t.returned := by
  unfold takeLine
  split <;> rfl

theorem inputOpen_takeLine (line : String) :
    (takeLine start time t line).host.inputOpen = t.host.inputOpen := by
  unfold takeLine
  split
  · rfl
  · exact Host.inputOpen_handle _ _ _

/-- What a host does behind a line is a part of a run that takes the line. -/
theorem loop_of_takeLine {line : String} (hopen : t.host.inputOpen = true)
    (hrest : ∃ signals, (takeLine start time t line).host.Loop signals h') :
    ∃ signals, t.host.Loop signals h' := by
  unfold takeLine at hrest
  split at hrest
  · exact hrest
  · rename_i event hline
    obtain ⟨signals, hloop⟩ := hrest
    have hgoes : (t.host.step (start + time) (.event event)).ends = false := rfl
    exact ⟨_, .goesOn (start + time) (.inr hopen) hgoes hloop⟩

/-- The lines of a slot, taken one after another. -/
theorem loop_of_lines {lines : List (Nat × String)} (hopen : t.host.inputOpen = true)
    (hrest : ∃ signals,
      (lines.foldl (fun t (_, line) => takeLine start time t line) t).host.Loop signals h') :
    ∃ signals, t.host.Loop signals h' := by
  induction lines generalizing t with
  | nil => exact hrest
  | cons x lines ih =>
    exact loop_of_takeLine hopen (ih ((inputOpen_takeLine x.2).trans hopen) hrest)

theorem lines_spec (lines : List (Nat × String)) (t : Transcript L) :
    (lines.foldl (fun t (_, line) => takeLine start time t line) t).returned = t.returned ∧
      (lines.foldl (fun t (_, line) => takeLine start time t line) t).host.inputOpen =
        t.host.inputOpen := by
  induction lines generalizing t with
  | nil => exact ⟨rfl, rfl⟩
  | cons x lines ih =>
    exact ⟨(ih _).1.trans (returned_takeLine x.2), (ih _).2.trans (inputOpen_takeLine x.2)⟩

/-- What a host does behind the end of its input is a part of a run. -/
theorem loop_of_endInput (hopen : t.host.inputOpen = true)
    (hrest : ∃ signals, (endInput start time t).host.Loop signals h') :
    ∃ signals, t.host.Loop signals h' := by
  obtain ⟨signals, hloop⟩ := hrest
  exact ⟨(start + time, .inputEnds) :: signals, .goesOn (start + time) (.inr hopen) rfl hloop⟩

/-- What a host does behind a heartbeat and the lines of its slot is a part of a run. -/
theorem loop_of_slot {due : List (Nat × String)} {news : List (Millis × StatusEvent)}
    (hgoes : (t.host.beat now).ends = false) (hinput : t.host.inputOpen = true ∨ due = [])
    (hrest : ∃ signals,
      (due.foldl (fun (t : Transcript L) (_, line) => takeLine start time t line)
        { t with host := (t.host.beat now).host, news := news }).host.Loop signals h') :
    ∃ signals, t.host.Loop signals h' := by
  have hbeat : ∃ signals, (t.host.step now .beat).host.Loop signals h' := by
    rcases hinput with hopen | rfl
    · exact loop_of_lines (t := { t with host := (t.host.beat now).host, news := news }) hopen hrest
    · exact hrest
  obtain ⟨signals, hloop⟩ := hbeat
  exact ⟨(now, .beat) :: signals, .goesOn now (.inl rfl) hgoes hloop⟩

/-- The heartbeats and lines that are left lead to the end of the host along a run, as long as the
input is open or nothing more comes of it. -/
theorem loop_of_playFrom (slots k : Nat) (lines : List (Nat × String)) (closeAfter? : Option Nat)
    (t : Transcript L) (hinput : t.host.inputOpen = true ∨ lines = [] ∧ closeAfter? = none)
    (hcut : t.returned = false)
    (hreturned : (playFrom start slots k lines closeAfter? t).returned = true) :
    ∃ signals, t.host.Loop signals (playFrom start slots k lines closeAfter? t).host := by
  induction slots generalizing k lines closeAfter? t with
  | zero =>
    unfold playFrom at hreturned ⊢
    simp only at hreturned ⊢
    split at hreturned
    · rename_i hends
      rw [if_pos hends]
      exact ⟨_, .ends _ hends⟩
    · exact absurd (hcut.symm.trans hreturned) nofun
  | succ slots ih =>
    unfold playFrom at hreturned ⊢
    simp only at hreturned ⊢
    split at hreturned
    · rename_i hends
      rw [if_pos hends]
      exact ⟨_, .ends _ hends⟩
    · rename_i hgoes
      rw [if_neg hgoes]
      have hdue : t.host.inputOpen = true ∨ lines.takeWhile (·.1 ≤ k) = [] :=
        hinput.imp_right fun h => by rw [h.1]; rfl
      have hlater : ∀ {t' : Transcript L}, t'.host.inputOpen = t.host.inputOpen →
          t'.host.inputOpen = true ∨ lines.dropWhile (·.1 ≤ k) = [] ∧ closeAfter? = none := by
        intro t' hsame
        rw [hsame]
        exact hinput.imp_right fun h => ⟨by rw [h.1]; rfl, h.2⟩
      have hgoes := Bool.not_eq_true _ ▸ hgoes
      split at hreturned
      · rename_i slot
        have hopen : t.host.inputOpen = true := hinput.resolve_right fun h => absurd h.2 nofun
        split at hreturned
        · rename_i hclose
          rw [if_pos hclose]
          have hempty := List.isEmpty_iff.mp (Bool.and_eq_true_iff.mp hclose).2
          refine loop_of_slot hgoes hdue
            (loop_of_endInput ?_ (ih _ _ _ _ (.inr ⟨hempty, rfl⟩) ?_ hreturned))
          · exact (lines_spec _ _).2.trans hopen
          · exact (lines_spec _ _).1.trans hcut
        · rename_i hopenstill
          rw [if_neg hopenstill]
          exact loop_of_slot hgoes hdue
            (ih _ _ _ _ (hlater (lines_spec _ _).2) ((lines_spec _ _).1.trans hcut) hreturned)
      · exact loop_of_slot hgoes hdue
          (ih _ _ _ _ (hlater (lines_spec _ _).2) ((lines_spec _ _).1.trans hcut) hreturned)

/-- **A rehearsal whose host ends has made a run of it.** -/
theorem loop_of_play (r : Rehearsal) (start : Millis) {h : Host L} (hopen : h.inputOpen = true)
    (hreturned : (r.play start h).returned = true) :
    ∃ signals, h.Loop signals (r.play start h).host :=
  loop_of_playFrom r.lastSlot 0 r.lines r.closeAfter? ⟨h, [], [], 0, false⟩ (.inl hopen) rfl
    hreturned

end Rehearsal

end Heartbeat

import Heartbeat.Proofs.Scheduler.Consistent

/-!
# Threads at rest

A thread that was stopped or has ended does nothing any more, and nothing is done with it but to
remove it. A paused thread does nothing until it is resumed, though its turn comes in every
heartbeat. Both hold from the very move on that stops or pauses the thread, whoever asked for it and
whatever other threads do.

* `Untouched`: what holds of a thread that was stopped or has ended.
* `Suspended`: what holds of a paused thread until it is resumed.
* `Fate.finished`, `Fate.rests`: no fate disturbs the rest, from which it follows for every path.
* `rest_law_of_create`: both hold at every moment of every run.
-/

namespace Heartbeat

variable {L : Language} {now : Millis}

/-- A thread was stopped or has ended, and may be gone. -/
def Scheduler.IsOver (s : Scheduler L) (p : Pid) : Prop :=
  0 < p ∧ p < s.nextPid ∧ ∀ t, s.threads.find? p = some t → t.isActive = false

/-- **No code of a thread runs and no line is matched for it in a row of moves.** It gets no
service, and it is there as it was until it is gone. -/
structure Untouched (p : Pid) (moves : List (Millis × Move L)) (s : Scheduler L) : Prop where
  idle : ∀ x ∈ timeline p moves s, x.2.isBusy = false
  unserved : ∀ x ∈ moves, x.2 ≠ .serve p
  kept : ∀ past, past <+: moves →
    (replay past s).threads.find? p = s.threads.find? p ∨ (replay past s).threads.find? p = none

/-- A thread is as it was, up to its budget and its mark for stopping. -/
def Thread.Rests (t t' : Thread L) : Prop :=
  ∃ budget abandoned, t' = { t with budget := budget, abandoned := abandoned }

/-- **No code of a paused thread runs and no line is matched for it in a row of moves.** As long as
it is there its events, its state with the wait in it, its script and its memory are as they were.
Its services only renew its budget, and touch nothing else. -/
structure Suspended (p : Pid) (t : Thread L) (moves : List (Millis × Move L)) (s : Scheduler L) :
    Prop where
  idle : ∀ x ∈ timeline p moves s, x.2.isBusy = false
  kept : ∀ past, past <+: moves → ∀ t', (replay past s).threads.find? p = some t' → t.Rests t'
  served : ∀ past now rest, moves = past ++ (now, .serve p) :: rest →
    ∃ t' turbo, (replay past s).threads.find? p = some t' ∧
      (Move.serve p).apply now (replay past s) = (replay past s).setThread (t'.beginTick turbo)

/-- **The law of rest** of a thread, in the run of a row of operations from a state: what holds at
every moment, the middle of an operation included. -/
structure RestLaw (p : Pid) (ops : List (Millis × Operation L)) (s₀ : Scheduler L) : Prop where
  /-- The thread is at rest for good from the move on that marks it for stopping. -/
  marked : ∀ n now, (history ops s₀)[n]? = some (now, .mark p) →
    (replay ((history ops s₀).take (n + 1)) s₀).IsOver p
  /-- It is at rest from the move on that pauses it. -/
  paused : ∀ n now, (history ops s₀)[n]? = some (now, .pause p) →
    ∃ t, (replay ((history ops s₀).take (n + 1)) s₀).threads.find? p = some t ∧
      t.isActive = true ∧ t.state.isPaused = true
  /-- A thread that was stopped or has ended is left alone for the rest of the run. -/
  finished : ∀ n, (replay ((history ops s₀).take n) s₀).IsOver p →
    Untouched p ((history ops s₀).drop n) (replay ((history ops s₀).take n) s₀)
  /-- A paused thread is left alone until it is resumed. -/
  suspended : ∀ n t, (replay ((history ops s₀).take n) s₀).threads.find? p = some t →
    t.isActive = true → t.state.isPaused = true →
      ∀ moves, moves <+: (history ops s₀).drop n →
        (∀ x ∈ timeline p moves (replay ((history ops s₀).take n) s₀), x.2 ≠ .resumed) →
          Suspended p t moves (replay ((history ops s₀).take n) s₀)

/-! ## Ended threads -/

namespace Slot

theorem active_of_life {slot : Slot L} {t : Thread L} (hfind : slot.thread? = some t)
    (hactive : t.isActive = true) : slot.life ≠ .finished := by
  unfold life
  rw [hfind]
  show t.life ≠ .finished
  rw [Thread.life_of_active hactive]
  exact nofun

/-- A slot whose thread may have gone, and is at rest until then. -/
structure Rests (slot : Slot L) (t : Thread L) : Prop where
  taken : slot.isTaken = true
  kept : ∀ t', slot.thread? = some t' → t.Rests t'

end Slot

theorem Scheduler.isOver_iff {s : Scheduler L} {p : Pid} (hacc : s.Accord) :
    s.IsOver p ↔ (s.slot p).life = .finished := by
  constructor
  · rintro ⟨hpos, hlt, hgone⟩
    unfold Slot.life Scheduler.slot
    cases hfind : s.threads.find? p with
    | none => exact if_pos (decide_eq_true ⟨hpos, hlt⟩)
    | some t =>
      show t.life = .finished
      unfold Thread.life
      rw [hgone t hfind]
      exact if_neg Bool.false_ne_true
  · intro hover
    have htaken : (s.slot p).isTaken = true := by
      by_contra hfree
      rw [(hacc.slots p).eq_free (Bool.eq_false_iff.mpr hfree)] at hover
      exact absurd hover nofun
    obtain ⟨hpos, hlt⟩ := pid_of_taken htaken
    refine ⟨hpos, hlt, fun t hfind => Bool.eq_false_iff.mpr fun hactive => ?_⟩
    have hthread : (s.slot p).thread? = some t := hfind
    exact Slot.active_of_life hthread hactive hover

namespace Fate

variable {slot slot' : Slot L} {acts : List (Act L)} {reports : List ThreadReport}

/-- When a life is over, the thread stays as it is or goes. -/
theorem finished (h : Fate now slot acts reports slot') (hover : slot.life = .finished) :
    slot'.thread? = slot.thread? ∨ slot'.thread? = none := by
  cases h with
  | idle => exact .inl rfl
  | forgotten hclosed => exact .inl rfl
  | stopped hmarked hscript => exact .inr rfl
  | buried hended => exact .inr rfl
  | born p name path args script queueLimit? => exact absurd hover nofun
  | rested turbo hactive hpaused => exact absurd hover (Slot.active_of_life rfl hactive)
  | served turbo dispatchFirst world talk hactive hawake htalk =>
    exact absurd hover (Slot.active_of_life rfl hactive)
  | heard line hactive hawake => exact absurd hover (Slot.active_of_life rfl hactive)
  | paused hactive hawake => exact absurd hover (Slot.active_of_life rfl hactive)
  | resumed hactive hpaused => exact absurd hover (Slot.active_of_life rfl hactive)
  | marked hactive => exact absurd hover (Slot.active_of_life rfl hactive)

/-- **No fate but a resumption disturbs the rest of a paused thread.** -/
theorem rests {t : Thread L} (h : Fate now slot acts reports slot')
    (hpaused : t.state.isPaused = true) (hrests : slot.Rests t) (hresumed : .resumed ∉ acts) :
    slot'.Rests t ∧ ∀ act ∈ acts, act.isBusy = false := by
  obtain ⟨htaken, hkept⟩ := hrests
  have hasleep : ∀ {t' : Thread L}, t.Rests t' → t'.state.isPaused ≠ false := by
    rintro t' ⟨budget, abandoned, rfl⟩ hawake
    rw [hpaused] at hawake
    exact absurd hawake nofun
  have hsilent : ∀ act ∈ ([] : List (Act L)), act.isBusy = false := fun _ hact =>
    absurd hact List.not_mem_nil
  have hone : ∀ {a : Act L}, a.isBusy = false → ∀ act ∈ [a], act.isBusy = false := by
    intro a ha act hact
    rw [List.mem_singleton.mp hact]
    exact ha
  cases h with
  | idle => exact ⟨⟨htaken, hkept⟩, hsilent⟩
  | born p name path args script queueLimit? => exact absurd htaken nofun
  | rested turbo hactive hpaused' =>
    obtain ⟨budget, abandoned, rfl⟩ := hkept _ rfl
    refine ⟨⟨htaken, fun t' ht' => ?_⟩, hsilent⟩
    obtain rfl := Option.some.inj ht'
    exact ⟨_, _, rfl⟩
  | served turbo dispatchFirst world talk hactive hawake htalk =>
    exact absurd hawake (hasleep (hkept _ rfl))
  | heard line hactive hawake => exact absurd hawake (hasleep (hkept _ rfl))
  | paused hactive hawake => exact absurd hawake (hasleep (hkept _ rfl))
  | resumed hactive hpaused' => exact absurd List.mem_cons_self hresumed
  | marked hactive =>
    obtain ⟨budget, abandoned, rfl⟩ := hkept _ rfl
    refine ⟨⟨htaken, fun t' ht' => ?_⟩, hone rfl⟩
    obtain rfl := Option.some.inj ht'
    exact ⟨_, _, rfl⟩
  | stopped hmarked hscript => exact ⟨⟨htaken, nofun⟩, hone rfl⟩
  | buried hended => exact ⟨⟨htaken, nofun⟩, hone rfl⟩
  | forgotten hclosed => exact ⟨⟨htaken, hkept⟩, hsilent⟩

end Fate

/-! ## Paths -/

namespace Path

variable {s s' : Scheduler L} {moves : List (Millis × Move L)} {p : Pid}

/-- Along a path, a thread whose life is over stays as it is or goes. -/
theorem finished (h : Path s moves s') (hacc : s.Accord) (hover : (s.slot p).life = .finished) :
    (∀ x ∈ moves, x.2 ≠ .serve p) ∧
      (s'.threads.find? p = s.threads.find? p ∨ s'.threads.find? p = none) := by
  induction h with
  | nil => exact ⟨fun _ hx => absurd hx List.not_mem_nil, .inl rfl⟩
  | @cons s s' m moves now hfits _ ih =>
    obtain ⟨news, hmove⟩ := Move.outcome hfits hacc now
    have hstep := (hmove.fates p).run (hacc.slots p)
    rw [hover] at hstep
    obtain ⟨hunserved, hkept⟩ := ih (Move.accord hfits hacc now) hstep.over_stays
    refine ⟨List.forall_mem_cons.mpr ⟨?_, hunserved⟩, ?_⟩
    · rintro rfl
      obtain ⟨t, hfind, hactive⟩ := hfits
      have hthread : (s.slot p).thread? = some t := hfind
      exact Slot.active_of_life hthread hactive hover
    · rcases (hmove.fates p).finished hover with hsame | hgone
      · have hsame : (m.apply now s).threads.find? p = s.threads.find? p := hsame
        rw [hsame] at hkept
        exact hkept
      · have hgone : (m.apply now s).threads.find? p = none := hgone
        rw [hgone, or_self] at hkept
        exact .inr hkept

theorem untouched (h : Path s moves s') (hacc : s.Accord) (hover : (s.slot p).life = .finished) :
    Untouched p moves s := by
  refine ⟨fun x hx => ?_, (h.finished hacc hover).1, ?_⟩
  · have hrun := h.run hacc p
    rw [hover] at hrun
    rw [hrun.over_idle x hx]
    rfl
  · rintro past ⟨rest, rfl⟩
    exact (h.split.1.finished hacc hover).2

/-- Along a path without a resumption, a paused thread is at rest. -/
theorem rests {t : Thread L} (h : Path s moves s') (hacc : s.Accord)
    (hpaused : t.state.isPaused = true) (hrests : (s.slot p).Rests t)
    (hresumed : ∀ x ∈ timeline p moves s, x.2 ≠ .resumed) :
    (s'.slot p).Rests t ∧ ∀ x ∈ timeline p moves s, x.2.isBusy = false := by
  induction h with
  | nil => exact ⟨hrests, fun _ hx => absurd hx List.not_mem_nil⟩
  | @cons s s' m moves now hfits _ ih =>
    obtain ⟨news, hmove⟩ := Move.outcome hfits hacc now
    have hresumed := List.forall_mem_append.mp hresumed
    obtain ⟨hnext, hidle⟩ := (hmove.fates p).rests hpaused hrests fun hmem =>
      hresumed.1 (now, .resumed) (List.mem_map_of_mem hmem) rfl
    obtain ⟨hlast, hrest⟩ := ih (Move.accord hfits hacc now) hnext hresumed.2
    refine ⟨hlast, List.forall_mem_append.mpr ⟨fun x hx => ?_, hrest⟩⟩
    obtain ⟨act, hact, rfl⟩ := List.mem_map.mp hx
    exact hidle act hact

end Path

/-- The service of a paused thread renews its budget, and nothing else. -/
theorem Scheduler.serve_of_paused {s : Scheduler L} {p : Pid} {t : Thread L}
    (hfind : s.threads.find? p = some t) (hactive : t.isActive = true)
    (hpaused : t.state.isPaused = true) :
    s.serve now p = s.setThread (t.beginTick s.options.turbo) := by
  have hservice := (Thread.service_of_paused hactive hpaused s.options.turbo
    (s.options.dispatch == .onResume) now s.world).1
  unfold serve activityOf
  rw [hfind]
  simp only [hservice]
  unfold recordService absorb
  simp only [List.append_nil]
  rfl

theorem Path.suspended {s s' : Scheduler L} {moves : List (Millis × Move L)} {p : Pid}
    {t : Thread L} (h : Path s moves s') (hacc : s.Accord) (hfind : s.threads.find? p = some t)
    (hpaused : t.state.isPaused = true) (hresumed : ∀ x ∈ timeline p moves s, x.2 ≠ .resumed) :
    Suspended p t moves s := by
  have hrests : (s.slot p).Rests t := by
    refine ⟨Scheduler.taken_of_accord (hacc.slots p) (.inl ?_), fun t' ht' => ?_⟩
    · exact Option.isSome_iff_exists.mpr ⟨t, hfind⟩
    · obtain rfl : t = t' := Option.some.inj (hfind.symm.trans ht')
      exact ⟨_, _, rfl⟩
  have hpast : ∀ past rest, moves = past ++ rest → ((replay past s).slot p).Rests t := by
    rintro past rest rfl
    refine (h.split.1.rests hacc hpaused hrests fun x hx => hresumed x ?_).1
    rw [timeline_append]
    exact List.mem_append_left _ hx
  refine ⟨(h.rests hacc hpaused hrests hresumed).2, ?_, ?_⟩
  · rintro past ⟨rest, hsplit⟩
    exact (hpast past rest hsplit.symm).kept
  · intro past now rest hsplit
    have hkept := (hpast past _ hsplit).kept
    rw [hsplit] at h
    cases h.split.2 with
    | cons _ hfits _ =>
      obtain ⟨t', hfind', hactive⟩ := hfits
      obtain ⟨budget, abandoned, rfl⟩ := hkept t' hfind'
      exact ⟨_, _, hfind', Scheduler.serve_of_paused hfind' hactive hpaused⟩

/-- What happens to a thread in the move of a path at a position is a piece of its life. -/
theorem Path.run_at {s s' : Scheduler L} {moves : List (Millis × Move L)} {n : Nat} {m : Move L}
    (h : Path s moves s') (hacc : s.Accord) (hmove : moves[n]? = some (now, m)) (p : Pid) :
    Life.Run ((replay (moves.take n) s).slot p).life
      ((m.acts now (replay (moves.take n) s) p).map (now, ·))
      ((replay (moves.take (n + 1)) s).slot p).life := by
  rw [← List.take_append_drop (n + 1) moves] at h
  have hnext := h.split.1
  rw [List.take_add_one, hmove] at hnext ⊢
  obtain ⟨hpast, hlast⟩ := hnext.split
  have hrun := hlast.run (hpast.accord hacc) p
  rw [← List.append_nil (List.map _ _)]
  exact hrun

/-- **The law of rest holds in every run**, whatever the host does and whatever the scripts do: a
thread that was stopped or has ended is at rest for good, and one that is paused until it is
resumed. -/
theorem rest_law_of_create (options : SchedulerOptions) (library : ScriptLibrary)
    (searchPath : List ScriptPath) (world : L.World) (start : Millis) (clock : Clock)
    (ops : List (Millis × Operation L)) (p : Pid) :
    RestLaw p ops (Scheduler.create (L := L) options library searchPath world start clock) := by
  have hacc := Scheduler.accord_create (L := L) options library searchPath world start clock
  generalize Scheduler.create options library searchPath world start clock = s₀ at hacc ⊢
  have hpath : Path s₀ (history ops s₀) (performAll ops s₀) := path_history ops s₀
  have hsplit : ∀ n, Path s₀ ((history ops s₀).take n) (replay ((history ops s₀).take n) s₀) ∧
      Path (replay ((history ops s₀).take n) s₀) ((history ops s₀).drop n) (performAll ops s₀) := by
    intro n
    rw [← List.take_append_drop n (history ops s₀)] at hpath
    exact hpath.split
  refine ⟨?_, ?_, ?_, ?_⟩
  · intro n now hmove
    have hrun := hpath.run_at hacc hmove p
    rw [Move.acts, if_pos rfl] at hrun
    exact (Scheduler.isOver_iff ((hsplit (n + 1)).1.accord hacc)).mpr hrun.of_marked
  · intro n now hmove
    have hrun := hpath.run_at hacc hmove p
    rw [Move.acts, if_pos rfl] at hrun
    obtain ⟨state, hlife⟩ := hrun.of_paused
    obtain ⟨t, hfind, hactive, hstate⟩ := Slot.thread_of_awake hlife
    refine ⟨t, hfind, hactive, ?_⟩
    rw [hstate]
    exact ExecutionState.isPaused_pause state
  · intro n hover
    have hnow := (hsplit n).1.accord hacc
    exact (hsplit n).2.untouched hnow ((Scheduler.isOver_iff hnow).mp hover)
  · rintro n t hfind - hpaused moves ⟨rest, hmoves⟩ hresumed
    have hfuture := (hsplit n).2
    rw [← hmoves] at hfuture
    exact hfuture.split.1.suspended ((hsplit n).1.accord hacc) hfind hpaused hresumed

end Heartbeat

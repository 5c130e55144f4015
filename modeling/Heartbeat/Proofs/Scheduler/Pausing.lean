import Heartbeat.Proofs.Scheduler.Entry

/-!
# Pausing undoes itself

A pause of one script turns the state of its thread over, and a toggle of all threads turns the
active ones to one side. Either changes the states of threads, shows them in the entries and tells
the host; what it does to the states can be read off slot by slot.

* `Slot.turn`: the slot of a thread whose state is changed.
* `Scheduler.Turned`: a scheduler with the states of its threads changed; such changes compose.
* `turned_pause`, `turned_toggleAll`: which changes a pause and a toggle of all threads make.
* `pausing_law_of_create`: the second pause takes back the first, and a toggle of all threads is its
  own inverse from the second time on.
-/

namespace Heartbeat

variable {L : Language} {now : Millis}

namespace ExecutionState

variable {κ : Type} {state : ExecutionState κ}

/-- The wait that is on, or that a pause interrupted. -/
def wait? : ExecutionState κ → Option (Wait κ)
  | .running => none
  | .delayed wait => some wait
  | .paused saved? => saved?

theorem wait?_pause (state : ExecutionState κ) : state.pause.wait? = state.wait? := by
  cases state <;> rfl

theorem wait?_resume (state : ExecutionState κ) : state.resume.wait? = state.wait? := by
  cases state with
  | paused saved? => cases saved? <;> rfl
  | running => rfl
  | delayed wait => rfl

/-- A pause of a paused thread changes nothing. -/
theorem pause_of_paused (h : state.isPaused = true) : state.pause = state := by
  cases state with
  | paused saved? => rfl
  | running => exact absurd h nofun
  | delayed wait => exact absurd h nofun

/-- What a pause interrupted is taken up as it was. -/
theorem resume_pause (h : state.isPaused = false) : state.pause.resume = state := by
  cases state with
  | paused saved? => exact absurd h nofun
  | running => rfl
  | delayed wait => rfl

theorem pause_resume (h : state.isPaused = true) : state.resume.pause = state := by
  cases state with
  | paused saved? => cases saved? <;> rfl
  | running => exact absurd h nofun
  | delayed wait => exact absurd h nofun

theorem toggle_of_paused (h : state.isPaused = true) : state.toggle = state.resume := if_pos h

theorem toggle_of_awake (h : state.isPaused = false) : state.toggle = state.pause :=
  if_neg (by rw [h]; exact Bool.false_ne_true)

theorem isPaused_toggle (state : ExecutionState κ) : state.toggle.isPaused = !state.isPaused := by
  cases h : state.isPaused with
  | true =>
    rw [toggle_of_paused h]
    exact isPaused_resume state
  | false =>
    rw [toggle_of_awake h]
    exact isPaused_pause state

theorem toggle_toggle (state : ExecutionState κ) : state.toggle.toggle = state := by
  cases h : state.isPaused with
  | true => rw [toggle_of_paused h, toggle_of_awake (isPaused_resume state), pause_resume h]
  | false => rw [toggle_of_awake h, toggle_of_paused (isPaused_pause state), resume_pause h]

end ExecutionState

/-- What the host is told of a thread whose state is turned over. -/
def Thread.turnReport (t : Thread L) : ThreadReport :=
  if t.state.isPaused then .resumed else .paused

/-! ## Changes of states -/

namespace Slot

variable {f g : ExecutionState L.Condition → ExecutionState L.Condition} {slot : Slot L}
  {t : Thread L}

/-- The slot with the state of its thread changed, if the thread is active. The entry shows the new
state. -/
def turn (f : ExecutionState L.Condition → ExecutionState L.Condition) (slot : Slot L) : Slot L :=
  match slot.thread? with
  | none => slot
  | some t =>
    if t.isActive then
      { slot with
        thread? := some { t with state := f t.state }
        listed? := slot.listed?.map fun e => { e with status := (f t.state).status } }
    else slot

theorem turn_of_active (h : slot.thread? = some t) (hactive : t.isActive = true) :
    slot.turn f =
      { slot with
        thread? := some { t with state := f t.state }
        listed? := slot.listed?.map fun e => { e with status := (f t.state).status } } := by
  unfold turn
  rw [h]
  exact if_pos hactive

theorem turn_of_idle (h : ∀ t, slot.thread? = some t → t.isActive = false) :
    slot.turn f = slot := by
  unfold turn
  cases ht : slot.thread? with
  | none => rfl
  | some t => exact if_neg (by rw [h t ht]; exact Bool.false_ne_true)

theorem thread?_turn (f : ExecutionState L.Condition → ExecutionState L.Condition)
    (slot : Slot L) :
    (slot.turn f).thread? =
      slot.thread?.map fun t => if t.isActive then { t with state := f t.state } else t := by
  unfold turn
  cases ht : slot.thread? with
  | none => exact ht
  | some t =>
    simp only [Option.map_some]
    split
    · rfl
    · exact ht

theorem active_or_idle (slot : Slot L) :
    (∃ t, slot.thread? = some t ∧ t.isActive = true) ∨
      ∀ t, slot.thread? = some t → t.isActive = false := by
  by_cases hactive : ∃ t, slot.thread? = some t ∧ t.isActive = true
  · exact .inl hactive
  · exact .inr fun t ht => Bool.eq_false_iff.mpr fun h => hactive ⟨t, ht, h⟩

/-- Two changes that agree on the state of the thread are the same. -/
theorem turn_congr
    (h : ∀ t, slot.thread? = some t → t.isActive = true → f t.state = g t.state) :
    slot.turn f = slot.turn g := by
  rcases slot.active_or_idle with ⟨t, ht, hactive⟩ | hidle
  · rw [turn_of_active ht hactive, turn_of_active ht hactive, h t ht hactive]
  · rw [turn_of_idle hidle, turn_of_idle hidle]

/-- One change after another is one change. -/
theorem turn_turn : (slot.turn f).turn g = slot.turn (g ∘ f) := by
  rcases slot.active_or_idle with ⟨t, ht, hactive⟩ | hidle
  · rw [turn_of_active ht hactive, turn_of_active ht hactive,
      turn_of_active (t := { t with state := f t.state }) rfl hactive]
    simp only [Option.map_map]
    rfl
  · rw [turn_of_idle (f := f) hidle, turn_of_idle hidle, turn_of_idle hidle]

/-- A change that keeps the state keeps the slot, since the entry shows the state already. -/
theorem Accord.turn_id (h : slot.Accord) : slot.turn id = slot := by
  rcases slot.active_or_idle with ⟨t, ht, hactive⟩ | hidle
  · rw [turn_of_active ht hactive]
    obtain ⟨t?, e?, isTaken⟩ := slot
    obtain rfl : t? = some t := ht
    obtain ⟨-, e, rfl, hdesc⟩ := h.of_script (Thread.not_terminated_of_active hactive)
    simp only [id, Option.map_some, ← hdesc.status]
  · exact turn_of_idle hidle

/-- The entry goes on describing the thread. -/
theorem Accord.turn (h : slot.Accord)
    (f : ExecutionState L.Condition → ExecutionState L.Condition) : (slot.turn f).Accord := by
  rcases slot.active_or_idle with ⟨t, ht, hactive⟩ | hidle
  · rw [turn_of_active ht hactive]
    obtain ⟨t?, e?, isTaken⟩ := slot
    obtain rfl : t? = some t := ht
    have hscript := Thread.not_terminated_of_active hactive
    obtain ⟨rfl, e, rfl, hdesc⟩ := h.of_script hscript
    exact .live hscript ⟨hdesc.name, hdesc.path, hdesc.arguments, hdesc.endTime?, rfl⟩
  · rw [turn_of_idle hidle]
    exact h

end Slot

namespace Scheduler

variable {s s' s'' : Scheduler L} {p : Pid} {t : Thread L}
  {f g : Pid → ExecutionState L.Condition → ExecutionState L.Condition}
  {change : ExecutionState L.Condition → ExecutionState L.Condition}

/-- **A scheduler with the states of its threads changed.** The entries show the new states, the
host may have been told, and nothing else is different. -/
structure Turned (f : Pid → ExecutionState L.Condition → ExecutionState L.Condition)
    (s s' : Scheduler L) : Prop where
  slots : ∀ p, s'.slot p = (s.slot p).turn (f p)
  rest : s' = { s with threads := s'.threads, table := s'.table, status := s'.status }

namespace Turned

theorem trans (h : Turned f s s') (h' : Turned g s' s'') : Turned (fun p => g p ∘ f p) s s'' where
  slots p := by rw [h'.slots, h.slots, Slot.turn_turn]
  rest := by
    rw [h'.rest, h.rest]

/-- Two changes that agree on the states of the active threads are the same. -/
theorem congr (h : Turned f s s') (hsame : ∀ p t, s.threads.find? p = some t →
    t.isActive = true → f p t.state = g p t.state) : Turned g s s' where
  slots p := (h.slots p).trans (Slot.turn_congr (hsame p))
  rest := h.rest

theorem find?_eq (h : Turned f s s') (p : Pid) :
    s'.threads.find? p =
      (s.threads.find? p).map fun t =>
        if t.isActive then { t with state := f p t.state } else t :=
  (congrArg Slot.thread? (h.slots p)).trans (Slot.thread?_turn (f p) (s.slot p))

/-- A thread with another state is found under the same identifier. -/
theorem pid_turn (f : Pid → ExecutionState L.Condition → ExecutionState L.Condition)
    (t : Thread L) :
    (if t.isActive then { t with state := f t.pid t.state } else t).pid = t.pid := by
  split <;> rfl

/-- The active threads are the same, one by one, up to their states. -/
theorem activeThreads_eq (h : Turned f s s') :
    s'.activeThreads = s.activeThreads.map fun t => { t with state := f t.pid t.state } := by
  have hthreads : s'.threads = s.threads.map
      (fun t => if t.isActive then { t with state := f t.pid t.state } else t) (pid_turn f) := by
    refine Roster.ext_find? fun p => ?_
    rw [Roster.find?_map, h.find?_eq]
    cases hp : s.threads.find? p with
    | none => rfl
    | some t =>
      have hpid : t.pid = p := Roster.key_of_find? hp
      rw [Option.map_some, Option.map_some, hpid]
  have hactive : ∀ t : Thread L,
      (if t.isActive then { t with state := f t.pid t.state } else t).isActive = t.isActive := by
    intro t
    split <;> rfl
  unfold activeThreads
  rw [hthreads]
  show (s.threads.members.map _).filter _ = _
  rw [List.filter_map]
  have htest : Thread.isActive ∘ (fun t : Thread L =>
      if t.isActive then { t with state := f t.pid t.state } else t) = Thread.isActive :=
    funext hactive
  rw [htest]
  refine List.map_congr_left fun t ht => if_pos (List.mem_filter.mp ht).2

theorem accord (h : Turned f s s') (hacc : s.Accord) : s'.Accord where
  positive := by
    rw [h.rest]
    exact hacc.positive
  slots p := by
    rw [h.slots]
    exact (hacc.slots p).turn (f p)

/-- Targets name the same threads. -/
theorem resolveActive_eq (h : Turned f s s') (target : Target) :
    s'.resolveActive target = s.resolveActive target := by
  unfold resolveActive
  rw [h.activeThreads_eq]
  cases target with
  | pid pid =>
    simp only [List.find?_map, Option.map_map]
    rfl
  | name name =>
    simp only [List.find?_map, Option.map_map]
    rfl
  | all =>
    simp only [List.map_map]
    rfl

/-- Changes that keep every state leave at most news behind. -/
theorem eq_of_id (h : Turned f s s') (hacc : s.Accord) (hid : ∀ p t,
    s.threads.find? p = some t → t.isActive = true → f p t.state = t.state) :
    s' = { s with status := s'.status } := by
  have hslots : ∀ p, s'.slot p = s.slot p := fun p =>
    ((h.congr (g := fun _ => id) hid).slots p).trans (hacc.slots p).turn_id
  have hthreads : s'.threads = s.threads :=
    Roster.ext_find? fun p => congrArg Slot.thread? (hslots p)
  have htable : s'.table = s.table := Roster.ext_find? fun p => congrArg Slot.listed? (hslots p)
  have hrest := h.rest
  rw [hthreads, htable] at hrest
  exact hrest

end Turned

/-! ## Pauses -/

theorem slot_changeState (s : Scheduler L) (hfind : s.threads.find? p = some t)
    (hactive : t.isActive = true) (hacc : s.Accord) (q : Pid) :
    (s.changeState change p).slot q = (s.slot q).turn (if q = p then change else id) := by
  obtain ⟨e, hentry, -⟩ :=
    entry_of_script hfind (hacc.slots p) (Thread.not_terminated_of_active hactive)
  obtain ⟨-, -, hothers, hown⟩ := changeState_spec hfind change hentry
  by_cases hq : q = p
  · subst hq
    have hthread : (s.slot q).thread? = some t := hfind
    rw [if_pos rfl, hown, Slot.turn_of_active hthread hactive, slot_of_find? hfind hentry]
    rfl
  · rw [if_neg hq, hothers q hq, (hacc.slots q).turn_id]

theorem turned_changeState (change : ExecutionState L.Condition → ExecutionState L.Condition)
    (hfind : s.threads.find? p = some t) (hactive : t.isActive = true)
    (hacc : s.Accord) :
    Turned (fun q => if q = p then change else id) s (s.changeState change p) where
  slots := slot_changeState s hfind hactive hacc
  rest := by
    unfold changeState
    rw [hfind]
    rfl

/-- The same change for many threads, one after another. -/
theorem turned_changeEach (change : ExecutionState L.Condition → ExecutionState L.Condition)
    {pids : List Pid} (hnodup : pids.Nodup)
    (hactive : ∀ p ∈ pids, ∃ t, s.threads.find? p = some t ∧ t.isActive = true) (hacc : s.Accord) :
    Turned (fun q => if q ∈ pids then change else id) s
      (pids.foldl (changeState change) s) := by
  induction pids generalizing s with
  | nil => exact ⟨fun p => (hacc.slots p).turn_id.symm, rfl⟩
  | cons p pids ih =>
    obtain ⟨hfresh, hnodup⟩ := List.nodup_cons.mp hnodup
    obtain ⟨t, hfind, hone⟩ := hactive p List.mem_cons_self
    have hfirst := turned_changeState change hfind hone hacc
    have hrest := ih (s := s.changeState change p) hnodup (fun q hq => ?_) (hfirst.accord hacc)
    · refine (hfirst.trans hrest).congr fun q _ _ _ => ?_
      by_cases hq : q = p
      · subst hq
        simp [hfresh]
      · by_cases hmem : q ∈ pids <;> simp [hq, hmem]
    · obtain ⟨t, hfind, hone⟩ := hactive q (List.mem_cons_of_mem p hq)
      have hne : q ≠ p := by
        rintro rfl
        exact hfresh hq
      exact ⟨t, (find?_changeState_of_ne change hne).trans hfind, hone⟩

/-- A target that is not all threads names one at most. -/
theorem resolveActive_single {target : Target} (h : target ≠ .all)
    (hmem : p ∈ s.resolveActive target) : s.resolveActive target = [p] := by
  have hone : ∀ p? : Option Pid, p ∈ p?.toList → p?.toList = [p] := by
    intro p? hp
    rw [Option.mem_toList] at hp
    rw [hp]
    rfl
  cases target with
  | pid pid => exact hone _ hmem
  | name name => exact hone _ hmem
  | all => exact absurd rfl h

theorem pause_of_resolved {target : Target} (h : target ≠ .all)
    (hone : s.resolveActive target = [p]) :
    s.pause target = (.ok [p], s.changeState .toggle p) := by
  unfold pause
  rw [if_neg h, hone]

/-- A pause that is carried out turns over the state of the one thread that its target names. -/
theorem pause_spec {target : Target} {pids : List Pid} (h : target ≠ .all)
    (hok : (s.pause target).1 = .ok pids) :
    ∃ t, pids = [t.pid] ∧ s.resolveActive target = [t.pid] ∧
      s.threads.find? t.pid = some t ∧ t.isActive = true := by
  cases hresolve : s.resolveActive target with
  | nil =>
    unfold pause at hok
    rw [if_neg h, hresolve] at hok
    exact absurd hok nofun
  | cons p rest =>
    have hone := resolveActive_single h (hresolve ▸ List.mem_cons_self)
    have hmem : p ∈ s.resolveActive target := hone ▸ List.mem_cons_self
    obtain ⟨t, hfind, hactive⟩ := active_of_mem_resolveActive hmem
    obtain rfl : t.pid = p := Roster.key_of_find? hfind
    rw [pause_of_resolved h hone] at hok
    exact ⟨t, (Except.ok.inj hok).symm, hresolve ▸ hone, hfind, hactive⟩

theorem status_toggle (hfind : s.threads.find? p = some t) :
    (s.changeState .toggle p).status = s.status ++ [.thread p t.name t.turnReport] := by
  have hreport : t.turnReport = if t.state.toggle.isPaused then .paused else .resumed := by
    unfold Thread.turnReport
    rw [ExecutionState.isPaused_toggle]
    cases t.state.isPaused <;> rfl
  rw [hreport]
  unfold changeState
  rw [hfind]
  rfl

/-- A change for some of the active threads is one for all if it keeps the states of the others. -/
theorem turned_of_sublist {f : ExecutionState L.Condition → ExecutionState L.Condition}
    {threads : List (Thread L)} (hacc : s.Accord) (hsub : threads.Sublist s.activeThreads)
    (hothers : ∀ t ∈ s.activeThreads, t ∉ threads → f t.state = t.state) :
    Turned (fun _ => f) s ((threads.map Thread.pid).foldl (changeState f) s) := by
  have hsome := turned_changeEach f
    ((activeThreads_nodup s).sublist (hsub.map Thread.pid)) (fun p hp => ?_) hacc
  · refine hsome.congr fun p t hfind hactive => ?_
    obtain rfl : t.pid = p := Roster.key_of_find? hfind
    by_cases hin : t.pid ∈ threads.map Thread.pid
    · rw [if_pos hin]
    · rw [if_neg hin]
      exact (hothers t (mem_activeThreads.mpr ⟨hfind, hactive⟩) fun ht =>
        hin (List.mem_map_of_mem ht)).symm
  · obtain ⟨t, ht, rfl⟩ := List.mem_map.mp hp
    exact ⟨t, mem_activeThreads.mp (hsub.subset ht)⟩

/-- Whether all active threads are paused. -/
def allPaused (s : Scheduler L) : Bool := s.activeThreads.all (·.state.isPaused)

/-- The side to which a toggle of all threads turns them. -/
def direction (s : Scheduler L) : ExecutionState L.Condition → ExecutionState L.Condition :=
  if s.allPaused then .resume else .pause

/-- A toggle of all threads turns all of them to one side. -/
theorem turned_toggleAll (hacc : s.Accord) : Turned (fun _ => s.direction) s s.toggleAll.2 := by
  unfold toggleAll direction
  simp only
  cases hrunning : s.activeThreads.filter fun t => !t.state.isPaused with
  | nil =>
    have hall : s.allPaused = true := List.all_eq_true.mpr fun t ht => by
      simpa using List.filter_eq_nil_iff.mp hrunning t ht
    have hturned := turned_of_sublist (f := .resume) hacc (List.Sublist.refl _)
      fun t ht hout => absurd ht hout
    rw [if_pos hall]
    by_cases hidle : s.activeThreads.isEmpty = true
    · rw [if_pos hidle]
      rw [List.isEmpty_iff.mp hidle] at hturned
      exact hturned
    · rw [if_neg hidle]
      exact hturned
  | cons u rest =>
    have hawake : ∀ t, t ∈ u :: rest ↔ t ∈ s.activeThreads ∧ t.state.isPaused = false := by
      intro t
      rw [← hrunning, List.mem_filter, Bool.not_eq_true']
    obtain ⟨hu, hup⟩ := (hawake u).mp List.mem_cons_self
    have hall : ¬ s.allPaused = true := by
      intro hall
      rw [List.all_eq_true.mp hall u hu] at hup
      exact absurd hup nofun
    rw [if_neg hall, if_neg (by rw [List.isEmpty_iff]; exact List.ne_nil_of_mem hu)]
    refine turned_of_sublist hacc (hrunning ▸ List.filter_sublist) fun t ht hout => ?_
    refine ExecutionState.pause_of_paused ?_
    by_contra hpaused
    exact hout ((hawake t).mpr ⟨ht, by simpa using hpaused⟩)

theorem isPaused_direction (s : Scheduler L) (state : ExecutionState L.Condition) :
    (s.direction state).isPaused = !s.allPaused := by
  unfold direction
  cases s.allPaused with
  | true => exact ExecutionState.isPaused_resume state
  | false => exact ExecutionState.isPaused_pause state

theorem wait?_direction (s : Scheduler L) (state : ExecutionState L.Condition) :
    (s.direction state).wait? = state.wait? := by
  unfold direction
  split
  · exact ExecutionState.wait?_resume state
  · exact ExecutionState.wait?_pause state

/-! ## The law -/

/-- **The law of pauses** in a state. -/
structure PausingLaw (s : Scheduler L) : Prop where
  /-- A pause of one script turns its thread over. The same pause once more is carried out as well,
  for the same thread, and takes the first one back: the host was told twice, and all else is as it
  was. -/
  undone : ∀ target pids, target ≠ .all → (s.pause target).1 = .ok pids →
    ∃ t t', pids = [t.pid] ∧ s.threads.find? t.pid = some t ∧
      t' = { t with state := t.state.toggle } ∧
      (s.pause target).2.threads.find? t.pid = some t' ∧
      (s.pause target).2.pause target = (.ok pids, { s with
        status := s.status ++
          [.thread t.pid t.name t.turnReport, .thread t.pid t.name t'.turnReport] })
  /-- Behind a toggle of all threads the same threads are active, all of them paused or none. -/
  aligned : s.activeThreads ≠ [] → ∃ pids, s.toggleAll.1 = .ok pids ∧
    s.toggleAll.2.activeThreads.map Thread.pid = s.activeThreads.map Thread.pid ∧
    ((∀ t ∈ s.toggleAll.2.activeThreads, t.state.isPaused = true) ∨
      ∀ t ∈ s.toggleAll.2.activeThreads, t.state.isPaused = false)
  /-- It changes the states of threads alone, and none loses its wait. -/
  kept : ∀ p t, s.threads.find? p = some t → ∃ state, state.wait? = t.state.wait? ∧
    s.toggleAll.2.threads.find? p = some { t with state := state }
  /-- Three toggles do what one does, up to the news. -/
  thrice : ∀ s', s' = s.toggleAll.2.toggleAll.2.toggleAll.2 → s.activeThreads ≠ [] →
    s' = { s.toggleAll.2 with status := s'.status }

/-- A second pause takes the first one back. -/
theorem Accord.pause_pause {target : Target} {pids : List Pid} (hacc : s.Accord)
    (htarget : target ≠ .all) (hok : (s.pause target).1 = .ok pids) :
    ∃ t t', pids = [t.pid] ∧ s.threads.find? t.pid = some t ∧
      t' = { t with state := t.state.toggle } ∧
      (s.pause target).2.threads.find? t.pid = some t' ∧
      (s.pause target).2.pause target = (.ok pids, { s with
        status := s.status ++
          [.thread t.pid t.name t.turnReport, .thread t.pid t.name t'.turnReport] }) := by
  obtain ⟨t, rfl, hone, hfind, hactive⟩ := pause_spec htarget hok
  have hfirst := turned_changeState .toggle hfind hactive hacc
  have hfound : (s.changeState .toggle t.pid).threads.find? t.pid =
      some { t with state := t.state.toggle } := by
    rw [hfirst.find?_eq, hfind, Option.map_some, if_pos hactive, if_pos rfl]
  have hsecond := turned_changeState .toggle hfound hactive (hfirst.accord hacc)
  refine ⟨t, _, rfl, hfind, rfl, ?_, ?_⟩
  · rw [pause_of_resolved htarget hone]
    exact hfound
  · rw [pause_of_resolved htarget hone, pause_of_resolved htarget
      ((hfirst.resolveActive_eq target).trans hone)]
    have hback := (hfirst.trans hsecond).eq_of_id hacc fun p u _ _ => by
      by_cases hp : p = t.pid
      · simp only [hp, if_true, Function.comp_apply]
        exact u.state.toggle_toggle
      · simp only [hp, if_false, Function.comp_apply, id]
    rw [status_toggle hfound, status_toggle hfind, List.append_assoc] at hback
    exact congrArg (Prod.mk _) hback

section ToggleAll

variable (hacc : s.Accord)

include hacc

/-- A toggle pauses all active threads, unless they are paused already. -/
theorem isPaused_of_toggleAll : ∀ t ∈ s.toggleAll.2.activeThreads,
    t.state.isPaused = !s.allPaused := by
  rw [(turned_toggleAll hacc).activeThreads_eq]
  exact List.forall_mem_map.mpr fun t _ => isPaused_direction s t.state

theorem pids_toggleAll :
    s.toggleAll.2.activeThreads.map Thread.pid = s.activeThreads.map Thread.pid := by
  rw [(turned_toggleAll hacc).activeThreads_eq, List.map_map]
  rfl

/-- The next toggle goes to the other side. -/
theorem allPaused_toggleAll (hsome : s.activeThreads ≠ []) :
    s.toggleAll.2.activeThreads ≠ [] ∧ s.toggleAll.2.allPaused = !s.allPaused := by
  have hpaused := isPaused_of_toggleAll hacc
  have hsome' : s.toggleAll.2.activeThreads ≠ [] := by
    intro hnone
    have hpids := pids_toggleAll hacc
    rw [hnone] at hpids
    exact hsome (List.map_eq_nil_iff.mp hpids.symm)
  refine ⟨hsome', Bool.eq_iff_iff.mpr ⟨fun hall => ?_, fun hall => ?_⟩⟩
  · obtain ⟨t, ht⟩ := List.exists_mem_of_ne_nil _ hsome'
    exact (hpaused t ht).symm.trans (List.all_eq_true.mp hall t ht)
  · exact List.all_eq_true.mpr fun t ht => (hpaused t ht).trans hall

/-- From the second time on, a toggle of all threads takes back the one before. -/
theorem toggleAll_toggleAll (hsome : s.activeThreads ≠ []) :
    s.toggleAll.2.toggleAll.2.toggleAll.2 =
      { s.toggleAll.2 with status := s.toggleAll.2.toggleAll.2.toggleAll.2.status } := by
  have hacc₁ := (turned_toggleAll hacc).accord hacc
  have hacc₂ := (turned_toggleAll hacc₁).accord hacc₁
  obtain ⟨hsome₁, hpaused₁⟩ := allPaused_toggleAll hacc hsome
  obtain ⟨-, hpaused₂⟩ := allPaused_toggleAll hacc₁ hsome₁
  refine ((turned_toggleAll hacc₁).trans (turned_toggleAll hacc₂)).eq_of_id hacc₁ ?_
  intro p t hfind hactive
  have hpid : t.pid = p := Roster.key_of_find? hfind
  have hside := isPaused_of_toggleAll hacc t (mem_activeThreads.mpr ⟨hpid ▸ hfind, hactive⟩)
  show s.toggleAll.2.toggleAll.2.direction (s.toggleAll.2.direction t.state) = t.state
  unfold direction
  rw [hpaused₂, hpaused₁]
  cases hall : s.allPaused with
  | true =>
    rw [hall] at hside
    exact ExecutionState.resume_pause hside
  | false =>
    rw [hall] at hside
    exact ExecutionState.pause_resume hside

theorem pausingLaw : s.PausingLaw := by
  have hturned := turned_toggleAll hacc
  refine ⟨fun target pids => hacc.pause_pause, fun hsome => ?_, fun p t hfind => ?_, ?_⟩
  · have hok : ∃ pids, s.toggleAll.1 = .ok pids := by
      unfold toggleAll
      simp only
      rw [if_neg (by simpa using hsome)]
      split <;> exact ⟨_, rfl⟩
    obtain ⟨pids, hok⟩ := hok
    refine ⟨pids, hok, pids_toggleAll hacc, ?_⟩
    have hside := isPaused_of_toggleAll hacc
    cases hall : s.allPaused with
    | true =>
      rw [hall] at hside
      exact .inr hside
    | false =>
      rw [hall] at hside
      exact .inl hside
  · refine ⟨if t.isActive then s.direction t.state else t.state, ?_, ?_⟩
    · split
      · exact wait?_direction s t.state
      · rfl
    · rw [hturned.find?_eq, hfind, Option.map_some]
      split <;> rfl
  · rintro s' rfl hsome
    exact toggleAll_toggleAll hacc hsome

end ToggleAll

end Scheduler

/-- **The law of pauses holds in every state that a scheduler gets into**, whatever the host does
and whatever the scripts do, and also between the moves of an operation. -/
theorem pausing_law_of_create (options : SchedulerOptions) (library : ScriptLibrary)
    (searchPath : List ScriptPath) (world : L.World) (start : Millis) (clock : Clock)
    (ops : List (Millis × Operation L)) :
    let s₀ := Scheduler.create (L := L) options library searchPath world start clock
    (performAll ops s₀).PausingLaw ∧ ∀ n, (moment ops s₀ n).PausingLaw := by
  intro s₀
  have hacc : s₀.Accord := Scheduler.accord_create options library searchPath world start clock
  exact ⟨Scheduler.pausingLaw ((path_history ops s₀).accord hacc),
    fun n => Scheduler.pausingLaw (accord_moment hacc n)⟩

end Heartbeat

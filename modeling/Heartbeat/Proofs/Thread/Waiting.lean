import Heartbeat.Proofs.Thread.Service

/-!
# Waits in the life of a thread

A wait is on from the step that enters it until a look finds its condition to hold, or its time is
over if it has none. Pauses only interrupt it. The step behind it comes after that look.

* `Life.Waits`, `Life.Woken`: a life in a wait, and one that has left it.
* `Run.wait`: a life without a step is still in the wait, or has left it at a time when it may.
* `Run.keeps`: what does not end a wait keeps it as it is.
* `Run.looked_origin`: every look belongs to the wait that the last step entered.
* `Life.Honoured`, `Run.honoured`: what comes behind the step that entered a wait.
* `value_of_broke`, `resumed_iff`: the same for the service of a waiting thread.
* `poll_law`: a condition is evaluated iff a look is logged.
-/

namespace Heartbeat

variable {L : Language}

/-- Whether an act is a step of the script. -/
def Act.isStep : Act L → Bool
  | .did (.stepped _) => true
  | _ => false

/-- Whether the code of a thread does something in an act. -/
def Act.isDeed : Act L → Bool
  | .did _ => true
  | _ => false

/-- Whether a thread that waits still does so behind an act. -/
def Act.keepsWait : Act L → Bool
  | .did (.answered _) | .did (.looked _ (.known false)) | .heard _ _ | .paused | .resumed => true
  | _ => false

namespace Life

variable {now : Millis} {life life' : Life L.Condition} {act : Act L}
  {acts : List (Millis × Act L)} {w : Wait L.Condition}

/-- A wait is on, or a pause interrupts it. -/
inductive Waits (w : Wait L.Condition) : Life L.Condition → Prop
  | delayed : Waits w (.awake (.delayed w))
  | paused : Waits w (.awake (.paused (some w)))

/-- No wait is on, and none was interrupted. -/
inductive Woken : Life L.Condition → Prop
  | running : Woken (.awake .running)
  | paused : Woken (.awake (.paused none))
  | finished : Woken .finished

/-- An act ends a wait at a time when it may: the condition was just found to hold, if there is
one. -/
def Wakes (w : Wait L.Condition) (now : Millis) (act : Act L) : Prop :=
  w.deadline ≤ now ∧ act.isDeed = true ∧
    ∀ c, w.condition? = some c → act = .did (.looked c (.known true))

/-- A wait is kept, or is over, or ends with the thread. -/
theorem Waits.step (h : Waits w life) (hstep : Step now life act life') :
    (Waits w life' ∧ act.keepsWait = true) ∨
      (act.keepsWait = false ∧
        (life' = .finished ∨ life' = .awake .running ∧ Wakes w now act)) := by
  cases h with
  | delayed =>
    cases hstep with
    | answered entry hawake => exact .inl ⟨.delayed, rfl⟩
    | refused hdue hcond => exact .inl ⟨.delayed, rfl⟩
    | held hdue hcond =>
      refine .inr ⟨rfl, .inr ⟨rfl, hdue, rfl, fun c hc => ?_⟩⟩
      rw [Option.some.inj (hcond.symm.trans hc)]
    | broke text? hdue hcond => exact .inr ⟨rfl, .inl rfl⟩
    | elapsed hdue hcond =>
      refine .inr ⟨rfl, .inr ⟨rfl, hdue, rfl, fun c hc => ?_⟩⟩
      exact absurd (hcond.symm.trans hc) nofun
    | heard line count hawake => exact .inl ⟨.delayed, rfl⟩
    | paused hawake => exact .inl ⟨.paused, rfl⟩
    | resumed hpaused => exact absurd hpaused nofun
    | marked => exact .inr ⟨rfl, .inl rfl⟩
  | paused =>
    cases hstep with
    | answered entry hawake => exact absurd hawake nofun
    | heard line count hawake => exact absurd hawake nofun
    | paused hawake => exact absurd hawake nofun
    | resumed hpaused => exact .inl ⟨.delayed, rfl⟩
    | marked => exact .inr ⟨rfl, .inl rfl⟩

/-- Only a step enters a wait. -/
theorem Woken.step (h : Woken life) (hstep : Step now life act life') (hno : act.isStep = false) :
    Woken life' := by
  cases h with
  | running =>
    cases hstep with
    | answered entry hawake => exact .running
    | proceeded => exact absurd hno nofun
    | waited millis condition? => exact absurd hno nofun
    | ended hlast => exact absurd hno nofun
    | heard line count hawake => exact .running
    | paused hawake => exact .paused
    | resumed hpaused => exact .running
    | marked => exact .finished
  | paused =>
    cases hstep with
    | answered entry hawake => exact absurd hawake nofun
    | heard line count hawake => exact absurd hawake nofun
    | paused hawake => exact .paused
    | resumed hpaused => exact .running
    | marked => exact .finished
  | finished =>
    cases hstep with
    | reaped => exact .finished

/-- A wait is entered by a step that asks for it, and by nothing else. -/
theorem Waits.origin (h : Waits w life') (hstep : Step now life act life') :
    (Waits w life ∧ act.isStep = false) ∨
      ∃ millis condition?, act = .did (.stepped (.wait millis condition?)) ∧
        w = ⟨Millis.after now millis, condition?⟩ := by
  cases hstep with
  | waited millis condition? =>
    cases h
    exact .inr ⟨millis, condition?, rfl, rfl⟩
  | answered entry hawake => exact .inl ⟨h, rfl⟩
  | refused hdue hcond => exact .inl ⟨h, rfl⟩
  | heard line count hawake => exact .inl ⟨h, rfl⟩
  | @paused state hawake =>
    cases state with
    | running => exact absurd h nofun
    | delayed wait =>
      cases h
      exact .inl ⟨.delayed, rfl⟩
    | paused saved? => exact absurd hawake nofun
  | @resumed state hpaused =>
    cases state with
    | running => exact absurd hpaused nofun
    | delayed wait => exact absurd hpaused nofun
    | paused saved? =>
      cases saved? with
      | none => exact absurd h nofun
      | some wait =>
        cases h
        exact .inl ⟨.paused, rfl⟩
  | started => exact absurd h nofun
  | held hdue hcond => exact absurd h nofun
  | broke text? hdue hcond => exact absurd h nofun
  | elapsed hdue hcond => exact absurd h nofun
  | proceeded => exact absurd h nofun
  | ended hlast => exact absurd h nofun
  | marked => exact absurd h nofun
  | reaped => exact absurd h nofun

namespace Run

theorem woken (h : Run life acts life') (hwoken : Woken life)
    (hno : ∀ x ∈ acts, x.2.isStep = false) : Woken life' := by
  induction h with
  | nil => exact hwoken
  | cons hstep _ ih =>
    rw [List.forall_mem_cons] at hno
    exact ih (hwoken.step hstep hno.1) hno.2

/-- **A life without a step is still in its wait, or has left it at a time when it may.** -/
theorem wait (h : Run life acts life') (hwaits : Waits w life)
    (hno : ∀ x ∈ acts, x.2.isStep = false) :
    (Waits w life' ∧ ∀ x ∈ acts, x.2.keepsWait = true) ∨
      (Woken life' ∧ (life' = .finished ∨ ∃ x ∈ acts, Wakes w x.1 x.2)) := by
  induction h with
  | nil => exact .inl ⟨hwaits, fun _ hx => absurd hx List.not_mem_nil⟩
  | @cons life mid life' now act acts hstep hrest ih =>
    rw [List.forall_mem_cons] at hno
    rcases hwaits.step hstep with ⟨hmid, hkeeps⟩ | ⟨-, hover | ⟨hrunning, hwakes⟩⟩
    · rcases ih hmid hno.2 with ⟨hlast, hall⟩ | ⟨hlast, hover | ⟨x, hx, hwakes⟩⟩
      · exact .inl ⟨hlast, List.forall_mem_cons.mpr ⟨hkeeps, hall⟩⟩
      · exact .inr ⟨hlast, .inl hover⟩
      · exact .inr ⟨hlast, .inr ⟨x, List.mem_cons_of_mem _ hx, hwakes⟩⟩
    · subst hover
      rw [hrest.over_stays]
      exact .inr ⟨.finished, .inl rfl⟩
    · subst hrunning
      exact .inr ⟨hrest.woken .running hno.2, .inr ⟨(now, act), List.mem_cons_self, hwakes⟩⟩

/-- **What does not end a wait keeps it as it is.** -/
theorem keeps (h : Run life acts life') (hwaits : Waits w life)
    (hkeeps : ∀ x ∈ acts, x.2.keepsWait = true) : Waits w life' := by
  induction h with
  | nil => exact hwaits
  | cons hstep _ ih =>
    rw [List.forall_mem_cons] at hkeeps
    rcases hwaits.step hstep with ⟨hmid, -⟩ | ⟨hends, -⟩
    · exact ih hmid hkeeps.2
    · exact absurd (hkeeps.1.symm.trans hends) nofun

/-- A wait that is on was on at the start, or the last step entered it. -/
theorem origin (h : Run life acts life') (hwaits : Waits w life') :
    (Waits w life ∧ ∀ x ∈ acts, x.2.isStep = false) ∨
      ∃ before time millis condition? mid,
        acts = before ++ (time, .did (.stepped (.wait millis condition?))) :: mid ∧
          w = ⟨Millis.after time millis, condition?⟩ ∧ ∀ x ∈ mid, x.2.isStep = false := by
  induction h with
  | nil => exact .inl ⟨hwaits, fun _ hx => absurd hx List.not_mem_nil⟩
  | @cons life mid life' now act acts hstep hrest ih =>
    rcases ih hwaits with
      ⟨hmid, hno⟩ | ⟨before, time, millis, condition?, after, rfl, hw, hno⟩
    · rcases hmid.origin hstep with ⟨hlife, hact⟩ | ⟨millis, condition?, rfl, hw⟩
      · exact .inl ⟨hlife, List.forall_mem_cons.mpr ⟨hact, hno⟩⟩
      · exact .inr ⟨[], now, millis, condition?, acts, rfl, hw, hno⟩
    · exact .inr ⟨(now, act) :: before, time, millis, condition?, after, rfl, hw, hno⟩

/-- A condition is looked at only in the wait that the last step entered. -/
theorem looked_origin {before after : List (Millis × Act L)} {time : Millis} {c : L.Condition}
    {verdict : Verdict}
    (h : Run .unborn (before ++ (time, .did (.looked c verdict)) :: after) life) :
    ∃ earlier entered millis mid,
      before = earlier ++ (entered, .did (.stepped (.wait millis (some c)))) :: mid ∧
        ∀ x ∈ mid, x.2.isStep = false := by
  obtain ⟨life₁, hbefore, hrest⟩ := h.split
  have hwaits : ∃ w, Waits w life₁ ∧ w.condition? = some c := by
    cases hrest with
    | cons hstep _ =>
      cases hstep with
      | refused hdue hcond => exact ⟨_, .delayed, hcond⟩
      | held hdue hcond => exact ⟨_, .delayed, hcond⟩
      | broke text? hdue hcond => exact ⟨_, .delayed, hcond⟩
  obtain ⟨w, hwaits, hcond⟩ := hwaits
  rcases hbefore.origin hwaits with
    ⟨hunborn, -⟩ | ⟨earlier, entered, millis, condition?, mid, rfl, rfl, hno⟩
  · exact absurd hunborn nofun
  · obtain rfl : condition? = some c := hcond
    exact ⟨earlier, entered, millis, mid, rfl, hno⟩

/-- A step that waits enters a wait. -/
theorem entered {before after : List (Millis × Act L)} {time millis : Millis}
    {condition? : Option L.Condition}
    (h : Run life (before ++ (time, .did (.stepped (.wait millis condition?))) :: after) life') :
    Run (.awake (.delayed ⟨Millis.after time millis, condition?⟩)) after life' := by
  obtain ⟨mid, -, hrest⟩ := h.split
  cases hrest with
  | cons hstep hafter =>
    cases hstep with
    | waited => exact hafter
    | ended hlast => exact absurd hlast nofun

/-- A paused thread that is not paused any more was resumed. -/
theorem resumed_mem {state state' : ExecutionState L.Condition}
    (h : Run (.awake state) acts (.awake state')) (hpaused : state.isPaused = true)
    (hawake : state'.isPaused = false) : ∃ x ∈ acts, x.2 = .resumed := by
  cases h with
  | nil =>
    rw [hpaused] at hawake
    exact absurd hawake nofun
  | cons hstep hrest =>
    have hno : ∀ {state : ExecutionState L.Condition} {wait : Wait L.Condition},
        state.isPaused = true → state ≠ .running ∧ state ≠ .delayed wait := by
      rintro state wait hstate
      constructor <;> rintro rfl <;> exact absurd hstate nofun
    cases hstep with
    | resumed _ => exact ⟨_, List.mem_cons_self, rfl⟩
    | marked => exact absurd hrest.over_stays nofun
    | answered entry hnot => exact absurd (hpaused.symm.trans hnot) nofun
    | heard line count hnot => exact absurd (hpaused.symm.trans hnot) nofun
    | paused hnot => exact absurd (hpaused.symm.trans hnot) nofun
    | refused hdue hcond => exact absurd hpaused nofun
    | held hdue hcond => exact absurd hpaused nofun
    | broke text? hdue hcond => exact absurd hpaused nofun
    | elapsed hdue hcond => exact absurd hpaused nofun
    | proceeded => exact absurd hpaused nofun
    | waited millis condition? => exact absurd hpaused nofun
    | ended hlast => exact absurd hpaused nofun

end Run

/-- **A wait is honoured** by what happens behind the step that entered it. -/
structure Honoured (w : Wait L.Condition) (after : List (Millis × Act L)) : Prop where
  /-- The next step is not made before the deadline, and only behind a look, not before the deadline
  either, that found the condition to hold. -/
  stepped : ∀ mid now ending rest, after = mid ++ (now, .did (.stepped ending)) :: rest →
    (∀ x ∈ mid, x.2.isStep = false) →
      w.deadline ≤ now ∧ ∀ c, w.condition? = some c →
        ∃ time, w.deadline ≤ time ∧ time ≤ now ∧ (time, .did (.looked c (.known true))) ∈ mid
  /-- Until the next step only the condition of the wait is looked at, not before the deadline, not
  while the thread is paused, and only as long as all looks find it not to hold. -/
  looked : ∀ mid now c verdict rest, after = mid ++ (now, .did (.looked c verdict)) :: rest →
    (∀ x ∈ mid, x.2.isStep = false) →
      w.condition? = some c ∧ w.deadline ≤ now ∧
      (∀ x ∈ mid, ∀ c' verdict', x.2 = .did (.looked c' verdict') → verdict' = .known false) ∧
      ∀ earlier time later, mid = earlier ++ (time, .paused) :: later →
        ∃ x ∈ later, x.2 = .resumed
  /-- Behind a look that breaks down nothing is done any more. -/
  broke : ∀ mid now c text? rest,
    after = mid ++ (now, .did (.looked c (.panicked text?))) :: rest →
      ∀ x ∈ rest, x.2.isBusy = false

/-- A life honours the wait that it is in, if the clock does not go back between its deeds. -/
theorem Run.honoured {after : List (Millis × Act L)} (h : Run (.awake (.delayed w)) after life)
    (hclock : (after.filter (·.2.isDeed)).Pairwise (·.1 ≤ ·.1)) : Honoured w after := by
  refine ⟨?_, ?_, ?_⟩
  · rintro mid now ending rest rfl hno
    obtain ⟨life₁, hmid, hrest⟩ := h.split
    have hrunning : life₁ = .awake .running := by
      cases hrest with
      | cons hstep _ => cases hstep <;> rfl
    rcases hmid.wait .delayed hno with ⟨hwaits, -⟩ | ⟨-, hover | ⟨x, hx, hdue, hdeed, hheld⟩⟩
    · rw [hrunning] at hwaits
      exact absurd hwaits nofun
    · rw [hrunning] at hover
      exact absurd hover nofun
    · have horder : x.1 ≤ now := by
        rw [List.filter_append] at hclock
        exact (List.pairwise_append.mp hclock).2.2 x (List.mem_filter.mpr ⟨hx, hdeed⟩) (now, _)
          (List.mem_filter.mpr ⟨List.mem_cons_self, rfl⟩)
      refine ⟨Nat.le_trans hdue horder, fun c hc => ⟨x.1, hdue, horder, ?_⟩⟩
      rw [← hheld c hc]
      exact hx
  · rintro mid now c verdict rest rfl hno
    obtain ⟨life₁, hmid, hrest⟩ := h.split
    have hwaiting : ∃ w', life₁ = .awake (.delayed w') ∧ w'.deadline ≤ now ∧
        w'.condition? = some c := by
      cases hrest with
      | cons hstep _ =>
        cases hstep with
        | refused hdue hcond => exact ⟨_, rfl, hdue, hcond⟩
        | held hdue hcond => exact ⟨_, rfl, hdue, hcond⟩
        | broke text? hdue hcond => exact ⟨_, rfl, hdue, hcond⟩
    obtain ⟨w', rfl, hdue, hcond⟩ := hwaiting
    rcases hmid.wait .delayed hno with ⟨hwaits, hkeeps⟩ | ⟨hwoken, -⟩
    · obtain rfl : w' = w := by
        cases hwaits
        rfl
      refine ⟨hcond, hdue, fun x hx c' verdict' hact => ?_, ?_⟩
      · have hkept := hkeeps x hx
        rw [hact] at hkept
        cases verdict' with
        | panicked text? => exact absurd hkept nofun
        | known holds =>
          cases holds with
          | true => exact absurd hkept nofun
          | false => rfl
      · rintro earlier time later rfl
        obtain ⟨life₂, -, hpause⟩ := hmid.split
        cases hpause with
        | cons hstep hlater =>
          cases hstep with
          | paused hawake => exact hlater.resumed_mem (ExecutionState.isPaused_pause _) rfl
    · exact absurd hwoken nofun
  · rintro mid now c text? rest rfl
    obtain ⟨life₁, -, hrest⟩ := h.split
    cases hrest with
    | cons hstep hrest =>
      cases hstep with
      | broke text? hdue hcond =>
        intro x hx
        rw [hrest.over_idle x hx]
        rfl

end Life

/-! ## The service of a waiting thread -/

namespace Thread

variable {t : Thread L} {now : Millis} {world : L.World}

theorem looked_not_mem_openingDeeds {turbo : Nat} {dispatchFirst : Bool} {c : L.Condition}
    {verdict : Verdict} :
    .looked c verdict ∉ t.openingDeeds turbo dispatchFirst now world := by
  unfold openingDeeds dispatchDeeds
  intro h
  split at h
  · split at h
    · exact List.not_mem_nil h
    · split at h
      · exact List.not_mem_nil h
      · obtain ⟨entry, -, hentry⟩ := List.mem_map.mp h
        exact absurd hentry nofun
  · exact List.not_mem_nil h

theorem looked_not_mem_afterPollDeeds {answer : Except Fault Bool} {c : L.Condition}
    {verdict : Verdict} : .looked c verdict ∉ afterPollDeeds now answer t world := by
  unfold afterPollDeeds resumeDeeds
  intro h
  split at h
  · split at h
    · exact List.not_mem_nil h
    · obtain ⟨ending, -, hending⟩ := List.mem_map.mp h
      exact absurd hending nofun
  · exact List.not_mem_nil h

/-- A service in which a condition breaks down reports it as the end of the script. -/
theorem value_of_broke {turbo : Nat} {dispatchFirst : Bool} {c : L.Condition}
    {text? : Option String} (hactive : t.isActive = true)
    (h : .looked c (.panicked text?) ∈ t.serviceDeeds turbo dispatchFirst now world) :
    (t.service turbo dispatchFirst now world).value =
      .resumed (.finished (.errored (.ofCondition text?))) := by
  obtain ⟨deeds, a, hp, hservice, hdeeds⟩ := serviced hactive turbo dispatchFirst now world
  rw [hdeeds, List.mem_append, List.mem_append] at h
  have hlooked := (h.resolve_right looked_not_mem_afterPollDeeds).resolve_left
    looked_not_mem_openingDeeds
  rw [hservice]
  cases hp with
  | broke hs hdue hcond heval =>
    obtain ⟨-, hverdict⟩ := Deed.looked.inj (List.mem_singleton.mp hlooked)
    rw [Verdict.panicked.inj hverdict]
    rfl
  | held hs hdue hcond heval => exact absurd (List.mem_singleton.mp hlooked) nofun
  | refused hs hdue hcond heval => exact absurd (List.mem_singleton.mp hlooked) nofun
  | elapsed hs hdue hcond => exact absurd (List.mem_singleton.mp hlooked) nofun
  | running hs => exact absurd hlooked List.not_mem_nil
  | paused hs => exact absurd hlooked List.not_mem_nil
  | early hs hlt => exact absurd hlooked List.not_mem_nil

/-- **What a poll does with a condition is logged**: it is evaluated iff a look is logged, and then
the look tells the verdict. A poll without a look changes nothing but the state of its thread. -/
structure PollLaw (t : Thread L) (now : Millis) (world : L.World) : Prop where
  looked : ∀ c verdict, .looked c verdict ∈ t.pollDeeds now world →
    L.evaluate c (t.memory, world) =
      (verdict, (t.poll now world).thread.memory, (t.poll now world).world)
  unlooked : (∀ c verdict, .looked c verdict ∉ t.pollDeeds now world) →
    (t.poll now world).thread = { t with state := (t.poll now world).thread.state } ∧
      (t.poll now world).world = world

theorem poll_law (h : t.isActive = true) (now : Millis) (world : L.World) :
    t.PollLaw now world := by
  have hlook : ∀ {c c' : L.Condition} {verdict verdict' : Verdict} {after : L.Memory × L.World},
      L.evaluate c (t.memory, world) = (verdict, after) →
        .looked c' verdict' ∈ [Deed.looked (L := L) c verdict] →
          L.evaluate c' (t.memory, world) = (verdict', after) := by
    intro c c' verdict verdict' after heval hmem
    obtain ⟨rfl, rfl⟩ := Deed.looked.inj (List.mem_singleton.mp hmem)
    exact heval
  have hp := polled h now world
  generalize hdeeds : t.pollDeeds now world = deeds at hp
  generalize ha : t.poll now world = a at hp
  constructor
  · intro c verdict hmem
    rw [hdeeds] at hmem
    rw [ha]
    cases hp with
    | running | paused | early => exact absurd hmem List.not_mem_nil
    | elapsed => exact absurd (List.mem_singleton.mp hmem) nofun
    | held hs hdue hcond heval => exact hlook heval hmem
    | refused hs hdue hcond heval => exact hlook heval hmem
    | broke hs hdue hcond heval => exact hlook heval hmem
  · intro hno
    rw [hdeeds] at hno
    rw [ha]
    cases hp with
    | running | paused | early | elapsed => exact ⟨rfl, rfl⟩
    | held | refused | broke => exact absurd List.mem_cons_self (hno _ _)

/-- The looks of a service are those of its poll. -/
theorem looked_mem_serviceDeeds {turbo : Nat} {dispatchFirst : Bool} {c : L.Condition}
    {verdict : Verdict} :
    .looked c verdict ∈ t.serviceDeeds turbo dispatchFirst now world ↔
      .looked c verdict ∈ (t.opening turbo dispatchFirst now world).thread.pollDeeds now
        (t.opening turbo dispatchFirst now world).world := by
  unfold serviceDeeds
  simp only [List.mem_append, looked_not_mem_openingDeeds, looked_not_mem_afterPollDeeds, false_or,
    or_false]

theorem afterPoll_ne_notEligible (t : Thread L) (now : Millis) (world : L.World) :
    (t.afterPoll now (.ok true) world).value ≠ .notEligible := by
  unfold afterPoll
  simp only
  split <;> exact nofun

/-- **A waiting thread whose time has come is resumed iff its condition does not refuse**, looked at
behind the callbacks of this service: it is absent, or holds, or breaks down. -/
theorem resumed_iff {w : Wait L.Condition} (hactive : t.isActive = true)
    (hstate : t.state = .delayed w) (hdue : w.deadline ≤ now) (turbo : Nat) (dispatchFirst : Bool) :
    (t.service turbo dispatchFirst now world).value ≠ .notEligible ↔
      ∀ c, w.condition? = some c →
        (L.evaluate c ((t.opening turbo dispatchFirst now world).thread.memory,
          (t.opening turbo dispatchFirst now world).world)).1 ≠ .known false := by
  obtain ⟨hsame, -⟩ := opening_state hactive turbo dispatchFirst now world
  rw [hstate] at hsame
  have hwait : ∀ {w' : Wait L.Condition},
      (t.opening turbo dispatchFirst now world).thread.state = .delayed w' → w' = w := fun hs =>
    ExecutionState.delayed.inj (hs.symm.trans hsame)
  obtain ⟨deeds, a, hp, hservice, -⟩ := serviced hactive turbo dispatchFirst now world
  rw [hservice]
  cases hp with
  | running hs => exact absurd (hs.symm.trans hsame) nofun
  | paused hs =>
    rw [hsame] at hs
    exact absurd hs nofun
  | early hs hlt =>
    rw [hwait hs] at hlt
    exact absurd hdue (Nat.not_le_of_lt hlt)
  | elapsed hs _ hcond =>
    rw [hwait hs] at hcond
    refine iff_of_true (afterPoll_ne_notEligible _ now _) fun c hc => ?_
    exact absurd (hcond.symm.trans hc) nofun
  | held hs _ hcond heval =>
    rw [hwait hs] at hcond
    refine iff_of_true (afterPoll_ne_notEligible _ now _) fun c hc => ?_
    rw [← Option.some.inj (hcond.symm.trans hc), heval]
    exact nofun
  | refused hs _ hcond heval =>
    rw [hwait hs] at hcond
    refine iff_of_false (fun h => h rfl) fun h => ?_
    have hverdict := h _ hcond
    rw [heval] at hverdict
    exact hverdict rfl
  | broke hs _ hcond heval =>
    rw [hwait hs] at hcond
    refine iff_of_true nofun fun c hc => ?_
    rw [← Option.some.inj (hcond.symm.trans hc), heval]
    exact nofun

end Thread

end Heartbeat

import Heartbeat.Proofs.Scheduler.Evolution
import Heartbeat.Proofs.Scheduler.Start
import Heartbeat.Proofs.StepScript.Code

/-!
# Scripts that do not notice each other

A script that shares a scheduler with others, none of which leaves the world or a request behind, is
in the same state as in a run in which it is the only script. The two runs are compared view by
view: an operation that is aimed at another script, and the start of another script under another
label, leave the view of the script alone, and any other operation makes the same of it in both.

* `Operation.Apart`, `concerning`: the operations of the shared run, and those of them that are left
  in the run alone.
* `Parallel.performAll`: two runs that are the same to a script stay so.
* `Indistinct`: what there is to see of a script.
* `isolation`: the script is the same in both runs, from before its start on.
-/

namespace Heartbeat

variable {L : Language} {now : Millis} {tame : L.Script → Prop} {p : Pid}

/-! ## What stays in a view -/

namespace View

variable {v v' : View L}

/-- The path of the entry, if there is one, is among some. -/
def Bears (paths : String → Prop) (v : View L) : Prop := ∀ e ∈ v.listed?, paths e.path

namespace Bears

variable {paths : String → Prop} (h : v.Bears paths)

include h

theorem filter {keep : ProcessEntry → Bool} (hkept : v'.listed? = v.listed?.filter keep) :
    v'.Bears paths := by
  intro e he
  rw [hkept] at he
  exact h e (Option.filter_eq_some_iff.mp he).1

theorem close (now : Millis) (outcome : ThreadOutcome) : (v.close now outcome).Bears paths := by
  unfold View.close
  split
  · exact h
  · rename_i e hlisted
    intro e' he'
    obtain rfl : outcome.close now e = e' := Option.some.inj he'
    rw [(outcome.sameRun_close e).path]
    exact h e hlisted

theorem serve (now : Millis) (world : L.World) : (v.serve now world).Bears paths := by
  unfold View.serve
  split
  · exact h
  · unfold View.record
    simp only
    split
    · refine Bears.close ?_ now _
      exact h
    · exact h

theorem service (now : Millis) (world : L.World) : (v.service now world).Bears paths := by
  unfold View.service
  split
  · exact h.serve now world
  · exact h

theorem sweep (now : Millis) : (v.sweep now).Bears paths := by
  unfold View.sweep View.reap
  split
  · split
    · exact h
    · simp only
      split
      · exact h
      · refine Bears.close ?_ now _
        exact h
  · exact h

theorem collectIfDue (now : Millis) : (v.collectIfDue now).Bears paths := by
  unfold View.collectIfDue
  split
  · exact h
  · split
    · exact h
    · exact h.filter rfl

/-- An operation leaves the path of an entry as it is, and makes no entry. -/
theorem perform (now : Millis) (world : L.World) (op : Operation L) :
    (v.perform now world op).Bears paths := by
  unfold View.perform
  split
  · exact ((h.service now world).sweep now).collectIfDue now
  · exact h
  · exact h
  · exact h
  · split
    · unfold View.abandon
      split <;> exact h
    · exact h
  · split
    · unfold View.changeState
      split
      · exact h
      · intro e he
        obtain ⟨e', he', rfl⟩ := Option.map_eq_some_iff.mp he
        exact h e' he'
    · exact h
  · exact h

end Bears

namespace IsTame

variable (ht : v.IsTame tame)

include ht

theorem sweep (now : Millis) : (v.sweep now).IsTame tame := by
  unfold View.sweep
  split
  · exact isTame_reap v now
  · exact ht

theorem collectIfDue (now : Millis) : (v.collectIfDue now).IsTame tame := by
  unfold View.collectIfDue
  split
  · exact ht
  · split <;> exact ht

/-- An operation keeps a script tame. -/
theorem perform (h : L.IsInsular (fun _ => False) tame) (now : Millis) (world : L.World)
    (op : Operation L) : (v.perform now world op).IsTame tame := by
  unfold View.perform
  split
  · exact ((ht.service h now world).sweep now).collectIfDue now
  · rename_i line
    refine ht.of_map (f := fun t => (t.feed line).2) rfl fun t => ?_
    unfold Thread.feed
    split <;> rfl
  · exact ht
  · exact ht
  · split
    · exact ht.abandon
    · exact ht
  · split
    · exact ht.changeState _
    · exact ht
  · exact ht

end IsTame

end View

/-! ## Starts -/

namespace Scheduler

variable {s s' : Scheduler L} {name path : String} {script : L.Script} {args : List String}

/-- What the start of a script makes of a scheduler: the new script gets its first service, and the
finished entries of its path are gone. -/
structure Launched (now : Millis) (name path : String) (script : L.Script) (args : List String)
    (s s' : Scheduler L) : Prop where
  view : ∀ q, s'.view q =
    if q = s.nextPid then ((s.view q).enroll now name path script args).service now s.world
    else (s.view q).forget path
  world : s'.world = s.world
  nextPid : s'.nextPid = s.nextPid + 1

/-- The launch of a tame script. -/
theorem launched (h : L.IsInsular (fun _ => False) tame) (ht : s.IsTame tame)
    (hscript : tame script) (now : Millis) (name path : String) (args : List String) :
    Launched now name path script args s (service spawn now s.nextPid
      ((s.forgetFinished path).enroll now name path script args)).2 := by
  have hserved := (evolves_service h (isTame_enroll ht hscript now name path args) now
    s.nextPid).2
  refine ⟨fun q => ?_, hserved.world, hserved.nextPid⟩
  rw [hserved.view, view_enroll]
  by_cases hq : q = s.nextPid
  · rw [if_pos hq, if_pos hq, if_pos hq]
    rfl
  · rw [if_neg hq, if_neg hq, if_neg hq]

end Scheduler

/-! ## Two runs -/

namespace Operation

/-- Whether an operation of the shared run is left in the run alone: the starts of others and what
is aimed at others are not. -/
def concerns (p : Pid) : Operation L → Bool
  | .startScript _ _ _ _ => false
  | .stop (.pid q) | .pause (.pid q) => q == p
  | _ => true

/-- An operation that may go on beside a script of a label: a plain one, or the start of a tame
script under another label. -/
def Apart (tame : L.Script → Prop) (label : String) : Operation L → Prop
  | .startScript _ other script _ => tame script ∧ other ≠ label
  | op => op.IsPlain

end Operation

/-- The operations that are left for a script when it is alone. -/
def concerning (p : Pid) (ops : List (Millis × Operation L)) : List (Millis × Operation L) :=
  ops.filter (·.2.concerns p)

/-- What is aimed at another script leaves a view alone. -/
theorem View.perform_of_not_concerns {v : View L} {op : Operation L} (hop : op.IsPlain)
    (hother : op.concerns v.pid = false) (now : Millis) (world : L.World) :
    v.perform now world op = v := by
  cases op with
  | stop target =>
    cases target with
    | pid q => exact if_neg fun h => beq_eq_false_iff_ne.mp hother h.1.symm
    | _ => exact absurd hop id
  | pause target =>
    cases target with
    | pid q => exact if_neg fun h => beq_eq_false_iff_ne.mp hother h.1.symm
    | _ => exact absurd hop id
  | tick | feed | setTurbo | drainStatus => exact absurd hother nofun
  | _ => exact absurd hop id

/-- The finished entries of another path are none of the script's. -/
theorem View.Bears.forget_of_ne {v : View L} {label path : String} (h : v.Bears (· = label))
    (hpath : path ≠ label) : v.forget path = v := by
  have hkept : (v.listed?.filter fun e => !(e.path == path && !e.isLive)) = v.listed? := by
    cases hlisted : v.listed? with
    | none => rfl
    | some e =>
      have hother : (e.path == path) = false :=
        beq_eq_false_iff_ne.mpr fun heq => hpath (heq.symm.trans (h e hlisted))
      rw [Option.filter_some, if_pos (by rw [hother]; rfl)]
  unfold forget
  rw [hkept]

/-- Two schedulers of tame scripts that are the same to a script, which has an entry of no other
path than its label. -/
structure Parallel (tame : L.Script → Prop) (label : String) (p : Pid) (s s' : Scheduler L) :
    Prop where
  view : s.view p = s'.view p
  world : s.world = s'.world
  plays : s.IsTame tame
  plays' : s'.IsTame tame
  bears : (s.view p).Bears (· = label)

namespace Parallel

open Scheduler

variable {label : String} {s s' t t' : Scheduler L} {op : Operation L}
  (h : L.IsInsular (fun _ => False) tame)

include h

/-- A plain operation in both runs. -/
theorem perform (hpar : Parallel tame label p s s') (hop : op.IsPlain) (now : Millis) :
    Parallel tame label p (op.perform now s) (op.perform now s') := by
  have hstep := evolves_perform h hpar.plays hop now
  have hstep' := evolves_perform h hpar.plays' hop now
  refine ⟨?_, ?_, hstep.isTame hpar.plays fun q hq => hq.perform h now s.world op,
    hstep'.isTame hpar.plays' fun q hq => hq.perform h now s'.world op, ?_⟩
  · rw [hstep.view, hstep'.view, hpar.view, hpar.world]
  · rw [hstep.world, hstep'.world, hpar.world]
  · rw [hstep.view]
    exact hpar.bears.perform now s.world op

/-- A plain operation that is aimed at another script, in the shared run. -/
theorem overlook (hpar : Parallel tame label p s s') (hop : op.IsPlain)
    (hother : op.concerns p = false) (now : Millis) :
    Parallel tame label p (op.perform now s) s' := by
  have hstep := evolves_perform h hpar.plays hop now
  have hsame : (op.perform now s).view p = s.view p :=
    (hstep.view p).trans (View.perform_of_not_concerns hop hother now s.world)
  exact ⟨hsame.trans hpar.view, hstep.world.trans hpar.world,
    hstep.isTame hpar.plays fun q hq => hq.perform h now s.world op, hpar.plays',
    hsame ▸ hpar.bears⟩

/-- The start of another script, in the shared run. -/
theorem pass (hpar : Parallel tame label p s s') {name other : String} {script : L.Script}
    {args : List String} (hscript : tame script) (hlabel : other ≠ label)
    (hp : p < s.nextPid ∨ (s.startScript now name other script args).2.nextPid ≤ p) :
    Parallel tame label p (s.startScript now name other script args).2 s' := by
  have hattempt := attempt now (.startScript name other script args) s
  change Attempt now _ s (s.startScript now name other script args) at hattempt
  generalize s.startScript now name other script args = result at hattempt hp ⊢
  cases hattempt with
  | exhausted hout =>
    obtain rfl := Except.ok.inj hout.path_eq
    have hview : ∀ q, (s.forgetFinished other).view q = (s.view q).forget other :=
      view_forgetFinished s other
    have hsame := (hview p).trans (hpar.bears.forget_of_ne hlabel)
    refine ⟨hsame.trans hpar.view, hpar.world, fun q => ?_, hpar.plays', hsame ▸ hpar.bears⟩
    rw [hview]
    exact hpar.plays q
  | launched hpath hfree hloads hleft =>
    obtain rfl := Except.ok.inj hpath
    obtain rfl := Except.ok.inj hloads
    have hnew := launched h hpar.plays hscript now name other args
    have hne : p ≠ s.nextPid := by
      rintro rfl
      exact hp.elim (Nat.lt_irrefl _) fun hle =>
        Nat.not_succ_le_self _ (hnew.nextPid.symm.trans_le hle)
    have hsame := (hnew.view p).trans ((if_neg hne).trans (hpar.bears.forget_of_ne hlabel))
    exact ⟨hsame.trans hpar.view, hnew.world.trans hpar.world,
      tame_service h (isTame_enroll hpar.plays hscript now name other args) now s.nextPid,
      hpar.plays', hsame ▸ hpar.bears⟩
  | _ => exact hpar

/-- An operation of the shared run that may go on beside the script. -/
theorem step (hpar : Parallel tame label p s s') (hop : op.Apart tame label)
    (hp : p < s.nextPid ∨ (op.perform now s).nextPid ≤ p) :
    Parallel tame label p (op.perform now s)
      (if op.concerns p then op.perform now s' else s') := by
  have hplain : op.IsPlain → Parallel tame label p (op.perform now s)
      (if op.concerns p then op.perform now s' else s') := by
    intro hplain
    cases hconcerns : op.concerns p with
    | true => exact hpar.perform h hplain now
    | false => exact hpar.overlook h hplain hconcerns now
  cases op with
  | startScript name other script args => exact hpar.pass h hop.1 hop.2 hp
  | _ => exact hplain hop

/-- **Two runs that are the same to a script stay so**, as long as the script is started in neither
of them. -/
theorem performAll {ops : List (Millis × Operation L)} (hpar : Parallel tame label p s s')
    (hops : ∀ x ∈ ops, x.2.Apart tame label)
    (hp : p < s.nextPid ∨ (performAll ops s).nextPid ≤ p) :
    Parallel tame label p (performAll ops s) (performAll (concerning p ops) s') := by
  induction ops generalizing s s' with
  | nil => exact hpar
  | cons x ops ih =>
    obtain ⟨now, op⟩ := x
    obtain ⟨hop, hops⟩ := List.forall_mem_cons.mp hops
    have hsooner : s.nextPid ≤ (op.perform now s).nextPid := (path_perform now op s).1.nextPid_le
    have hlater := (path_history ops (op.perform now s)).nextPid_le
    have hfirst := hpar.step h hop (hp.imp_right hlater.trans)
    have hrest := ih hfirst hops (hp.imp_left hsooner.trans_lt')
    have halone : Heartbeat.performAll (concerning p ((now, op) :: ops)) s' =
        Heartbeat.performAll (concerning p ops)
          (if op.concerns p then op.perform now s' else s') := by
      unfold concerning
      rw [List.filter_cons]
      split <;> rfl
    rw [halone]
    exact hrest

omit h in
/-- The launch of the script, in both runs. -/
theorem launch (hpar : Parallel tame label p s s') {name : String} {script : L.Script}
    {args : List String} (hplays : t.IsTame tame) (hplays' : t'.IsTame tame)
    (hlaunched : Launched now name label script args s t) (hp : s.nextPid = p)
    (hlaunched' : Launched now name label script args s' t') (hp' : s'.nextPid = p) :
    Parallel tame label p t t' := by
  have hview := (hlaunched.view p).trans (if_pos hp.symm)
  have hview' := (hlaunched'.view p).trans (if_pos hp'.symm)
  refine ⟨?_, ?_, hplays, hplays', ?_⟩
  · rw [hview, hview', hpar.view, hpar.world]
  · rw [hlaunched.world, hlaunched'.world, hpar.world]
  · rw [hview]
    refine View.Bears.service ?_ now s.world
    intro e he
    rw [← Option.some.inj he]
    rfl

end Parallel

/-! ## What there is to see -/

/-- What there is to see of a script in two schedulers is the same. -/
structure Indistinct (p : Pid) (s s' : Scheduler L) : Prop where
  thread : s.threads.find? p = s'.threads.find? p
  entry : s.table.find? p = s'.table.find? p
  /-- The news about it that the host has not taken yet. -/
  news : newsAbout p s.status = newsAbout p s'.status
  /-- A heartbeat, at any time, says the same of it. -/
  resumed : ∀ now, p ∈ (s.tick now).1.resumed ↔ p ∈ (s'.tick now).1.resumed
  reaped : ∀ now, p ∈ (s.tick now).1.reaped ↔ p ∈ (s'.tick now).1.reaped
  collected : ∀ now, p ∈ (s.tick now).1.collected ↔ p ∈ (s'.tick now).1.collected

theorem Parallel.indistinct {label : String} {s s' : Scheduler L}
    (hpar : Parallel tame label p s s') (h : L.IsInsular (fun _ => False) tame) :
    Indistinct p s s' where
  thread := congrArg View.thread? hpar.view
  entry := congrArg View.listed? hpar.view
  news := congrArg View.news hpar.view
  resumed now := by
    rw [Scheduler.mem_resumed_tick h hpar.plays, Scheduler.mem_resumed_tick h hpar.plays',
      hpar.view, hpar.world]
  reaped now := by
    rw [Scheduler.mem_reaped_tick h hpar.plays, Scheduler.mem_reaped_tick h hpar.plays',
      hpar.view, hpar.world]
  collected now := by
    rw [Scheduler.mem_collected_tick h hpar.plays, Scheduler.mem_collected_tick h hpar.plays',
      hpar.view, hpar.world]

/-! ## The run alone -/

namespace Scheduler

variable {s : Scheduler L} {label : String}

/-- The table has no entry. -/
def IsBare (s : Scheduler L) : Prop := ∀ q, (s.view q).Bears fun _ => False

theorem IsBare.free (hbare : s.IsBare) (path : String) : s.rejectLive path = .ok () := by
  unfold rejectLive
  cases hfirst : s.table.findPath? path with
  | none => rfl
  | some e =>
    exact absurd (Roster.find?_of_mem (List.mem_of_find?_eq_some hfirst)) (hbare e.pid e)

/-- Plain operations bring no entry. -/
theorem isBare_performAll (h : L.IsInsular (fun _ => False) tame) (ht : s.IsTame tame)
    (hbare : s.IsBare) {ops : List (Millis × Operation L)} (hops : ∀ x ∈ ops, x.2.IsPlain) :
    (performAll ops s).IsBare := by
  induction ops generalizing s with
  | nil => exact hbare
  | cons x ops ih =>
    obtain ⟨hop, hops⟩ := List.forall_mem_cons.mp hops
    have hstep := evolves_perform h ht hop x.1
    refine ih (hstep.isTame ht fun q hq => hq.perform h x.1 s.world x.2) (fun q => ?_) hops
    rw [hstep.view]
    exact (hbare q).perform x.1 s.world x.2

/-- A start that succeeds, gives its script the next identifier. -/
theorem started {name : String} {script : L.Script} {args : List String}
    (h : L.IsInsular (fun _ => False) tame) (ht : s.IsTame tame) (hscript : tame script)
    (hstart : (s.startScript now name label script args).1 = .ok p) :
    s.nextPid = p ∧ p < Pid.limit ∧
      Launched now name label script args s (s.startScript now name label script args).2 ∧
      (s.startScript now name label script args).2.IsTame tame := by
  have hattempt := attempt now (.startScript name label script args) s
  change Attempt now _ s (s.startScript now name label script args) at hattempt
  generalize s.startScript now name label script args = result at hattempt hstart ⊢
  cases hattempt with
  | launched hpath hfree hloads hleft =>
    obtain rfl := Except.ok.inj hpath
    obtain rfl := Except.ok.inj hloads
    obtain rfl : s.nextPid = p := Except.ok.inj hstart
    exact ⟨rfl, hleft, launched h ht hscript now name label args,
      tame_service h (isTame_enroll ht hscript now name label args) now s.nextPid⟩
  | _ => exact absurd hstart nofun

/-- Where the label is free, a start succeeds as long as there are identifiers. -/
theorem startScript_of_free (hfree : s.rejectLive label = .ok ()) (hleft : s.nextPid < Pid.limit)
    (now : Millis) (name : String) (script : L.Script) (args : List String) :
    (s.startScript now name label script args).1 = .ok s.nextPid := by
  unfold startScript launch
  rw [hfree]
  exact congrArg Prod.fst (if_neg (Nat.not_le_of_lt hleft))

end Scheduler

theorem Operation.Apart.isPlain {op : Operation L} {label : String} (h : op.Apart tame label)
    (hconcerns : op.concerns p = true) : op.IsPlain := by
  cases op with
  | startScript => exact absurd hconcerns nofun
  | _ => exact h

/-- **A script does not notice the others**: what there is to see of it in a run that it shares with
them, in which it is started between two rows of operations, is what there is to see of it in the
run that is left without them. -/
structure Isolated (p : Pid) (now : Millis) (name label : String) (script : L.Script)
    (args : List String) (earlier later : List (Millis × Operation L)) (s₀ : Scheduler L) :
    Prop where
  /-- Before its start, there is nothing of it in either run. -/
  before : ∀ k, Indistinct p (performAll (earlier.take k) s₀)
    (performAll (concerning p (earlier.take k)) s₀)
  /-- Its start succeeds in the run without the others, too. -/
  start : (({ performAll (concerning p earlier) s₀ with nextPid := p } : Scheduler L).startScript
    now name label script args).1 = .ok p
  /-- From its start on, the runs go on alike. -/
  after : ∀ k, Indistinct p
    (performAll (earlier ++ (now, .startScript name label script args) :: later.take k) s₀)
    (performAll ((now, .startScript name label script args) :: concerning p (later.take k))
      { performAll (concerning p earlier) s₀ with nextPid := p })

/-- **Isolation**: tame scripts with labels of their own do not notice each other. -/
theorem isolation (h : L.IsInsular (fun _ => False) tame) (options : SchedulerOptions)
    (library : ScriptLibrary) (searchPath : List ScriptPath) (world : L.World) (created : Millis)
    {earlier later : List (Millis × Operation L)} {name label : String} {script : L.Script}
    {args : List String} (hearlier : ∀ x ∈ earlier, x.2.Apart tame label)
    (hlater : ∀ x ∈ later, x.2.Apart tame label) (hscript : tame script)
    (hstart : ((performAll earlier
      (.create options library searchPath world created)).startScript now name label
        script args).1 = .ok p) :
    Isolated p now name label script args earlier later
      (.create options library searchPath world created) := by
  generalize hs₀ : Scheduler.create options library searchPath world created = s₀ at hstart ⊢
  have htame : s₀.IsTame tame := by
    subst hs₀
    exact fun q t ht => absurd ht nofun
  have hbare : s₀.IsBare := by
    subst hs₀
    exact fun q e he => absurd he nofun
  have hpar : ∀ q, Parallel tame label q s₀ s₀ :=
    fun q => ⟨rfl, rfl, htame, htame, fun e he => (hbare q e he).elim⟩
  have htake : ∀ {ops : List (Millis × Operation L)}, (∀ x ∈ ops, x.2.Apart tame label) →
      ∀ k, ∀ x ∈ ops.take k, x.2.Apart tame label :=
    fun hops k x hx => hops x (List.mem_of_mem_take hx)
  -- up to the start
  have hready := (hpar (performAll earlier s₀).nextPid).performAll h hearlier (.inr (Nat.le_refl _))
  obtain ⟨rfl, hleft, hlaunched, hplays⟩ := Scheduler.started h hready.plays hscript hstart
  generalize hp : (performAll earlier s₀).nextPid = p at hready hleft hlaunched hplays ⊢
  have hbeside : Parallel tame label p (performAll earlier s₀)
      { performAll (concerning p earlier) s₀ with nextPid := p } :=
    ⟨hready.view, hready.world, hready.plays, hready.plays', hready.bears⟩
  have halone : ({ performAll (concerning p earlier) s₀ with nextPid := p } :
      Scheduler L).IsBare := by
    refine Scheduler.isBare_performAll h htame hbare fun x hx => ?_
    obtain ⟨hmem, hconcerns⟩ := List.mem_filter.mp hx
    exact (hearlier x hmem).isPlain hconcerns
  have hstart' := Scheduler.startScript_of_free (halone.free label) hleft now name script args
  obtain ⟨-, -, hlaunched', hplays'⟩ := Scheduler.started h hbeside.plays' hscript hstart'
  -- behind the start
  have hgone := hbeside.launch hplays hplays' hlaunched hp hlaunched' rfl
  refine ⟨fun k => ?_, hstart', fun k => ?_⟩
  · refine ((hpar p).performAll h (htake hearlier k) (.inr ?_)).indistinct h
    have hrest := (path_history (earlier.drop k) (performAll (earlier.take k) s₀)).nextPid_le
    rw [← performAll_append, List.take_append_drop] at hrest
    exact hrest.trans_eq hp
  · rw [performAll_append]
    refine (hgone.performAll h (htake hlater k) (.inl ?_)).indistinct h
    rw [hlaunched.nextPid, hp]
    exact Nat.lt_succ_self p

/-! ## Step scripts -/

namespace StepScript

/-- **Step scripts without `run`, `stop` and `pause` do not notice each other**, if the others have
labels of their own: heartbeats, lines, allowances, stops and pauses aimed at single scripts, and
starts of others may come in any order before and behind the start of the script. -/
theorem isolation_of_quiet {W : Type} {engine : PatternEngine} (options : SchedulerOptions)
    (library : ScriptLibrary) (searchPath : List ScriptPath) (world : W) (created now : Millis)
    (earlier later : List (Millis × Operation (language W engine))) (name label : String)
    (program : Program) (args : List String) (p : Pid)
    (hearlier : ∀ x ∈ earlier, x.2.Apart Program.IsQuiet label)
    (hlater : ∀ x ∈ later, x.2.Apart Program.IsQuiet label) (hquiet : program.IsQuiet)
    (hstart : ((performAll earlier (.create options library searchPath world created)).startScript
      now name label program args).1 = .ok p) :
    Isolated p now name label program args earlier later
      (.create options library searchPath world created) :=
  isolation (isInsular_language fun _ h => h.asks) options library searchPath world created hearlier
    hlater hquiet hstart

/-- A script that breaks down by counting too far. -/
def bomb : Program := ⟨[⟨1, .set "x" "9223372036854775807"⟩, ⟨2, .incr "x"⟩], []⟩

/-- A script that hears of every line with an `a` and never looks at its queue. -/
def hoarder : Program :=
  ⟨[⟨1, .event "hit" "a"⟩, ⟨2, .yield⟩, ⟨3, .goto "rest"⟩], [("rest", 1)]⟩

/-- A scheduler in which a match waits alone, and for the script to look at it. -/
def narrow : Scheduler (language Unit) :=
  .create { dispatch := .explicit, queueLimit? := some 1 } ⟨⟨[], []⟩, "beat", none⟩ [] () 0

/-- A hoarder whose queue runs over, and a bomb. -/
def crowd : List (Millis × Operation (language Unit)) :=
  [(0, .startScript "first" "first" hoarder []), (1, .feed "a"), (1, .feed "a"), (2, .tick),
    (3, .startScript "bomb" "bomb" bomb [])]

/-- More lines and heartbeats, and what is aimed at single scripts. -/
def bustle : List (Millis × Operation (language Unit)) :=
  [(5, .feed "a"), (6, .tick), (7, .stop (.pid 1)), (8, .tick), (9, .pause (.pid 3)),
    (9, .feed "a"), (10, .tick)]

/-- A hoarder among others, which break down, drop matches and are stopped: it does not notice. -/
theorem isolation_of_hoarder :
    (∀ x ∈ crowd, x.2.Apart Program.IsQuiet "own") ∧
      (∀ x ∈ bustle, x.2.Apart Program.IsQuiet "own") ∧ hoarder.IsQuiet ∧
      ((performAll crowd narrow).startScript 4 "own" "own" hoarder []).1 = .ok 3 ∧
      Isolated 3 4 "own" "own" hoarder [] crowd bustle narrow ∧
      ((performAll crowd narrow).threads.find? 1).map (·.events.dropped) = some 1 ∧
      ((performAll crowd narrow).table.find? 2).map (·.status) = some .errored := by
  have hcrowd : ∀ x ∈ crowd, x.2.Apart Program.IsQuiet "own" := by
    simp only [crowd, List.forall_mem_cons]
    exact ⟨⟨by decide, by decide⟩, trivial, trivial, trivial, ⟨by decide, by decide⟩, nofun⟩
  have hbustle : ∀ x ∈ bustle, x.2.Apart Program.IsQuiet "own" := by
    simp only [bustle, List.forall_mem_cons]
    exact ⟨trivial, trivial, trivial, trivial, trivial, trivial, trivial, nofun⟩
  have hquiet : hoarder.IsQuiet := by decide
  have hstart : ((performAll crowd narrow).startScript 4 "own" "own" hoarder []).1 = .ok 3 := by
    decide +kernel
  exact ⟨hcrowd, hbustle, hquiet, hstart,
    isolation_of_quiet _ _ _ _ _ _ crowd bustle _ _ hoarder _ _ hcrowd hbustle hquiet hstart,
    by decide +kernel, by decide +kernel⟩

end StepScript

end Heartbeat

import Heartbeat.Proofs.Scheduler.Start

/-!
# One entry for a path

A start looks at the first entry of its path alone. That is enough, since a path never has a second
one: every start checks the path before it makes room, and nothing else adds an entry. Scripts that
start scripts in their first service do not disturb this, at any depth of nesting.

* `ProcessTable.SinglePaths`: a path has one entry at most; `Path.singlePaths`: it stays so.
* `spawn_eq_run`: a start on request is the one that the host would make, so that nesting has no
  limit of its own.
* `start_law_of_create`: what every start does, in every state of every run.
-/

namespace Heartbeat

variable {L : Language} {now : Millis}

/-! ## Starts on request -/

namespace Scheduler

section Depth

variable {spawn spawn' : Spawn L} {moves : SpawnMoves L} {lower : Pid}
  (htraced : Traced spawn moves)
  (hagree : ∀ (s : Scheduler L), lower ≤ s.nextPid → s.nextPid ≤ Pid.limit →
    ∀ now identity args, spawn now identity args s = spawn' now identity args s)

include hagree in
theorem applyRequest_congr {s : Scheduler L} (hlower : lower ≤ s.nextPid)
    (hupper : s.nextPid ≤ Pid.limit) (now : Millis) (request : Request) :
    applyRequest spawn now s request = applyRequest spawn' now s request := by
  cases request with
  | run script args =>
    simp only [applyRequest, hagree s hlower hupper]
  | _ => rfl

include htraced hagree

theorem applyRequests_congr {s : Scheduler L} (hlower : lower ≤ s.nextPid)
    (hupper : s.nextPid ≤ Pid.limit) (now : Millis) (requests : List Request) :
    applyRequests spawn now s requests = applyRequests spawn' now s requests := by
  induction requests generalizing s with
  | nil => rfl
  | cons request requests ih =>
    have hpath := (path_applyRequest htraced now s request).path
    have hrest := ih (Nat.le_trans hlower hpath.nextPid_le) (hpath.nextPid_le_limit hupper)
    unfold applyRequests at hrest ⊢
    rw [List.foldl_cons, List.foldl_cons, hrest, applyRequest_congr hagree hlower hupper]

theorem service_congr {s : Scheduler L} (hlower : lower ≤ s.nextPid)
    (hupper : s.nextPid ≤ Pid.limit) (now : Millis) (p : Pid) :
    service spawn now p s = service spawn' now p s := by
  by_cases hactive : ∃ t, s.threads.find? p = some t ∧ t.isActive = true
  · obtain ⟨t, hfind, hactive⟩ := hactive
    have hnext : (s.serve now p).nextPid = s.nextPid := Move.nextPid_apply (.serve p) now s
    rw [service_of_active hfind hactive, service_of_active hfind hactive]
    refine congrArg (Prod.mk _) (applyRequests_congr htraced hagree ?_ ?_ now _)
    · exact Nat.le_trans hlower (Nat.le_of_eq hnext.symm)
    · exact Nat.le_trans (Nat.le_of_eq hnext) hupper
  · rw [service_of_idle hactive, service_of_idle hactive]

theorem launch_congr {s : Scheduler L} (hlower : lower ≤ s.nextPid + 1) (now : Millis)
    (name path : String) (script : L.Script) (args : List String) :
    launch spawn now name path script args s = launch spawn' now name path script args s := by
  unfold launch
  split
  · rfl
  · rename_i hleft
    rw [service_congr htraced hagree (s := s.enroll now name path script args) hlower
      (Nat.lt_of_not_le hleft)]

theorem startWith_congr {s : Scheduler L} (hlower : lower ≤ s.nextPid + 1) (now : Millis)
    (identity : String) (searchPath : List ScriptPath) (args : List String) :
    startWith spawn now identity searchPath args s =
      startWith spawn' now identity searchPath args s := by
  have hlaunch := fun path : ScriptPath =>
    launch_congr htraced hagree (s := s.forgetFinished path.text) hlower now identity path.text
  unfold startWith
  simp only [hlaunch]

end Depth

/-- A deeper nesting makes no difference: every start takes an identifier, so that there are never
more starts nested in one another than identifiers are left. -/
theorem spawnWithin_eq {depth depth' : Nat} {s : Scheduler L} (hle : s.nextPid ≤ Pid.limit)
    (hdeep : Pid.limit < s.nextPid + depth) (hdeep' : Pid.limit < s.nextPid + depth')
    (now : Millis) (identity : String) (args : List String) :
    spawnWithin depth now identity args s = spawnWithin depth' now identity args s := by
  induction depth generalizing depth' s now identity args with
  | zero => exact absurd hdeep (Nat.not_lt_of_le hle)
  | succ depth ih =>
    cases depth' with
    | zero => exact absurd hdeep' (Nat.not_lt_of_le hle)
    | succ depth' =>
      show startWith (spawnWithin depth) now identity s.searchPath args s =
        startWith (spawnWithin depth') now identity s.searchPath args s
      refine startWith_congr (traced_spawnWithin depth) (fun s' hlower hupper => ?_)
        (Nat.le_refl (s.nextPid + 1)) now identity _ args
      have hbelow : ∀ n, s.nextPid + (n + 1) ≤ s'.nextPid + n := fun n => by
        rw [Nat.add_comm n, ← Nat.add_assoc]
        exact Nat.add_le_add_right hlower n
      exact ih hupper (Nat.lt_of_lt_of_le hdeep (hbelow _))
        (Nat.lt_of_lt_of_le hdeep' (hbelow _))

/-- **A start on request is the one that the host would make**, in the middle of an operation and at
any depth of nesting. -/
theorem spawn_eq_run {s : Scheduler L} (hpos : 0 < s.nextPid) (hle : s.nextPid ≤ Pid.limit)
    (now : Millis) (identity : String) (args : List String) :
    spawn now identity args s = s.run now identity args := by
  show spawnWithin Pid.limit now identity args s = spawnWithin (Pid.limit + 1) now identity args s
  exact spawnWithin_eq hle (Nat.lt_add_of_pos_left hpos)
    (Nat.lt_of_lt_of_le (Nat.lt_succ_self _) (Nat.le_add_left _ _)) now identity args

end Scheduler

/-! ## The entry of a path -/

/-- **A path has one entry at most.** -/
def ProcessTable.SinglePaths (t : ProcessTable) : Prop := (t.members.map (·.path)).Nodup

namespace ProcessTable

variable {t : ProcessTable}

theorem singlePaths_iff : t.SinglePaths ↔
    ∀ p p' e e', t.find? p = some e → t.find? p' = some e' → e.path = e'.path → p = p' := by
  have hnodup : t.members.Nodup := List.Nodup.of_map _ (Roster.keys_nodup t)
  constructor
  · intro h p p' e e' he he' hpath
    have hsame : e = e' :=
      List.inj_on_of_nodup_map h (Roster.mem_of_find? he) (Roster.mem_of_find? he') hpath
    rw [← Roster.key_of_find? he, ← Roster.key_of_find? he', hsame]
  · intro h
    refine List.Nodup.map_on (fun e he e' he' hpath => ?_) hnodup
    have hpid := h _ _ e e' (Roster.find?_of_mem he) (Roster.find?_of_mem he') hpath
    have hfind := Roster.find?_of_mem he
    rw [hpid, Roster.find?_of_mem he'] at hfind
    exact (Option.some.inj hfind).symm

/-- The first entry of a path is the only one. -/
theorem SinglePaths.findPath? (h : t.SinglePaths) {e : ProcessEntry} (he : e ∈ t.members) :
    t.findPath? e.path = some e := by
  unfold ProcessTable.findPath?
  cases hfirst : t.members.find? (·.path == e.path) with
  | none =>
    have hnone := List.find?_eq_none.mp hfirst e he
    exact absurd (beq_self_eq_true e.path) hnone
  | some e' =>
    have hpath : e'.path = e.path := by simpa using List.find?_some hfirst
    exact congrArg some (List.inj_on_of_nodup_map h (List.mem_of_find?_eq_some hfirst) he hpath)

end ProcessTable

namespace Scheduler

variable {s : Scheduler L} {path : String} {e : ProcessEntry}

/-- A live entry keeps its path. -/
theorem rejectLive_of_live (h : s.table.SinglePaths) (he : e ∈ s.table.members)
    (hlive : e.isLive = true) :
    s.rejectLive e.path = .error (.alreadyRunning e.name e.pid) := by
  unfold rejectLive
  rw [h.findPath? he]
  exact if_pos hlive

/-- A path without a live entry is free. -/
theorem rejectLive_of_over (h : ∀ e ∈ s.table.members, e.path = path → e.isLive = false) :
    s.rejectLive path = .ok () := by
  unfold rejectLive
  cases hfirst : s.table.findPath? path with
  | none => rfl
  | some e =>
    have hpath : e.path = path := by simpa using List.find?_some hfirst
    have hover := h e (List.mem_of_find?_eq_some hfirst) hpath
    simp [hover]

/-- All entries of a path that is free are finished. -/
theorem over_of_rejectLive (h : s.table.SinglePaths) (hfree : s.rejectLive e.path = .ok ())
    (he : e ∈ s.table.members) : e.isLive = false := by
  by_contra hlive
  rw [rejectLive_of_live h he (by simpa using hlive)] at hfree
  exact absurd hfree nofun

end Scheduler

/-- **Every move leaves one entry for a path.** -/
theorem Move.singlePaths {s : Scheduler L} {m : Move L} (hfits : m.Fits s) (hacc : s.Accord)
    (hsingle : s.table.SinglePaths) (now : Millis) : (m.apply now s).table.SinglePaths := by
  have hpassage := Move.passage hfits hacc now
  -- an entry that was there before does not stand beside one that is entered
  have hapart : ∀ {p e₀ name path script args}, m = .enroll name path script args →
      s.table.find? p = some e₀ → e₀.path = path → p ≠ s.nextPid →
        (m.apply now s).table.find? p = none := by
    rintro p e₀ name path script args rfl he₀ rfl hp
    have hover := Scheduler.over_of_rejectLive hsingle hfits.2 (Roster.mem_of_find? he₀)
    show ((s.forgetFinished e₀.path).enroll now name e₀.path script args).table.find? p = none
    rw [Scheduler.find?_enroll, if_neg hp, he₀]
    simp [hover]
  rw [ProcessTable.singlePaths_iff] at hsingle ⊢
  intro p p' e e' he he' hpath
  have hfirst := hpassage p
  have hsecond := hpassage p'
  rw [he] at hfirst
  rw [he'] at hsecond
  rcases hfirst.origin with ⟨e₀, he₀, hsame⟩ | ⟨hp, name, path, script, args, hmove, rfl⟩
  · rcases hsecond.origin with ⟨e₀', he₀', hsame'⟩ | ⟨hp', name, path, script, args, hmove, rfl⟩
    · exact hsingle p p' e₀ e₀' he₀ he₀' (hsame.path.symm.trans (hpath.trans hsame'.path))
    · by_contra hne
      have hgone := hapart hmove he₀ (hsame.path.symm.trans hpath) (hp' ▸ hne)
      exact absurd (he.symm.trans hgone) nofun
  · rcases hsecond.origin with ⟨e₀', he₀', hsame'⟩ | ⟨hp', -⟩
    · by_contra hne
      have hgone := hapart hmove he₀' (hsame'.path.symm.trans hpath.symm)
        (hp ▸ Ne.symm hne)
      exact absurd (he'.symm.trans hgone) nofun
    · exact hp.trans hp'.symm

theorem Path.singlePaths {s s' : Scheduler L} {moves : List (Millis × Move L)}
    (h : Path s moves s') (hacc : s.Accord) (hsingle : s.table.SinglePaths) :
    s'.table.SinglePaths := by
  induction h with
  | nil => exact hsingle
  | cons now hfits _ ih =>
    exact ih (Move.accord hfits hacc now) (Move.singlePaths hfits hacc hsingle now)

/-! ## The law of starts -/

/-- **A start gets through**: the script gets an identifier that nothing had before, its entry takes
the place of the finished one of its path, and its first service follows at once. -/
structure Starts (now : Millis) (c : StartCall L) (s : Scheduler L) (path : String)
    (script : L.Script) : Prop where
  result : (c.perform now s).1 = .ok s.nextPid
  enrolls : ∃ moves, QuietPath s ((now, .enroll c.name path script c.args) ::
    (now, .serve s.nextPid) :: moves) (c.perform now s).2
  fresh : s.slot s.nextPid = ⟨none, none, false⟩
  taken : s.nextPid < (c.perform now s).2.nextPid
  replaces : ∀ e ∈ s.table.members, e.path = path →
    (c.perform now s).2.table.find? e.pid = none

/-- **The law of starts** in a state. -/
structure StartLaw (s : Scheduler L) : Prop where
  single : s.table.SinglePaths
  /-- A live entry keeps its path: no start of it gets through, or changes anything. -/
  busy : ∀ now (c : StartCall L) e, e ∈ s.table.members → c.path s = .ok e.path →
    e.isLive = true → c.perform now s = (.error (.alreadyRunning e.name e.pid), s)
  /-- So does a thread until its script has ended or it is removed, paused or stopped as it may
  be. -/
  held : ∀ now (c : StartCall L) t, t ∈ s.threads.members → c.path s = .ok t.path →
    t.isTerminated = false → c.perform now s = (.error (.alreadyRunning t.name t.pid), s)
  /-- A start of any other path gets through if its script loads and an identifier is left. -/
  free : ∀ now (c : StartCall L) path script, c.path s = .ok path →
    (∀ e ∈ s.table.members, e.path = path → e.isLive = false) → c.script s = .ok script →
      s.nextPid < Pid.limit → Starts now c s path script
  /-- What a script asks for is done as if the host had asked for it. -/
  asked : ∀ now identity args, Scheduler.spawn now identity args s = s.run now identity args

namespace Scheduler

variable {s : Scheduler L}

/-- A start of a path with a live entry fails. -/
theorem perform_of_live (hsingle : s.table.SinglePaths) (now : Millis) (c : StartCall L)
    {e : ProcessEntry} (he : e ∈ s.table.members) (hpath : c.path s = .ok e.path)
    (hlive : e.isLive = true) :
    c.perform now s = (.error (.alreadyRunning e.name e.pid), s) := by
  have hreject := rejectLive_of_live hsingle he hlive
  have hattempt := attempt now c s
  generalize c.perform now s = result at hattempt ⊢
  have hsame : ∀ {path}, c.path s = .ok path → s.rejectLive path = s.rejectLive e.path :=
    fun h => congrArg _ (Except.ok.inj (h.symm.trans hpath))
  cases hattempt with
  | unresolved herror => exact absurd (herror.symm.trans hpath) nofun
  | refused hpath' hbusy =>
    have hreason := hbusy.symm.trans ((hsame hpath').trans hreject)
    rw [Except.error.inj hreason]
  | unloaded hpath' hfree _ =>
    exact absurd (hfree.symm.trans ((hsame hpath').trans hreject)) nofun
  | exhausted h => exact absurd (h.free.symm.trans ((hsame h.path_eq).trans hreject)) nofun
  | launched hpath' hfree _ _ =>
    exact absurd (hfree.symm.trans ((hsame hpath').trans hreject)) nofun

/-- A start of a path without a live entry gets through. -/
theorem starts_of_over (hacc : s.Accord) (now : Millis) (c : StartCall L) {path : String}
    {script : L.Script} (hpath : c.path s = .ok path)
    (hover : ∀ e ∈ s.table.members, e.path = path → e.isLive = false)
    (hscript : c.script s = .ok script) (hleft : s.nextPid < Pid.limit) :
    Starts now c s path script := by
  have hfree := rejectLive_of_over hover
  have hattempt := attempt now c s
  generalize hresult : c.perform now s = result at hattempt
  cases hattempt with
  | unresolved herror => exact absurd (herror.symm.trans hpath) nofun
  | refused hpath' hbusy =>
    rw [Except.ok.inj (hpath'.symm.trans hpath), hfree] at hbusy
    exact absurd hbusy nofun
  | unloaded _ _ herror => exact absurd (herror.symm.trans hscript) nofun
  | exhausted h => exact absurd h.limit (Nat.not_le_of_lt hleft)
  | @launched path' script' hpath' _ hscript' _ =>
    obtain rfl : path' = path := Except.ok.inj (hpath'.symm.trans hpath)
    obtain rfl : script' = script := Except.ok.inj (hscript'.symm.trans hscript)
    have hfits : (Move.enroll c.name path' script' c.args).Fits s := ⟨hleft, hfree⟩
    have hfind : ((s.forgetFinished path').enroll now c.name path' script' c.args).threads.find?
        s.nextPid =
          some (.start s.nextPid c.name path' c.args script' s.options.queueLimit?) :=
      Roster.find?_insert_self s.threads _
    have hserved := path_service traced_spawn now s.nextPid
      ((s.forgetFinished path').enroll now c.name path' script' c.args)
    rw [serviceMoves_of_active hfind rfl] at hserved
    have hacc' := Move.accord hfits hacc now
    refine ⟨?_, ?_, ?_, ?_, ?_⟩
    · rw [hresult]
    · rw [hresult]
      exact ⟨_, .cons hfits rfl hserved⟩
    · exact (hacc.slots s.nextPid).eq_free (decide_eq_false fun h => Nat.lt_irrefl _ h.2)
    · rw [hresult]
      exact Nat.lt_of_lt_of_le (Nat.lt_succ_self _) hserved.path.nextPid_le
    · intro e he hsame
      have hlt := pid_lt_of_find? hacc (Roster.find?_of_mem he)
      have hgone : ((s.forgetFinished path').enroll now c.name path' script' c.args).table.find?
          e.pid = none := by
        rw [find?_enroll, if_neg (Nat.ne_of_lt hlt), Roster.find?_of_mem he]
        simp [hsame, hover e he hsame]
      rw [hresult]
      exact hserved.path.gone hacc' hgone (Nat.lt_succ_of_lt hlt)

end Scheduler

/-- **The law of starts holds in every state of every run**, in the middle of an operation too, and
the identifier that comes next has never been in use. -/
theorem start_law_of_create (options : SchedulerOptions) (library : ScriptLibrary)
    (searchPath : List ScriptPath) (world : L.World) (start : Millis) (clock : Clock)
    (ops : List (Millis × Operation L)) :
    let s₀ := Scheduler.create (L := L) options library searchPath world start clock
    (∀ k, ∃ n, moment ops s₀ n = performAll (ops.take k) s₀) ∧
      ∀ n, StartLaw (moment ops s₀ n) ∧
        ∀ k, k ≤ n → (moment ops s₀ k).slot (moment ops s₀ n).nextPid = ⟨none, none, false⟩ := by
  intro s₀
  have hacc₀ : s₀.Accord := Scheduler.accord_create options library searchPath world start clock
  refine ⟨exists_moment_eq ops s₀, fun n => ⟨?_, fun k hle => ?_⟩⟩
  · have hpath := path_moment ops s₀ (Nat.zero_le n)
    have hacc : (moment ops s₀ n).Accord := accord_moment hacc₀ n
    have hsingle : (moment ops s₀ n).table.SinglePaths := hpath.singlePaths hacc₀ List.nodup_nil
    have hfirst : s₀.nextPid ≤ Pid.limit :=
      Scheduler.nextPid_create_le options library searchPath world start clock
    have hlimit : (moment ops s₀ n).nextPid ≤ Pid.limit := hpath.nextPid_le_limit hfirst
    refine ⟨hsingle, ?_, ?_, ?_, ?_⟩
    · intro now c e he hpath hlive
      exact Scheduler.perform_of_live hsingle now c he hpath hlive
    · intro now c t ht hpath hscript
      obtain ⟨e, he, hpid, hname, hsame, -, hend, -⟩ := hacc.consistent.described t ht hscript
      rw [← hpid, ← hname]
      refine Scheduler.perform_of_live hsingle now c he (hpath.trans (congrArg _ hsame.symm)) ?_
      unfold ProcessEntry.isLive
      rw [hend]
      rfl
    · intro now c path script hpath hover hscript hleft
      exact Scheduler.starts_of_over hacc now c hpath hover hscript hleft
    · exact Scheduler.spawn_eq_run hacc.positive hlimit
  · have hlater := (path_moment ops s₀ hle).nextPid_le
    have hacc : (moment ops s₀ k).Accord := accord_moment hacc₀ k
    exact (hacc.slots _).eq_free (decide_eq_false fun h => Nat.not_lt_of_le hlater h.2)

end Heartbeat

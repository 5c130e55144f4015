import Heartbeat.Proofs.Scheduler.Entry

/-!
# Starts

The host starts a script in four ways, and a script may ask for the start of another one. Every
start goes through the same stages: its path is found, the path has to be free, the script is
loaded, the finished entry of the path makes room, and an identifier is handed out.

* `StartCall`: the ways to start a script.
* `Attempt`: how a start comes out, by the stage that it gets to.
* `failed_start_law`: what a start that fails leaves behind.
* `failed_start_loses_visitor`: a start behind the last identifier.
-/

namespace Heartbeat

variable {L : Language} {now : Millis}

/-- A start of a script by the host. -/
inductive StartCall (L : Language) where
  | run (identity : String) (args : List String)
  | start (identity : String) (searchPath : List ScriptPath) (args : List String)
  | startScript (name label : String) (script : L.Script) (args : List String)
  | parse (source : String)

namespace StartCall

/-- Starts the script. -/
def perform (now : Millis) (c : StartCall L) (s : Scheduler L) :
    Except StartError Pid × Scheduler L :=
  match c with
  | .run identity args => s.run now identity args
  | .start identity searchPath args => s.start now identity searchPath args
  | .startScript name label script args => s.startScript now name label script args
  | .parse source => s.parse now source

/-- The start of a script as an operation of the host. -/
def operation : StartCall L → Operation L
  | .run identity args => .run identity args
  | .start identity searchPath args => .start identity searchPath args
  | .startScript name label script args => .startScript name label script args
  | .parse source => .parse source

theorem perform_operation (c : StartCall L) (now : Millis) (s : Scheduler L) :
    c.operation.perform now s = (c.perform now s).2 := by
  cases c <;> rfl

theorem taken_operation (c : StartCall L) (s : Scheduler L) : c.operation.taken s = [] := by
  cases c <;> rfl

/-- The name that the thread gets. -/
def name : StartCall L → String
  | .run identity _ | .start identity _ _ => identity
  | .startScript name _ _ _ => name
  | .parse _ => Scheduler.parseName

/-- The arguments that the thread gets. -/
def args : StartCall L → List String
  | .run _ args | .start _ _ args | .startScript _ _ _ args => args
  | .parse _ => []

/-- The path that the start is for. -/
def path (c : StartCall L) (s : Scheduler L) : Except StartError String :=
  match c with
  | .run identity _ => (s.library.resolve identity s.searchPath).map (·.text)
  | .start identity searchPath _ => (s.library.resolve identity searchPath).map (·.text)
  | .startScript _ label _ _ => .ok label
  | .parse _ => .ok Scheduler.parseName

/-- The script of an identity, from its file. -/
def loaded (s : Scheduler L) (identity : String) (searchPath : List ScriptPath) :
    Except StartError L.Script :=
  (s.library.resolve identity searchPath).bind fun path =>
    (s.library.load path).map L.ofProgram

/-- The script that is to run. -/
def script (c : StartCall L) (s : Scheduler L) : Except StartError L.Script :=
  match c with
  | .run identity _ => loaded s identity s.searchPath
  | .start identity searchPath _ => loaded s identity searchPath
  | .startScript _ _ script _ => .ok script
  | .parse source => (ScriptLibrary.loadSource Scheduler.parseName source).map L.ofProgram

/-- A start finds its path free and its script loads, but no identifier is left for it. -/
structure Exhausts (c : StartCall L) (s : Scheduler L) (path : String) : Prop where
  path_eq : c.path s = .ok path
  free : s.rejectLive path = .ok ()
  loads : ∃ script, c.script s = .ok script
  limit : Pid.limit ≤ s.nextPid

end StartCall

/-- **How a start comes out**, by the stage that it gets to. -/
inductive Attempt (now : Millis) (c : StartCall L) (s : Scheduler L) :
    Except StartError Pid × Scheduler L → Prop
  /-- There is no script of the identity. -/
  | unresolved {e : StartError} (hpath : c.path s = .error e) : Attempt now c s (.error e, s)
  /-- The path has a live entry. -/
  | refused {path : String} {e : StartError} (hpath : c.path s = .ok path)
      (hbusy : s.rejectLive path = .error e) : Attempt now c s (.error e, s)
  /-- The script does not load. -/
  | unloaded {path : String} {e : StartError} (hpath : c.path s = .ok path)
      (hfree : s.rejectLive path = .ok ()) (hscript : c.script s = .error e) :
      Attempt now c s (.error e, s)
  /-- No identifier is left; the finished entry of the path has made room in vain. -/
  | exhausted {path : String} (h : c.Exhausts s path) :
      Attempt now c s (.error .pidsExhausted, s.forgetFinished path)
  /-- The script is launched and gets its first service. -/
  | launched {path : String} {script : L.Script} (hpath : c.path s = .ok path)
      (hfree : s.rejectLive path = .ok ()) (hscript : c.script s = .ok script)
      (hleft : s.nextPid < Pid.limit) :
      Attempt now c s (.ok s.nextPid, (Scheduler.service Scheduler.spawn now s.nextPid
        ((s.forgetFinished path).enroll now c.name path script c.args)).2)

namespace Attempt

variable {c : StartCall L} {s : Scheduler L} {path : String}

/-- The stages behind the check of the path. -/
theorem launch {script : L.Script} (hpath : c.path s = .ok path)
    (hfree : s.rejectLive path = .ok ()) (hscript : c.script s = .ok script) :
    Attempt now c s (Scheduler.launch Scheduler.spawn now c.name path script c.args
      (s.forgetFinished path)) := by
  unfold Scheduler.launch
  by_cases hlimit : Pid.limit ≤ s.nextPid
  · have hlimit' : Pid.limit ≤ (s.forgetFinished path).nextPid := hlimit
    rw [if_pos hlimit']
    exact .exhausted ⟨hpath, hfree, ⟨script, hscript⟩, hlimit⟩
  · have hlimit' : ¬ Pid.limit ≤ (s.forgetFinished path).nextPid := hlimit
    rw [if_neg hlimit']
    exact .launched hpath hfree hscript (Nat.lt_of_not_le hlimit)

/-- A start by an identity. -/
theorem startWith {identity : String} {searchPath : List ScriptPath} (hname : c.name = identity)
    (hpath : c.path s = (s.library.resolve identity searchPath).map (·.text))
    (hscript : c.script s = StartCall.loaded s identity searchPath) :
    Attempt now c s
      (Scheduler.startWith Scheduler.spawn now identity searchPath c.args s) := by
  subst hname
  unfold StartCall.loaded at hscript
  unfold Scheduler.startWith
  cases hresolve : s.library.resolve c.name searchPath with
  | error e =>
    rw [hresolve] at hpath
    exact .unresolved hpath
  | ok file =>
    rw [hresolve] at hpath hscript
    simp only
    cases hfree : s.rejectLive file.text with
    | error e => exact .refused hpath hfree
    | ok free =>
      simp only
      cases hload : s.library.load file with
      | error e =>
        refine .unloaded hpath hfree (hscript.trans ?_)
        simp [Except.bind, Except.map, hload]
      | ok program =>
        refine launch hpath hfree (hscript.trans ?_)
        simp [Except.bind, Except.map, hload]

end Attempt

/-- Every start comes out in one of these ways. -/
theorem attempt (now : Millis) (c : StartCall L) (s : Scheduler L) :
    Attempt now c s (c.perform now s) := by
  cases c with
  | run identity args =>
    show Attempt now _ s (s.run now identity args)
    unfold Scheduler.run
    exact Attempt.startWith (c := .run identity args) rfl rfl rfl
  | start identity searchPath args =>
    show Attempt now _ s (s.start now identity searchPath args)
    unfold Scheduler.start
    exact Attempt.startWith (c := .start identity searchPath args) rfl rfl rfl
  | startScript name label script args =>
    show Attempt now _ s (s.startScript now name label script args)
    unfold Scheduler.startScript
    cases hfree : s.rejectLive label with
    | error e => exact .refused rfl hfree
    | ok free => exact .launch (c := .startScript name label script args) rfl hfree rfl
  | parse source =>
    show Attempt now _ s (s.parse now source)
    unfold Scheduler.parse
    cases hfree : s.rejectLive Scheduler.parseName with
    | error e => exact .refused rfl hfree
    | ok free =>
      simp only
      cases hload : ScriptLibrary.loadSource Scheduler.parseName source with
      | error e =>
        refine .unloaded rfl hfree ?_
        simp [StartCall.script, Except.map, hload]
      | ok program =>
        refine Attempt.launch (c := .parse source) rfl hfree ?_
        simp [StartCall.script, Except.map, hload]

/-! ## Starts that fail -/

namespace Scheduler

/-- The finished entries of a path are dropped only if there are some. -/
theorem forgetFinished_eq_self_iff {s : Scheduler L} {path : String} :
    s.forgetFinished path = s ↔ ∀ e ∈ s.table.members, e.path = path → e.isLive = true := by
  have hkept : (s.table.members.filter fun e => !(e.path == path && !e.isLive)) =
      s.table.members ↔ ∀ e ∈ s.table.members, e.path = path → e.isLive = true := by
    rw [List.filter_eq_self]
    simp [or_iff_not_imp_left]
  rw [← hkept]
  constructor
  · intro h
    exact congrArg (fun s => s.table.members) h
  · intro h
    have htable : s.table.forget path = s.table := by
      unfold ProcessTable.forget Roster.filter
      simp only [h]
    show { s with table := s.table.forget path } = s
    rw [htable]

end Scheduler

/-- **What a start that fails leaves behind**: the state as it was, unless no identifier is left
for a start that is otherwise in order. Then the finished entries of its path are gone, and nothing
else. -/
theorem failed_start_law (now : Millis) (c : StartCall L) (s : Scheduler L) :
    (∀ e, (c.perform now s).1 = .error e →
      (c.perform now s).2 = s ∨
        ∃ path, c.Exhausts s path ∧ e = .pidsExhausted ∧
          (c.perform now s).2 = s.forgetFinished path) ∧
    ((∀ e, (c.perform now s).1 = .error e → (c.perform now s).2 = s) ↔
      ∀ path, c.Exhausts s path → ∀ e ∈ s.table.members, e.path = path → e.isLive = true) := by
  have hattempt := attempt now c s
  generalize c.perform now s = result at hattempt ⊢
  refine ⟨?_, ?_, ?_⟩
  · intro e herror
    cases hattempt with
    | exhausted h => exact .inr ⟨_, h, (Except.error.inj herror).symm, rfl⟩
    | launched hpath hfree hscript hleft => exact absurd herror nofun
    | _ => exact .inl rfl
  · intro hkept path h
    cases hattempt with
    | @exhausted path' h' =>
      obtain rfl : path' = path := Except.ok.inj (h'.path_eq.symm.trans h.path_eq)
      exact Scheduler.forgetFinished_eq_self_iff.mp (hkept _ rfl)
    | unresolved hpath => exact absurd (hpath.symm.trans h.path_eq) nofun
    | refused hpath hbusy =>
      rw [Except.ok.inj (hpath.symm.trans h.path_eq), h.free] at hbusy
      exact absurd hbusy nofun
    | unloaded hpath hfree hscript =>
      obtain ⟨script, hloads⟩ := h.loads
      exact absurd (hscript.symm.trans hloads) nofun
    | launched hpath hfree hscript hleft => exact absurd h.limit (Nat.not_le_of_lt hleft)
  · intro hlive e herror
    cases hattempt with
    | exhausted h => exact Scheduler.forgetFinished_eq_self_iff.mpr (hlive _ h)
    | launched hpath hfree hscript hleft => exact absurd herror nofun
    | _ => rfl

/-! ### The last identifier -/

/-- The start of the visitor. -/
def visit : StartCall Playbook.ensemble :=
  .startScript "visitor" "visitor" (.playbook visitor) []

/-- The visitor is started so many times. -/
def visits (n : Nat) : List (Millis × Operation Playbook.ensemble) :=
  List.replicate n (0, .startScript "visitor" "visitor" (.playbook visitor) [])

/-- What so many visits lead to. -/
structure Visited (n : Nat) (s : Scheduler Playbook.ensemble) : Prop where
  nextPid : s.nextPid = n + 1
  options : s.options = visitorStart.options
  ended : ∀ p e, s.table.find? p = some e → e.isLive = false
  listed : 0 < n → ∃ p e, s.table.find? p = some e ∧ e.path = "visitor"

theorem Visited.free {n : Nat} {s : Scheduler Playbook.ensemble} (h : Visited n s) (path : String) :
    s.rejectLive path = .ok () := by
  unfold Scheduler.rejectLive
  cases hfirst : s.table.findPath? path with
  | none => rfl
  | some e =>
    have hover := h.ended e.pid e (Roster.find?_of_mem (List.mem_of_find?_eq_some hfirst))
    simp [hover]

/-- The visitor is done in its first service. -/
theorem service_visitor {s : Scheduler Playbook.ensemble} {p : Pid} {e : ProcessEntry}
    (hoptions : s.options = visitorStart.options)
    (hfind : s.threads.find? p = some (.start p "visitor" "visitor" [] (.playbook visitor) none))
    (hentry : s.table.find? p = some e) :
    (Scheduler.service Scheduler.spawn 0 p s).2.nextPid = s.nextPid ∧
      (Scheduler.service Scheduler.spawn 0 p s).2.options = s.options ∧
      ∀ q, (Scheduler.service Scheduler.spawn 0 p s).2.table.find? q =
        if q = p then some (e.exit 0 []) else s.table.find? q := by
  obtain ⟨t, hfind, hactive, hvalue, hrequests⟩ : ∃ t, s.threads.find? p = some t ∧
      t.isActive = true ∧ (s.activityOf 0 t).value = .resumed (.finished (.exited [])) ∧
      (s.activityOf 0 t).requests = [] := by
    refine ⟨_, hfind, rfl, ?_⟩
    unfold Scheduler.activityOf
    rw [hoptions]
    exact ⟨rfl, rfl⟩
  have htable : (s.absorb (s.activityOf 0 t)).table.find? p = some e := hentry
  have hframe := Scheduler.Frame.serve 0 p s
  obtain ⟨-, -, -, hrecord⟩ :=
    Scheduler.recordService_spec htable (.resumed (.finished (.exited []))) 0
  rw [Scheduler.service_of_active hfind hactive, hrequests]
  refine ⟨hframe.nextPid, hframe.options, ?_⟩
  show ∀ q, (s.serve 0 p).table.find? q = _
  rw [Scheduler.serve_eq hfind, hvalue]
  exact hrecord

theorem Visited.next {n : Nat} {s : Scheduler Playbook.ensemble} (h : Visited n s)
    (hleft : n + 1 < Pid.limit) : Visited (n + 1) (visit.perform 0 s).2 := by
  have hattempt := attempt 0 visit s
  generalize visit.perform 0 s = result at hattempt ⊢
  cases hattempt with
  | unresolved hpath => exact absurd hpath nofun
  | refused hpath hbusy => exact absurd ((h.free _).symm.trans hbusy) nofun
  | unloaded hpath hfree hscript => exact absurd hscript nofun
  | exhausted hout =>
    have hlimit := hout.limit
    rw [h.nextPid] at hlimit
    exact absurd hleft (Nat.not_lt_of_le hlimit)
  | @launched path script hpath hfree hscript _ =>
    obtain rfl : "visitor" = path := Except.ok.inj hpath
    obtain rfl := Except.ok.inj hscript
    have hqueue : s.options.queueLimit? = none := by
      rw [h.options]
      rfl
    have hentered := Scheduler.find?_enroll s 0 visit.name "visitor"
      (.playbook visitor) visit.args
    obtain ⟨hnext, hoptions, htable⟩ :=
      service_visitor (s := (s.forgetFinished "visitor").enroll 0 visit.name "visitor"
          (.playbook visitor) visit.args) (p := s.nextPid) h.options
        (hqueue ▸ Roster.find?_insert_self s.threads _) ((hentered s.nextPid).trans (if_pos rfl))
    refine ⟨hnext.trans (congrArg (· + 1) h.nextPid), hoptions.trans h.options, ?_, ?_⟩
    · intro q e he
      rw [htable, hentered] at he
      by_cases hq : q = s.nextPid
      · rw [if_pos hq] at he
        rw [← Option.some.inj he]
        rfl
      · rw [if_neg hq, if_neg hq, Option.filter_eq_some_iff] at he
        exact h.ended q e he.1
    · intro _
      exact ⟨s.nextPid, _, (htable _).trans (if_pos rfl), rfl⟩

/-- As long as there are identifiers, the visitor can come again. -/
theorem visited_visits {n : Nat} (hlt : n < Pid.limit) :
    Visited n (performAll (visits n) visitorStart) := by
  have hcome : ∀ {k m} {s : Scheduler Playbook.ensemble}, Visited m s → m + k < Pid.limit →
      Visited (m + k) (performAll (visits k) s) := by
    intro k
    induction k with
    | zero => exact fun h _ => h
    | succ k ih =>
      intro m s h hlt
      have hnext := ih (h.next (by omega)) (by omega)
      rwa [Nat.add_right_comm] at hnext
  have hstart : Visited 0 visitorStart := ⟨rfl, rfl, nofun, fun h => absurd h (Nat.lt_irrefl 0)⟩
  have hlast := hcome hstart (k := n) (by omega)
  rwa [Nat.zero_add] at hlast

/-- The start behind the one with the last identifier fails, and the finished entry of its path is
lost. -/
theorem failed_start_loses_visitor :
    (visit.perform 0 (performAll (visits (Pid.limit - 1)) visitorStart)).1 =
        .error .pidsExhausted ∧
      (visit.perform 0 (performAll (visits (Pid.limit - 1)) visitorStart)).2 ≠
        performAll (visits (Pid.limit - 1)) visitorStart := by
  have hvisited : Visited (Pid.limit - 1) (performAll (visits (Pid.limit - 1)) visitorStart) :=
    visited_visits (Nat.sub_lt (by decide) Nat.one_pos)
  generalize performAll (visits (Pid.limit - 1)) visitorStart = s at hvisited
  have hlimit : s.nextPid = Pid.limit := by
    rw [hvisited.nextPid]
    exact Nat.sub_add_cancel (by decide)
  have hattempt := attempt 0 visit s
  generalize visit.perform 0 s = result at hattempt ⊢
  cases hattempt with
  | unresolved hpath => exact absurd hpath nofun
  | refused hpath hbusy => exact absurd ((hvisited.free _).symm.trans hbusy) nofun
  | unloaded hpath hfree hscript => exact absurd hscript nofun
  | launched hpath hfree hscript hleft => exact absurd hlimit (Nat.ne_of_lt hleft)
  | @exhausted path h =>
    obtain rfl : "visitor" = path := Except.ok.inj h.path_eq
    refine ⟨rfl, fun hsame => ?_⟩
    obtain ⟨p, e, he, hpath⟩ := hvisited.listed (by decide)
    have hlive := Scheduler.forgetFinished_eq_self_iff.mp hsame e (Roster.mem_of_find? he) hpath
    exact absurd (hlive.symm.trans (hvisited.ended p e he)) nofun

end Heartbeat

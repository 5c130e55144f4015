import Heartbeat.Proofs.Scheduler.Allowance
import Heartbeat.Proofs.Scheduler.SinglePath

/-!
# What is to be done

A heartbeat has a row of threads to service; a service leaves the requests of its code, and a
request may launch a thread, which is to be serviced in turn. What a job leaves is done before
anything else that was to be done. So the work of an operation is an agenda that is worked off from
its front.

* `Job`: something to be done, with the moves that it makes and the jobs that it leaves.
* `Works`: an agenda is worked off; the log says in which state each job was begun.
* `Works.append`, `split`, `unique`, `perm`: agendas in a row, one log for an agenda, every job in
  it once.
* `serves_spawn`, `carries_spawn`: services and requests work their agendas off, however deep the
  launches go.
* `enters_operation`, `works_operation`: so do the operations of the host.
-/

namespace Heartbeat

variable {L : Language} {now : Millis}

/-! ## Jobs -/

namespace StartCall

/-- What a start needs: its path, which has to be free, and its script. -/
def ready (c : StartCall L) (s : Scheduler L) : Except StartError (String × L.Script) :=
  match c.path s with
  | .error e => .error e
  | .ok path =>
    match s.rejectLive path with
    | .error e => .error e
    | .ok () => (c.script s).map (path, ·)

/-- How a start comes out. -/
def result (c : StartCall L) (s : Scheduler L) : Except StartError Pid :=
  match c.ready s with
  | .error e => .error e
  | .ok _ => if Pid.limit ≤ s.nextPid then .error .pidsExhausted else .ok s.nextPid

/-- The moves of a start at a time, up to the first service of the thread. -/
def entry (now : Millis) (c : StartCall L) (s : Scheduler L) : List (Millis × Move L) :=
  match c.ready s with
  | .error _ => []
  | .ok (path, script) =>
    if Pid.limit ≤ s.nextPid then [(now, .forget path)]
    else [(now, .enroll c.name path script c.args)]

section Ready

variable {c : StartCall L} {s : Scheduler L} {path : String} {e : StartError}

theorem ready_of_unresolved (hpath : c.path s = .error e) : c.ready s = .error e := by
  unfold ready
  rw [hpath]

theorem ready_of_busy (hpath : c.path s = .ok path) (hbusy : s.rejectLive path = .error e) :
    c.ready s = .error e := by
  unfold ready
  rw [hpath]
  simp only [hbusy]

theorem ready_of_unloaded (hpath : c.path s = .ok path) (hfree : s.rejectLive path = .ok ())
    (hscript : c.script s = .error e) : c.ready s = .error e := by
  unfold ready
  rw [hpath]
  simp only [hfree, hscript]
  rfl

theorem ready_of_free {script : L.Script} (hpath : c.path s = .ok path)
    (hfree : s.rejectLive path = .ok ()) (hscript : c.script s = .ok script) :
    c.ready s = .ok (path, script) := by
  unfold ready
  rw [hpath]
  simp only [hfree, hscript]
  rfl

end Ready

end StartCall

/-- What code left as requests in the service of a thread, in the order in which it left them. -/
def Scheduler.asked (now : Millis) (p : Pid) (s : Scheduler L) : List Request :=
  match s.threads.find? p with
  | none => []
  | some t =>
    if t.isActive then
      Toll.asked (t.serviceTolls s.options.turbo (s.options.dispatch == .onResume) now s.world)
    else []

section Asked

variable {s : Scheduler L} {p : Pid} {t : Thread L}

theorem Scheduler.asked_of_active (hfind : s.threads.find? p = some t)
    (hactive : t.isActive = true) : s.asked now p = (s.activityOf now t).requests := by
  have hlaw := Thread.service_law t s.options.turbo (s.options.dispatch == .onResume) now s.world
  unfold asked
  rw [hfind]
  simp only [if_pos hactive]
  exact hlaw.requests.symm

theorem Scheduler.asked_of_idle (hidle : ¬ ∃ t, s.threads.find? p = some t ∧ t.isActive = true) :
    s.asked now p = [] := by
  unfold asked
  cases hfind : s.threads.find? p with
  | none => rfl
  | some t => exact if_neg fun hactive => hidle ⟨t, hfind, hactive⟩

end Asked

/-- Something to be done at a time. -/
inductive Job (L : Language) where
  | start (now : Millis) (call : StartCall L)
  | service (now : Millis) (pid : Pid)
  /-- The request of a thread is to be carried out that it made in a service at a time. -/
  | request (now : Millis) (asker : Pid) (request : Request)

namespace Job

/-- A thread that was launched is to be serviced, at the time of the launch. -/
def opening (now : Millis) : Except StartError Pid → List (Job L)
  | .error _ => []
  | .ok pid => [.service now pid]

/-- The jobs that a job leaves. -/
def leaves (s : Scheduler L) : Job L → List (Job L)
  | .start now call => opening now (call.result s)
  | .service now pid => (s.asked now pid).map (.request now pid)
  | .request now _ (.run script args) =>
    opening (s.launchTime now) ((StartCall.run script args).result s)
  | .request _ _ (.stop _) => []
  | .request _ _ (.pause _) => []

/-- The moves of a job, without those of the jobs that it leaves. -/
def moves (s : Scheduler L) : Job L → List (Millis × Move L)
  | .start now call => call.entry now s
  | .service now pid =>
    if (s.threads.find? pid).any Thread.isActive then [(now, .serve pid)] else []
  | .request now _ (.stop target) =>
    (s.stopMoves target).map (now, ·) ++ Scheduler.refusal now (s.stop target).1
  | .request now _ (.pause target) =>
    (s.pauseMoves target).map (now, ·) ++ Scheduler.refusal now (s.pause target).1
  | .request now _ (.run script args) =>
    (StartCall.run script args).entry (s.launchTime now) s ++
      Scheduler.refusal now (((StartCall.run script args).result s).mapError .start)

/-- The state behind a job, before the jobs that it leaves. -/
def apply (s : Scheduler L) (job : Job L) : Scheduler L := replay (job.moves s) s

/-- The request of a thread, if the job is to carry one out. -/
def requestOf? (p : Pid) : Job L → Option Request
  | .request _ asker r => if asker = p then some r else none
  | _ => none

theorem moves_of_active {s : Scheduler L} {p : Pid} {t : Thread L} (now : Millis)
    (hfind : s.threads.find? p = some t) (hactive : t.isActive = true) :
    (Job.service now p).moves s = [(now, .serve p)] :=
  if_pos ((Option.any_eq_true _ _).mpr ⟨t, hfind, hactive⟩)

theorem moves_of_idle {s : Scheduler L} {p : Pid} (now : Millis)
    (hidle : ¬ ∃ t, s.threads.find? p = some t ∧ t.isActive = true) :
    (Job.service now p).moves s = [] :=
  if_neg fun hany => hidle ((Option.any_eq_true _ _).mp hany)

theorem moves_run {script : String} {args : List String} {s : Scheduler L}
    {out : Except StartError Pid} (now : Millis) (p : Pid)
    (hout : (StartCall.run script args).result s = out) :
    (Job.request now p (.run script args)).moves s =
      (StartCall.run script args).entry (s.launchTime now) s ++
        Scheduler.refusal now (out.mapError .start) := by
  rw [← hout]
  rfl

theorem leaves_run {script : String} {args : List String} {s : Scheduler L}
    {out : Except StartError Pid} (now : Millis) (p : Pid)
    (hout : (StartCall.run script args).result s = out) :
    (Job.request now p (.run script args)).leaves s = opening (s.launchTime now) out := by
  rw [← hout]
  rfl

end Job

/-! ## Agendas -/

/-- **An agenda is worked off** from one state to another: its first job is done, and what it
leaves comes next. The log has the jobs in the order in which they are begun, each with the state
in which it is. -/
inductive Works :
    List (Job L) → Scheduler L → List (Job L × Scheduler L) → Scheduler L → Prop
  | nil (s : Scheduler L) : Works [] s [] s
  | cons {job : Job L} {agenda : List (Job L)} {s s' : Scheduler L}
      {done : List (Job L × Scheduler L)}
      (hrest : Works (job.leaves s ++ agenda) (job.apply s) done s') :
      Works (job :: agenda) s ((job, s) :: done) s'

/-- The moves of a log. -/
def movesOf (done : List (Job L × Scheduler L)) : List (Millis × Move L) :=
  done.flatMap fun x => x.1.moves x.2

theorem movesOf_cons (x : Job L × Scheduler L) (done : List (Job L × Scheduler L)) :
    movesOf (x :: done) = x.1.moves x.2 ++ movesOf done :=
  List.flatMap_cons

theorem movesOf_append (done done' : List (Job L × Scheduler L)) :
    movesOf (done ++ done') = movesOf done ++ movesOf done' :=
  List.flatMap_append

/-- The requests of a thread in a log. -/
def requestsOf (p : Pid) (done : List (Job L × Scheduler L)) : List Request :=
  done.filterMap fun x => x.1.requestOf? p

namespace Works

variable {agenda agenda' : List (Job L)} {s s' s'' : Scheduler L} {job : Job L}
  {done done' before rest : List (Job L × Scheduler L)} {x : Scheduler L} {p : Pid}

theorem append (h : Works agenda s done s') (h' : Works agenda' s' done' s'') :
    Works (agenda ++ agenda') s (done ++ done') s'' := by
  induction h with
  | nil => exact h'
  | cons _ ih =>
    refine .cons ?_
    have hboth := ih h'
    rwa [List.append_assoc] at hboth

/-- What is in front is worked off first. -/
theorem split (h : Works (agenda ++ agenda') s done s'') :
    ∃ first rest s', done = first ++ rest ∧ Works agenda s first s' ∧
      Works agenda' s' rest s'' := by
  generalize hall : agenda ++ agenda' = all at h
  induction h generalizing agenda with
  | nil s =>
    obtain ⟨rfl, rfl⟩ := List.append_eq_nil_iff.mp hall
    exact ⟨[], [], s, rfl, .nil s, .nil s⟩
  | @cons job others s s'' done hrest ih =>
    cases agenda with
    | nil =>
      rw [List.nil_append] at hall
      subst hall
      exact ⟨[], _, s, rfl, .nil s, .cons hrest⟩
    | cons first agenda =>
      rw [List.cons_append, List.cons.injEq] at hall
      obtain ⟨rfl, rfl⟩ := hall
      obtain ⟨inner, later, s', rfl, hfirst, hlater⟩ := ih (List.append_assoc _ _ _)
      exact ⟨(first, s) :: inner, later, s', rfl, .cons hfirst, hlater⟩

/-- There is one way to work an agenda off. -/
theorem unique (h : Works agenda s done s') (h' : Works agenda s done' s'') :
    done = done' ∧ s' = s'' := by
  induction h generalizing done' s'' with
  | nil =>
    cases h'
    exact ⟨rfl, rfl⟩
  | cons _ ih =>
    cases h' with
    | cons hrest =>
      obtain ⟨rfl, rfl⟩ := ih hrest
      exact ⟨rfl, rfl⟩

/-- The work makes the moves of its log. -/
theorem replay_eq (h : Works agenda s done s') :
    s' = replay (movesOf done) s := by
  induction h with
  | nil => rfl
  | cons _ ih =>
    rw [movesOf_cons, replay_append]
    exact ih

/-- **Every job is done once**: those of the agenda, and those that the jobs leave. -/
theorem perm (h : Works agenda s done s') :
    (done.map Prod.fst).Perm (agenda ++ done.flatMap fun x => x.1.leaves x.2) := by
  induction h with
  | nil => exact .nil
  | @cons job agenda s s' done _ ih =>
    rw [List.map_cons, List.cons_append, List.flatMap_cons]
    refine .cons _ (ih.trans ?_)
    rw [List.append_assoc]
    exact List.perm_append_comm_assoc _ _ _

/-- Where a log is at a job, the job is at the front of what is to be done, and it is begun in the
state behind the moves so far. -/
theorem at_job (h : Works agenda s done s') (hdone : done = before ++ (job, x) :: rest) :
    x = replay (movesOf before) s ∧
      ∃ agenda', Works (job :: agenda') x ((job, x) :: rest) s' := by
  induction h generalizing before with
  | nil => exact absurd hdone (by simp)
  | @cons first agenda s s' done hrest ih =>
    cases before with
    | nil =>
      obtain ⟨hfirst, rfl⟩ := List.cons.inj hdone
      cases hfirst
      exact ⟨rfl, agenda, .cons hrest⟩
    | cons y before =>
      rw [List.cons_append, List.cons.injEq] at hdone
      obtain ⟨rfl, hdone⟩ := hdone
      obtain ⟨hx, hwork⟩ := ih hdone
      refine ⟨?_, hwork⟩
      rw [movesOf_cons, replay_append]
      exact hx

end Works

/-! ## The agendas of the functions -/

/-- The work of an agenda leads from one state to another, and makes these moves. -/
def Settles (agenda : List (Job L)) (s : Scheduler L) (moves : List (Millis × Move L))
    (s' : Scheduler L) : Prop :=
  ∃ done, Works agenda s done s' ∧ movesOf done = moves

namespace Settles

variable {agenda agenda' : List (Job L)} {s s' s'' : Scheduler L}
  {moves moves' : List (Millis × Move L)} {job : Job L}

theorem nil (s : Scheduler L) : Settles [] s [] s := ⟨[], .nil s, rfl⟩

/-- Where nothing is to be done, nothing is. -/
theorem of_nil (h : Settles [] s moves s') : moves = [] ∧ s' = s := by
  obtain ⟨done, hdone, rfl⟩ := h
  cases hdone
  exact ⟨rfl, rfl⟩

theorem append (h : Settles agenda s moves s') (h' : Settles agenda' s' moves' s'') :
    Settles (agenda ++ agenda') s (moves ++ moves') s'' := by
  obtain ⟨done, hdone, rfl⟩ := h
  obtain ⟨done', hdone', rfl⟩ := h'
  exact ⟨done ++ done', hdone.append hdone', movesOf_append done done'⟩

/-- A job is done, and then what it leaves. -/
theorem of_leaves (h : Settles (job.leaves s) (job.apply s) moves s') :
    Settles [job] s (job.moves s ++ moves) s' := by
  obtain ⟨done, hdone, rfl⟩ := h
  refine ⟨(job, s) :: done, .cons ?_, movesOf_cons _ _⟩
  rwa [List.append_nil]

/-- A job that leaves nothing. -/
theorem single (hleaves : job.leaves s = []) (happly : job.apply s = s') :
    Settles [job] s (job.moves s) s' := by
  have hjob : Settles [job] s (job.moves s ++ []) (job.apply s) :=
    .of_leaves (hleaves ▸ .nil _)
  rwa [List.append_nil, happly] at hjob

end Settles

namespace Scheduler

/-- The services work their agendas off, as far as the next identifiers go. -/
def Serves (lower : Pid) (spawn : Spawn L) (moves : SpawnMoves L) : Prop :=
  ∀ now p s, lower ≤ s.nextPid → s.nextPid ≤ Pid.limit →
    Settles [.service now p] s (serviceMoves spawn moves now p s) (service spawn now p s).2

/-- The requests work their agendas off, as far as the next identifiers go. -/
def Carries (lower : Pid) (spawn : Spawn L) (moves : SpawnMoves L) : Prop :=
  ∀ now p r s, lower ≤ s.nextPid → s.nextPid ≤ Pid.limit →
    Settles [.request now p r] s (requestMoves spawn moves now s r) (applyRequest spawn now s r)

/-- **A start works its agenda off**: it comes out as it should, and the moves behind its own are
those of the first service. -/
structure Enters (now : Millis) (c : StartCall L) (s : Scheduler L)
    (out : Except StartError Pid × Scheduler L) (moves : List (Millis × Move L)) : Prop where
  result : out.1 = c.result s
  settles : ∃ inner, moves = c.entry now s ++ inner ∧
    Settles (Job.opening now (c.result s)) (replay (c.entry now s) s) inner out.2

section Start

variable {c : StartCall L} {s : Scheduler L} {spawn : Spawn L} {moves : SpawnMoves L} {lower : Pid}

theorem Enters.start {out : Except StartError Pid × Scheduler L} {ms : List (Millis × Move L)}
    (h : Enters now c s out ms) : Settles [.start now c] s ms out.2 := by
  obtain ⟨inner, rfl, hinner⟩ := h.settles
  have hjob : Settles [.start now c] s ((Job.start now c).moves s ++ inner) out.2 :=
    .of_leaves hinner
  exact hjob

/-- A start that does not get to the launch. -/
theorem Enters.of_unready {e : StartError} (h : c.ready s = .error e) :
    Enters now c s (.error e, s) [] := by
  have hresult : c.result s = .error e := by
    unfold StartCall.result
    rw [h]
  have hentry : c.entry now s = [] := by
    unfold StartCall.entry
    rw [h]
  refine ⟨hresult.symm, [], ?_, ?_⟩
  · rw [hentry]
    rfl
  · rw [hresult, hentry]
    exact .nil s

/-- A start that gets to the launch. -/
theorem Enters.of_launch (hserves : Serves lower spawn moves) (hlower : lower ≤ s.nextPid + 1)
    {path : String} {script : L.Script} (h : c.ready s = .ok (path, script)) :
    Enters now c s (launch spawn now c.name path script c.args (s.forgetFinished path))
      (launchMoves spawn moves now c.name path script c.args s) := by
  have hnext : (s.forgetFinished path).nextPid = s.nextPid := rfl
  unfold launch launchMoves
  rw [hnext]
  by_cases hlimit : Pid.limit ≤ s.nextPid
  · have hresult : c.result s = .error .pidsExhausted := by
      unfold StartCall.result
      rw [h]
      exact if_pos hlimit
    have hentry : c.entry now s = [(now, .forget path)] := by
      unfold StartCall.entry
      rw [h]
      exact if_pos hlimit
    rw [if_pos hlimit, if_pos hlimit]
    refine ⟨hresult.symm, [], ?_, ?_⟩
    · rw [hentry]
      rfl
    · rw [hresult, hentry]
      exact .nil _
  · have hresult : c.result s = .ok s.nextPid := by
      unfold StartCall.result
      rw [h]
      exact if_neg hlimit
    have hentry : c.entry now s = [(now, .enroll c.name path script c.args)] := by
      unfold StartCall.entry
      rw [h]
      exact if_neg hlimit
    rw [if_neg hlimit, if_neg hlimit]
    refine ⟨hresult.symm, serviceMoves spawn moves now s.nextPid
      ((s.forgetFinished path).enroll now c.name path script c.args), ?_, ?_⟩
    · rw [hentry]
      rfl
    · rw [hresult, hentry]
      exact hserves now s.nextPid _ hlower (Nat.lt_of_not_le hlimit)

/-- A start by an identity. -/
theorem Enters.startWith (hserves : Serves lower spawn moves) (hlower : lower ≤ s.nextPid + 1)
    {identity : String} {searchPath : List ScriptPath} (hname : c.name = identity)
    (hpath : c.path s = (s.library.resolve identity searchPath).map (·.text))
    (hscript : c.script s = StartCall.loaded s identity searchPath) :
    Enters now c s (startWith spawn now identity searchPath c.args s)
      (startWithMoves spawn moves now identity searchPath c.args s) := by
  subst hname
  unfold StartCall.loaded at hscript
  unfold Scheduler.startWith startWithMoves
  cases hresolve : s.library.resolve c.name searchPath with
  | error e =>
    rw [hresolve] at hpath
    exact .of_unready (StartCall.ready_of_unresolved hpath)
  | ok file =>
    rw [hresolve] at hpath hscript
    simp only
    cases hfree : s.rejectLive file.text with
    | error e => exact .of_unready (StartCall.ready_of_busy hpath hfree)
    | ok free =>
      simp only
      cases hload : s.library.load file with
      | error e =>
        refine .of_unready (StartCall.ready_of_unloaded hpath hfree (hscript.trans ?_))
        simp [Except.bind, Except.map, hload]
      | ok program =>
        refine .of_launch hserves hlower (StartCall.ready_of_free hpath hfree (hscript.trans ?_))
        simp [Except.bind, Except.map, hload]

end Start

section Service

variable {spawn : Spawn L} {moves : SpawnMoves L} {lower : Pid} (htraced : Traced spawn moves)

include htraced

/-- Stops and pauses leave nothing; a start leaves the first service of its thread. -/
theorem carries_of_enters
    (henters : ∀ now script args s, lower ≤ s.nextPid → s.nextPid ≤ Pid.limit →
      Enters now (.run script args) s (spawn now script args s) (moves now script args s)) :
    Carries lower spawn moves := by
  intro now p r s hlower hupper
  cases r with
  | stop target =>
    exact .single rfl (path_applyRequest htraced now s (.stop target)).path.replay_eq
  | pause target =>
    exact .single rfl (path_applyRequest htraced now s (.pause target)).path.replay_eq
  | run script args =>
    obtain ⟨hresult, inner, hmoves, hinner⟩ :=
      henters (s.launchTime now) script args s hlower hupper
    have hpath := (path_applyRequest htraced now s (.run script args)).path.replay_eq
    have hall : requestMoves spawn moves now s (.run script args) =
        (StartCall.run script args).entry (s.launchTime now) s ++ inner ++
          refusal now (((StartCall.run script args).result s).mapError .start) := by
      rw [← hmoves, ← hresult]
      rfl
    rw [hall] at hpath ⊢
    generalize hout : (StartCall.run script args).result s = out at hresult hpath hinner ⊢
    have hown := Job.moves_run now p hout
    have hleaves := Job.leaves_run now p hout
    cases out with
    | error e =>
      obtain ⟨rfl, -⟩ := hinner.of_nil
      rw [List.append_nil, ← hown] at hpath ⊢
      exact .single hleaves hpath
    | ok pid =>
      have hrefusal : refusal (L := L) now (Except.mapError RequestError.start (.ok pid)) = [] :=
        rfl
      have happly : (Job.request now p (.run script args)).apply s =
          replay ((StartCall.run script args).entry (s.launchTime now) s) s := by
        unfold Job.apply
        rw [hown, hrefusal, List.append_nil]
      have hlast : applyRequest spawn now s (.run script args) =
          (spawn (s.launchTime now) script args s).2 := by
        unfold applyRequest
        simp only
        generalize spawn (s.launchTime now) script args s = result at hresult
        obtain ⟨_ | _, s'⟩ := result
        · exact absurd hresult nofun
        · rfl
      rw [← happly, ← hleaves] at hinner
      have hjob : Settles [Job.request now p (.run script args)] s
          ((Job.request now p (.run script args)).moves s ++ inner)
          (spawn (s.launchTime now) script args s).2 :=
        .of_leaves hinner
      rw [hown, hrefusal, List.append_nil] at hjob
      rw [hlast, hrefusal, List.append_nil]
      exact hjob

/-- A row of requests. -/
theorem settles_requests (hcarries : Carries lower spawn moves) (now : Millis) (p : Pid)
    (requests : List Request) {s : Scheduler L} (hlower : lower ≤ s.nextPid)
    (hupper : s.nextPid ≤ Pid.limit) :
    Settles (requests.map (.request now p)) s (requestsMoves spawn moves now requests s)
      (applyRequests spawn now s requests) := by
  induction requests generalizing s with
  | nil => exact .nil s
  | cons r requests ih =>
    have hpath := (path_applyRequest htraced now s r).path
    exact (hcarries now p r s hlower hupper).append
      (ih (Nat.le_trans hlower hpath.nextPid_le) (hpath.nextPid_le_limit hupper))

/-- **A service leaves the requests of its code.** -/
theorem serves_of_carries (hcarries : Carries lower spawn moves) : Serves lower spawn moves := by
  intro now p s hlower hupper
  by_cases hactive : ∃ t, s.threads.find? p = some t ∧ t.isActive = true
  · obtain ⟨t, hfind, hactive⟩ := hactive
    have hnext : (s.serve now p).nextPid = s.nextPid := Move.nextPid_apply (.serve p) now s
    have hrequests := settles_requests htraced hcarries now p
      (s.activityOf now t).requests (Nat.le_trans hlower (Nat.le_of_eq hnext.symm))
      (Nat.le_trans (Nat.le_of_eq hnext) hupper)
    rw [service_of_active hfind hactive, serviceMoves_of_active hfind hactive]
    have hown := Job.moves_of_active now hfind hactive
    have hleaves : (Job.service now p).leaves s =
        (s.activityOf now t).requests.map (.request now p) :=
      congrArg (List.map (Job.request now p)) (asked_of_active hfind hactive)
    have happly : (Job.service now p).apply s = s.serve now p := by
      unfold Job.apply
      rw [hown]
      rfl
    rw [← hleaves, ← happly] at hrequests
    have hjob := Settles.of_leaves hrequests
    rwa [hown, happly] at hjob
  · rw [service_of_idle hactive, serviceMoves_of_idle hactive]
    have hown := Job.moves_of_idle now hactive
    have hleaves : (Job.service now p).leaves s = [] :=
      congrArg (List.map (Job.request now p)) (asked_of_idle hactive)
    have happly : (Job.service now p).apply s = s := by
      unfold Job.apply
      rw [hown]
      rfl
    have hjob := Settles.single hleaves happly
    rwa [hown] at hjob

end Service

/-- Nested starts work their agendas off: with every start the next identifier comes nearer to the
limit, behind which nothing is started. -/
theorem carries_spawnWithin (depth : Nat) :
    Carries (L := L) (Pid.limit + 1 - depth) (spawnWithin depth) (spawnMovesWithin depth) := by
  induction depth with
  | zero =>
    intro now p r s hlower hupper
    rw [Nat.sub_zero] at hlower
    exact absurd (Nat.le_trans hlower hupper) (Nat.not_succ_le_self Pid.limit)
  | succ depth ih =>
    refine carries_of_enters (traced_spawnWithin (depth + 1)) ?_
    intro now script args s hlower hupper
    have hserves := serves_of_carries (traced_spawnWithin depth) ih
    have hnearer : ∀ a b c : Nat, a + 1 - (b + 1) ≤ c → a + 1 - b ≤ c + 1 := by omega
    show Enters now _ s (startWith (spawnWithin depth) now script s.searchPath args s)
      (startWithMoves (spawnWithin depth) (spawnMovesWithin depth) now script s.searchPath args s)
    exact .startWith (c := .run script args) hserves (hnearer _ _ _ hlower) rfl rfl rfl

theorem carries_spawn : Carries (L := L) 1 spawn spawnMoves := by
  have hcarries := carries_spawnWithin (L := L) Pid.limit
  rwa [Nat.add_sub_cancel_left] at hcarries

theorem serves_spawn : Serves (L := L) 1 spawn spawnMoves :=
  serves_of_carries traced_spawn carries_spawn

theorem settles_serviceAll (now : Millis) (pids : List Pid) {s : Scheduler L}
    (hpos : 0 < s.nextPid) (hlimit : s.nextPid ≤ Pid.limit) :
    Settles (pids.map (.service now)) s (serviceAllMoves now pids s) (serviceAll now pids s).2 := by
  induction pids generalizing s with
  | nil => exact .nil s
  | cons pid pids ih =>
    have hpath := (path_service traced_spawn now pid s).path
    exact (serves_spawn now pid s hpos hlimit).append
      (ih (Nat.lt_of_lt_of_le hpos hpath.nextPid_le) (hpath.nextPid_le_limit hlimit))

end Scheduler

/-! ## The agendas of operations -/

/-- **The starts of the host work their agendas off.** -/
theorem enters_operation (now : Millis) (c : StartCall L) (s : Scheduler L) :
    Scheduler.Enters now c s (c.perform now s) (c.operation.moves now s) := by
  have hserves := Scheduler.serves_spawn (L := L)
  have hlower : 1 ≤ s.nextPid + 1 := Nat.le_add_left 1 s.nextPid
  cases c with
  | run identity args =>
    show Scheduler.Enters now _ s
      (Scheduler.startWith Scheduler.spawn now identity s.searchPath args s)
      (Scheduler.startWithMoves Scheduler.spawn Scheduler.spawnMoves now identity s.searchPath
        args s)
    exact .startWith (c := .run identity args) hserves hlower rfl rfl rfl
  | start identity searchPath args =>
    show Scheduler.Enters now _ s
      (Scheduler.startWith Scheduler.spawn now identity searchPath args s)
      (Scheduler.startWithMoves Scheduler.spawn Scheduler.spawnMoves now identity searchPath args s)
    exact .startWith (c := .start identity searchPath args) hserves hlower rfl rfl rfl
  | startScript name label script args =>
    show Scheduler.Enters now _ s (s.startScript now name label script args)
      (s.startScriptMoves now name label script args)
    unfold Scheduler.startScript Scheduler.startScriptMoves
    cases hfree : s.rejectLive label with
    | error e => exact .of_unready (StartCall.ready_of_busy rfl hfree)
    | ok free =>
      exact .of_launch (c := .startScript name label script args) hserves hlower
        (StartCall.ready_of_free rfl hfree rfl)
  | parse source =>
    show Scheduler.Enters now _ s (s.parse now source) (s.parseMoves now source)
    unfold Scheduler.parse Scheduler.parseMoves
    cases hfree : s.rejectLive Scheduler.parseName with
    | error e => exact .of_unready (StartCall.ready_of_busy rfl hfree)
    | ok free =>
      simp only
      cases hload : ScriptLibrary.loadSource Scheduler.parseName source with
      | error e =>
        refine .of_unready (StartCall.ready_of_unloaded rfl hfree ?_)
        simp [StartCall.script, Except.map, hload]
      | ok program =>
        refine Scheduler.Enters.of_launch (c := .parse source) hserves hlower
          (StartCall.ready_of_free rfl hfree ?_)
        simp [StartCall.script, Except.map, hload]

/-- What is to be done in an operation at a time. -/
def Operation.agenda (now : Millis) (s : Scheduler L) : Operation L → List (Job L)
  | .run identity args => [.start now (.run identity args)]
  | .start identity searchPath args => [.start now (.start identity searchPath args)]
  | .startScript name label script args => [.start now (.startScript name label script args)]
  | .parse source => [.start now (.parse source)]
  | .tick => s.livePids.map (.service now)
  | _ => []

/-- **The moves behind an agenda**: nobody is serviced, and where anything was to be done, it is
only cleared up. -/
structure Closes (agenda : List (Job L)) (moves : List (Millis × Move L)) : Prop where
  served : Move.served moves = []
  clearance : agenda = [] ∨ ∀ x ∈ moves, x.2.isClearance = true

theorem Closes.of_clearance {agenda : List (Job L)} {moves : List (Millis × Move L)}
    (h : ∀ x ∈ moves, x.2.isClearance = true) : Closes agenda moves :=
  ⟨Move.served_of_plain (Move.plain_of_clearance h), .inr h⟩

/-- **An operation works its agenda off.** -/
theorem works_operation (now : Millis) (op : Operation L) {s : Scheduler L} (hpos : 0 < s.nextPid)
    (hlimit : s.nextPid ≤ Pid.limit) :
    ∃ done s' closing, Works (op.agenda now s) s done s' ∧
      op.moves now s = movesOf done ++ closing ∧ Closes (op.agenda now s) closing := by
  have hstart : ∀ c : StartCall L, ∃ done s' closing, Works [.start now c] s done s' ∧
      c.operation.moves now s = movesOf done ++ closing ∧ Closes [.start now c] closing := by
    intro c
    obtain ⟨done, hdone, hmoves⟩ := (enters_operation now c s).start
    exact ⟨done, _, [], hdone, by rw [List.append_nil, hmoves], .of_clearance nofun⟩
  have hquiet : ∀ moves : List (Millis × Move L), (∀ x ∈ moves, x.2.isPlain = true) →
      ∃ done s' closing, Works ([] : List (Job L)) s done s' ∧
        moves = movesOf done ++ closing ∧ Closes ([] : List (Job L)) closing :=
    fun moves hplain => ⟨[], s, moves, .nil s, rfl, Move.served_of_plain hplain, .inl rfl⟩
  cases op with
  | run identity args => exact hstart (.run identity args)
  | start identity searchPath args => exact hstart (.start identity searchPath args)
  | startScript name label script args => exact hstart (.startScript name label script args)
  | parse source => exact hstart (.parse source)
  | tick =>
    obtain ⟨done, hdone, hmoves⟩ :=
      Scheduler.settles_serviceAll now s.livePids hpos hlimit
    let serviced := (Scheduler.serviceAll now s.livePids s).2
    refine ⟨done, serviced, serviced.sweepMoves.map (now, ·) ++
      ((serviced.sweep now).2.collectIfDueMoves now).map (now, ·), hdone, ?_, .of_clearance ?_⟩
    · rw [hmoves, ← List.append_assoc]
      rfl
    · exact List.forall_mem_append.mpr ⟨Scheduler.clearance_sweepMoves _,
        Scheduler.clearance_collectIfDueMoves now _⟩
  | stop target =>
    exact hquiet _ (Move.plain_of_control (Scheduler.control_stopMoves s target))
  | stopAll => exact hquiet _ (Move.plain_of_control (Scheduler.control_stopMoves s .all))
  | pause target =>
    exact hquiet _ (Move.plain_of_control (Scheduler.control_pauseMoves s target))
  | toggleAll => exact hquiet _ (Move.plain_of_control (Scheduler.control_toggleAllMoves s))
  | collectGarbage =>
    exact hquiet _ (Move.plain_of_clearance (Scheduler.clearance_collectGarbageMoves s))
  | feed line => exact hquiet _ (List.forall_mem_singleton.mpr rfl)
  | setTurbo turbo => exact ⟨[], s, [(now, .setTurbo turbo)], .nil s, rfl, rfl, .inl rfl⟩
  | drainStatus => exact hquiet _ (List.forall_mem_singleton.mpr rfl)
  | outside library world => exact hquiet _ (List.forall_mem_singleton.mpr rfl)

end Heartbeat

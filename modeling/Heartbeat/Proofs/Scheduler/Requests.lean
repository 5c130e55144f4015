import Heartbeat.Proofs.Scheduler.Agenda

/-!
# Requests

What the code of a thread asks for in a service is carried out behind the service, whatever the
service came to: every request once, in the order in which the code left it, and with all that it
leads to before the next one.

* `Request.carryOut`: a request is carried out as if the host had made it, and a failure is noted.
* `applyRequests_eq`: the scheduler carries requests out in order.
* `Works.requestsOf_eq`: the requests of a thread in a log are those of its one service.
* `request_law_of_create`: the law of requests.
-/

namespace Heartbeat

variable {L : Language} {now : Millis}

/-! ## Carrying out -/

/-- The failure that something came to, if it did. -/
def failureOf {α : Type} : Except RequestError α → Option RequestError
  | .error e => some e
  | .ok _ => none

theorem eq_error_of_failureOf {α : Type} {result : Except RequestError α} {e : RequestError}
    (h : failureOf result = some e) : result = .error e := by
  cases result with
  | error e' => exact congrArg _ (Option.some.inj h)
  | ok a => exact absurd h nofun

namespace Scheduler

variable {s : Scheduler L} {target : Target} {e : RequestError}

/-- A stop that fails found nothing, and changes nothing. -/
theorem stop_of_error (h : (s.stop target).1 = .error e) :
    target ≠ .all ∧ e = .noMatch target ∧ (s.stop target).2 = s := by
  by_cases hnone : target ≠ .all ∧ s.resolveActive target = []
  · have hstop : s.stop target = (.error (.noMatch target), s) := if_pos hnone
    rw [hstop] at h ⊢
    exact ⟨hnone.1, (Except.error.inj h).symm, rfl⟩
  · have hstop : s.stop target = (.ok _, _) := if_neg hnone
    rw [hstop] at h
    exact absurd h nofun

/-- A pause that fails changes nothing. -/
theorem pause_of_error (h : (s.pause target).1 = .error e) : (s.pause target).2 = s := by
  unfold pause at h ⊢
  by_cases hall : target = .all
  · rw [if_pos hall] at h ⊢
    unfold toggleAll at h ⊢
    cases hidle : s.activeThreads.isEmpty with
    | true => simp only [hidle, if_true]
    | false =>
      simp only [hidle, Bool.false_eq_true, if_false] at h
      split at h <;> exact absurd h nofun
  · rw [if_neg hall] at h ⊢
    cases hresolve : s.resolveActive target with
    | nil => rfl
    | cons pid pids =>
      rw [hresolve] at h
      exact absurd h nofun

end Scheduler

namespace Request

/-- What the host would do instead of the request. -/
def operation : Request → Operation L
  | .stop target => .stop target
  | .pause target => .pause target
  | .run script args => .run script args

/-- When a request is carried out that was made in a service at a time: a start reads the clock. -/
def time (now : Millis) (s : Scheduler L) : Request → Millis
  | .run _ _ => s.launchTime now
  | _ => now

/-- Why a request fails at a time, if it does. -/
def failure? (now : Millis) (s : Scheduler L) : Request → Option RequestError
  | .stop target => failureOf (s.stop target).1
  | .pause target => failureOf (s.pause target).1
  | .run script args => failureOf ((s.run now script args).1.mapError .start)

/-- A request that was made in a service at a time is carried out as if the host had made it at
the time that the clock shows then, and a failure is noted. -/
def carryOut (now : Millis) (s : Scheduler L) (r : Request) : Scheduler L :=
  match r.failure? (r.time now s) s with
  | none => r.operation.perform (r.time now s) s
  | some e => (r.operation.perform (r.time now s) s).announce (.refused e)

/-- A request that fails leaves no news of its own. -/
theorem status_operation {r : Request} {s : Scheduler L} {e : RequestError}
    (h : r.failure? now s = some e) : (r.operation.perform now s).status = s.status := by
  cases r with
  | stop target =>
    obtain ⟨-, -, hsame⟩ := Scheduler.stop_of_error (eq_error_of_failureOf h)
    exact congrArg (·.status) hsame
  | pause target =>
    exact congrArg (·.status) (Scheduler.pause_of_error (eq_error_of_failureOf h))
  | run script args =>
    obtain ⟨e', he'⟩ : ∃ e', (s.run now script args).1 = .error e' := by
      have herror : (s.run now script args).1.mapError .start = .error e :=
        eq_error_of_failureOf h
      cases hresult : (s.run now script args).1 with
      | error e' => exact ⟨e', rfl⟩
      | ok pid =>
        rw [hresult] at herror
        exact absurd herror nofun
    rcases (failed_start_law now (.run script args) s).1 e' he' with hsame | ⟨path, -, -, hgone⟩
    · exact congrArg (·.status) hsame
    · exact congrArg (·.status) hgone

/-- **A request that fails adds one piece of news**: a notice with the wording of the failure. -/
theorem status_carryOut {r : Request} {s : Scheduler L} {e : RequestError}
    (h : r.failure? (r.time now s) s = some e) :
    ∃ news, (r.carryOut now s).status = s.status ++ [news] ∧ news.kind = .notice ∧
      news.message = e.message := by
  refine ⟨.refused e, ?_, rfl, rfl⟩
  unfold carryOut
  rw [h]
  show (r.operation.perform (r.time now s) s).status ++ [.refused e] = _
  rw [status_operation h]

end Request

namespace Scheduler

variable {s : Scheduler L}

/-- A request is carried out in the middle of an operation as it would be between two of them. -/
theorem applyRequest_eq (hpos : 0 < s.nextPid) (hlimit : s.nextPid ≤ Pid.limit) (now : Millis)
    (r : Request) : applyRequest spawn now s r = r.carryOut now s := by
  unfold applyRequest Request.carryOut
  cases r with
  | stop target =>
    unfold Request.failure? Request.operation Operation.perform
    simp only
    rcases s.stop target with ⟨_ | _, s'⟩ <;> rfl
  | pause target =>
    unfold Request.failure? Request.operation Operation.perform
    simp only
    rcases s.pause target with ⟨_ | _, s'⟩ <;> rfl
  | run script args =>
    unfold Request.failure? Request.operation Operation.perform
    simp only [Request.time, spawn_eq_run hpos hlimit]
    rcases s.run (s.launchTime now) script args with ⟨_ | _, s'⟩ <;> rfl

/-- **Requests are carried out in order**, whether the ones before fail or not. -/
theorem applyRequests_eq (hpos : 0 < s.nextPid) (hlimit : s.nextPid ≤ Pid.limit) (now : Millis)
    (requests : List Request) :
    applyRequests spawn now s requests = requests.foldl (Request.carryOut now) s := by
  induction requests generalizing s with
  | nil => rfl
  | cons r requests ih =>
    have hpath := (path_applyRequest traced_spawn now s r).path
    have hrest := ih (Nat.lt_of_lt_of_le hpos hpath.nextPid_le) (hpath.nextPid_le_limit hlimit)
    show applyRequests spawn now (applyRequest spawn now s r) requests = _
    rw [hrest, applyRequest_eq hpos hlimit, List.foldl_cons]

end Scheduler

/-! ## The log of the requests -/

namespace Job

variable {s : Scheduler L} {p : Pid}

/-- The thread that is serviced in a job. -/
def serviced? (s : Scheduler L) : Job L → Option Pid
  | .service _ p => if (s.threads.find? p).any Thread.isActive then some p else none
  | _ => none

theorem serviced_of_active {t : Thread L} (now : Millis) (hfind : s.threads.find? p = some t)
    (hactive : t.isActive = true) : (Job.service now p).serviced? s = some p :=
  if_pos ((Option.any_eq_true _ _).mpr ⟨t, hfind, hactive⟩)

theorem serviced_of_idle (now : Millis)
    (hidle : ¬ ∃ t, s.threads.find? p = some t ∧ t.isActive = true) :
    (Job.service now p).serviced? s = none :=
  if_neg fun hany => hidle ((Option.any_eq_true _ _).mp hany)

theorem served_entry (now : Millis) (c : StartCall L) (s : Scheduler L) :
    Move.served (c.entry now s) = [] := by
  unfold StartCall.entry
  split
  · rfl
  · split <;> rfl

theorem served_moves (job : Job L) (s : Scheduler L) :
    Move.served (job.moves s) = (job.serviced? s).toList := by
  have hcontrol : ∀ {moves : List (Millis × Move L)}, (∀ x ∈ moves, x.2.isControl = true) →
      Move.served moves = [] := fun h => Move.served_of_plain (Move.plain_of_control h)
  cases job with
  | start now c => exact served_entry now c s
  | service now p =>
    by_cases hactive : ∃ t, s.threads.find? p = some t ∧ t.isActive = true
    · obtain ⟨t, hfind, hactive⟩ := hactive
      rw [moves_of_active now hfind hactive, serviced_of_active now hfind hactive]
      rfl
    · rw [moves_of_idle now hactive, serviced_of_idle now hactive]
      rfl
  | request now p r =>
    cases r with
    | stop target =>
      exact hcontrol (List.forall_mem_append.mpr
        ⟨Scheduler.control_stopMoves s target, Scheduler.control_refusal _⟩)
    | pause target =>
      exact hcontrol (List.forall_mem_append.mpr
        ⟨Scheduler.control_pauseMoves s target, Scheduler.control_refusal _⟩)
    | run script args =>
      have hentry := served_entry (s.launchTime now) (.run script args) s
      have hrefusal : Move.served (Scheduler.refusal (L := L) now
          (((StartCall.run script args).result s).mapError .start)) = [] :=
        hcontrol (Scheduler.control_refusal _)
      show Move.served (_ ++ _) = []
      rw [Move.served_append, hentry, hrefusal]
      rfl

/-- Only the service of a thread leaves requests of it. -/
theorem requestOf_leaves {job job' : Job L} (hserved : job.serviced? s ≠ some p)
    (hmem : job' ∈ job.leaves s) : job'.requestOf? p = none := by
  have hopening : ∀ {time : Millis} {result : Except StartError Pid},
      job' ∈ opening time result → job'.requestOf? p = none := by
    intro time result h
    cases result with
    | error e => exact absurd h List.not_mem_nil
    | ok pid =>
      rw [List.mem_singleton.mp h]
      rfl
  cases job with
  | start time c => exact hopening hmem
  | service time q =>
    obtain ⟨r, hr, rfl⟩ := List.mem_map.mp hmem
    refine if_neg ?_
    rintro rfl
    by_cases hactive : ∃ t, s.threads.find? q = some t ∧ t.isActive = true
    · obtain ⟨t, hfind, hactive⟩ := hactive
      exact hserved (serviced_of_active time hfind hactive)
    · rw [Scheduler.asked_of_idle hactive] at hr
      exact absurd hr List.not_mem_nil
  | request time asker r =>
    cases r with
    | run script args => exact hopening hmem
    | stop target | pause target => exact absurd hmem List.not_mem_nil

end Job

theorem requestsOf_cons (p : Pid) (x : Job L × Scheduler L) (done : List (Job L × Scheduler L)) :
    requestsOf p (x :: done) = (x.1.requestOf? p).toList ++ requestsOf p done := by
  unfold requestsOf
  rw [List.filterMap_cons]
  cases x.1.requestOf? p <;> rfl

theorem requestsOf_append (p : Pid) (done done' : List (Job L × Scheduler L)) :
    requestsOf p (done ++ done') = requestsOf p done ++ requestsOf p done' :=
  List.filterMap_append

namespace Works

variable {agenda : List (Job L)} {s s' x : Scheduler L} {job : Job L} {p : Pid}
  {done before rest : List (Job L × Scheduler L)}

theorem served_movesOf (done : List (Job L × Scheduler L)) :
    Move.served (movesOf done) = done.filterMap fun x => x.1.serviced? x.2 := by
  induction done with
  | nil => rfl
  | cons x done ih =>
    rw [movesOf_cons, Move.served_append, x.1.served_moves x.2, ih, List.filterMap_cons]
    cases x.1.serviced? x.2 <;> rfl

theorem served_append (done done' : List (Job L × Scheduler L)) :
    Move.served (movesOf (done ++ done')) =
      Move.served (movesOf done) ++ Move.served (movesOf done') := by
  rw [movesOf_append]
  exact Move.served_append _ _

/-- What a job leaves comes right behind it. -/
theorem follow (h : Works (job :: agenda) x ((job, x) :: rest) s') :
    ∃ mine later s'', rest = mine ++ later ∧
      Works (job.leaves x) (job.apply x) mine s'' ∧ Works agenda s'' later s' := by
  cases h with
  | cons hrest =>
    exact hrest.split

/-- A piece of work in which a thread is not serviced has no requests of it, if none were to be
carried out before. -/
theorem undisturbed (h : Works agenda s (before ++ rest) s')
    (hagenda : ∀ job ∈ agenda, job.requestOf? p = none)
    (hserved : p ∉ Move.served (movesOf before)) :
    requestsOf p before = [] ∧
      ∃ agenda' x, Works agenda' x rest s' ∧ ∀ job ∈ agenda', job.requestOf? p = none := by
  induction before generalizing agenda s with
  | nil => exact ⟨rfl, agenda, s, h, hagenda⟩
  | cons first before ih =>
    cases h with
    | @cons job agenda _ _ _ hrest =>
      rw [List.forall_mem_cons] at hagenda
      rw [served_movesOf, List.mem_filterMap] at hserved
      have hleaves : ∀ job' ∈ job.leaves s, job'.requestOf? p = none := fun job' hmem =>
        job.requestOf_leaves (fun hserviced => hserved ⟨_, List.mem_cons_self, hserviced⟩) hmem
      have hlater : p ∉ Move.served (movesOf before) := by
        rw [served_movesOf, List.mem_filterMap]
        rintro ⟨x, hx, hserviced⟩
        exact hserved ⟨x, List.mem_cons_of_mem _ hx, hserviced⟩
      obtain ⟨hnone, hbehind⟩ := ih hrest (List.forall_mem_append.mpr ⟨hleaves, hagenda.2⟩) hlater
      refine ⟨?_, hbehind⟩
      rw [requestsOf_cons, hagenda.1, hnone]
      rfl

/-- The same for the whole of the work. -/
theorem requestsOf_eq_nil (h : Works agenda s done s')
    (hagenda : ∀ job ∈ agenda, job.requestOf? p = none)
    (hserved : p ∉ Move.served (movesOf done)) : requestsOf p done = [] := by
  rw [← List.append_nil done] at h
  exact (h.undisturbed hagenda hserved).1

/-- The requests of a thread in the work of its requests are these, in order. -/
theorem requestsOf_of_requests {requests : List Request}
    (h : Works (requests.map (.request now p)) s done s')
    (hserved : p ∉ Move.served (movesOf done)) : requestsOf p done = requests := by
  induction requests generalizing s done with
  | nil =>
    cases h
    rfl
  | cons r requests ih =>
    cases h with
    | @cons _ _ _ _ done hrest =>
      obtain ⟨inner, later, x, rfl, hinner, hlater⟩ := hrest.split
      have hown : (Job.request now p r : Job L).requestOf? p = some r := if_pos rfl
      have hidle : (Job.request now p r).serviced? s ≠ some p := by
        show none ≠ some p
        nofun
      have hleaves : ∀ job ∈ (Job.request now p r).leaves s, job.requestOf? p = none :=
        fun job hmem => Job.requestOf_leaves hidle hmem
      rw [← List.singleton_append, served_append, served_append, List.mem_append, List.mem_append,
        not_or, not_or] at hserved
      rw [requestsOf_cons, requestsOf_append, hown,
        hinner.requestsOf_eq_nil hleaves hserved.2.1, ih hlater hserved.2.2]
      rfl

/-- **The requests of a thread in a log are those of its one service**, in order. -/
theorem requestsOf_eq {t : Thread L}
    (h : Works agenda s (before ++ (.service now p, x) :: rest) s')
    (hagenda : ∀ job ∈ agenda, job.requestOf? p = none)
    (honce : (Move.served (movesOf (before ++ (.service now p, x) :: rest))).Nodup)
    (hfind : x.threads.find? p = some t) (hactive : t.isActive = true) :
    requestsOf p (before ++ (.service now p, x) :: rest) = x.asked now p := by
  have hown : Move.served (movesOf [(.service now p, x)]) = [p] := by
    rw [served_movesOf, List.filterMap_cons, Job.serviced_of_active now hfind hactive]
    rfl
  rw [← List.singleton_append, served_append, served_append, hown, List.singleton_append,
    List.nodup_middle, List.nodup_cons, List.mem_append, not_or] at honce
  obtain ⟨hbefore, agenda', y, hfrom, hagenda'⟩ := h.undisturbed hagenda honce.1.1
  cases hfrom with
  | @cons _ agenda' _ _ _ hrest =>
    rw [List.forall_mem_cons] at hagenda'
    obtain ⟨mine, later, y, rfl, hmine, hlater⟩ := hrest.split
    rw [served_append, List.mem_append, not_or] at honce
    rw [requestsOf_append, requestsOf_cons, requestsOf_append, hbefore,
      hmine.requestsOf_of_requests honce.1.2.1,
      hlater.requestsOf_eq_nil hagenda'.2 honce.1.2.2, List.append_nil]
    rfl

end Works

/-! ## The law -/

/-- **The law of requests** in an operation, by the log of its work. Every job of the log has the
time at which it is done. -/
structure RequestLaw (now : Millis) (op : Operation L) (s : Scheduler L)
    (done : List (Job L × Scheduler L)) : Prop where
  /-- The operation works its agenda off, and makes the moves of the log. Behind that it services
  nobody and carries nothing out. -/
  works : ∃ s' closing, Works (op.agenda now s) s done s' ∧ Path s (movesOf done) s' ∧
    Path s' closing (op.perform now s) ∧ Closes (op.agenda now s) closing
  /-- There is no other log. -/
  only : ∀ done' s', Works (op.agenda now s) s done' s' → done' = done
  /-- Every job is done once: those of the agenda, and those that the jobs leave. -/
  all : (done.map Prod.fst).Perm (op.agenda now s ++ done.flatMap fun x => x.1.leaves x.2)
  /-- Every job is begun behind the moves of the jobs before it. -/
  begun : ∀ before job x rest, done = before ++ (job, x) :: rest → x = replay (movesOf before) s
  /-- The services of the operation are in the log. -/
  services : Move.served (op.moves now s) = done.filterMap fun x => x.1.serviced? x.2
  /-- The outcome of a service is recorded at once. Then the requests that the code left in it are
  carried out, in order, before anything else is done. -/
  settled : ∀ before time p x rest t, done = before ++ (.service time p, x) :: rest →
    x.threads.find? p = some t → t.isActive = true →
      (∃ e, x.table.find? p = some e ∧
        (x.serve time p).table.find? p = some ((x.activityOf time t).value.close time e)) ∧
      ∃ mine later, rest = mine ++ later ∧
        Works ((x.asked time p).map (.request time p)) (x.serve time p) mine
          ((x.asked time p).foldl (Request.carryOut time) (x.serve time p))
  /-- The log has no other requests of the thread. -/
  once : ∀ before time p x rest t, done = before ++ (.service time p, x) :: rest →
    x.threads.find? p = some t → t.isActive = true → requestsOf p done = x.asked time p
  /-- It has none of a thread that is not serviced. -/
  none : ∀ p, p ∉ Move.served (op.moves now s) → requestsOf p done = []
  /-- All that a request leads to is done before anything else: it comes to what the host would
  have come to. -/
  carried : ∀ before time p r x rest, done = before ++ (.request time p r, x) :: rest →
    ∃ inner later, rest = inner ++ later ∧
      Works [.request time p r] x ((.request time p r, x) :: inner) (r.carryOut time x)
  /-- A request that fails adds one notice with the wording of the failure. -/
  failed : ∀ time p r x e, (.request time p r, x) ∈ done → r.failure? (r.time time x) x = some e →
    ∃ news, (r.carryOut time x).status = x.status ++ [news] ∧ news.kind = .notice ∧
      news.message = e.message

/-- Nothing is asked for before an operation begins. -/
theorem Operation.requestOf_agenda (op : Operation L) (s : Scheduler L) (p : Pid) :
    ∀ job ∈ op.agenda now s, job.requestOf? p = none := by
  have hstart : ∀ c : StartCall L, ∀ job ∈ [Job.start now c], job.requestOf? p = none := fun c =>
    List.forall_mem_singleton.mpr rfl
  cases op with
  | run | start | startScript | parse => exact hstart _
  | tick => exact List.forall_mem_map.mpr fun _ _ => rfl
  | _ => nofun

namespace Works

variable {agenda : List (Job L)} {s s' x : Scheduler L} {p : Pid}
  {done before rest : List (Job L × Scheduler L)}

section Job

variable (hacc : x.Accord) (hlimit : x.nextPid ≤ Pid.limit)

include hacc hlimit

/-- The requests of a service are carried out behind the record of its outcome. -/
theorem settled {t : Thread L}
    (h : Works (.service now p :: agenda) x ((.service now p, x) :: rest) s')
    (hfind : x.threads.find? p = some t) (hactive : t.isActive = true) :
    (∃ e, x.table.find? p = some e ∧
      (x.serve now p).table.find? p = some ((x.activityOf now t).value.close now e)) ∧
    ∃ mine later, rest = mine ++ later ∧
      Works ((x.asked now p).map (.request now p)) (x.serve now p) mine
        ((x.asked now p).foldl (Request.carryOut now) (x.serve now p)) := by
  obtain ⟨e, he, -⟩ := Scheduler.entry_of_script hfind (hacc.slots p)
    (Thread.not_terminated_of_active hactive)
  have habsorbed : (x.absorb (x.activityOf now t)).table.find? p = some e := he
  obtain ⟨-, -, -, hrecord⟩ :=
    Scheduler.recordService_spec habsorbed (x.activityOf now t).value now
  refine ⟨⟨e, he, ?_⟩, ?_⟩
  · rw [Scheduler.serve_eq hfind, hrecord, if_pos rfl]
  · obtain ⟨mine, later, s'', rfl, hmine, -⟩ := h.follow
    have hserve : (Job.service now p).apply x = x.serve now p := by
      unfold Job.apply
      rw [Job.moves_of_active now hfind hactive]
      rfl
    have hnext : (x.serve now p).nextPid = x.nextPid := Move.nextPid_apply (.serve p) now x
    have hpos : 0 < (x.serve now p).nextPid := hnext.symm ▸ hacc.positive
    have hleft : (x.serve now p).nextPid ≤ Pid.limit := hnext.symm ▸ hlimit
    obtain ⟨mine', hmine', -⟩ := Scheduler.settles_requests Scheduler.traced_spawn
      Scheduler.carries_spawn now p (x.asked now p) hpos hleft
    rw [hserve] at hmine
    obtain ⟨rfl, hlast⟩ := hmine.unique hmine'
    rw [← Scheduler.applyRequests_eq hpos hleft]
    exact ⟨mine, later, rfl, hmine'⟩

/-- A request comes to what the host would have come to. -/
theorem carried {r : Request}
    (h : Works (.request now p r :: agenda) x ((.request now p r, x) :: rest) s') :
    ∃ inner later, rest = inner ++ later ∧
      Works [.request now p r] x ((.request now p r, x) :: inner) (r.carryOut now x) := by
  obtain ⟨inner, later, s'', rfl, hinner, -⟩ := h.follow
  have hwork : Works [.request now p r] x ((.request now p r, x) :: inner) s'' := by
    refine .cons ?_
    rwa [List.append_nil]
  obtain ⟨done, hdone, -⟩ := Scheduler.carries_spawn now p r x hacc.positive hlimit
  obtain ⟨-, hlast⟩ := hwork.unique hdone
  rw [hlast, Scheduler.applyRequest_eq hacc.positive hlimit] at hwork
  exact ⟨inner, later, rfl, hwork⟩

end Job

end Works

/-- What an operation leaves to be done is done by the law. -/
theorem requestLaw {s : Scheduler L} (hacc : s.Accord) (hlimit : s.nextPid ≤ Pid.limit)
    (now : Millis) (op : Operation L) : ∃ done, RequestLaw now op s done := by
  obtain ⟨done, s', closing, hworks, hmoves, hclosing⟩ :=
    works_operation now op hacc.positive hlimit
  have hpath := (path_perform now op s).1
  rw [hmoves] at hpath
  obtain ⟨hwork, hlast⟩ := hpath.split
  rw [← hworks.replay_eq] at hwork hlast
  have hserved : Move.served (op.moves now s) = Move.served (movesOf done) := by
    rw [hmoves, Move.served_append, hclosing.served, List.append_nil]
  have hnodup := Operation.served_nodup hacc op now
  rw [hserved] at hnodup
  -- where a job is begun, the scheduler is in a state of its own, as between two operations
  have hbegun : ∀ {before job x rest}, done = before ++ (job, x) :: rest →
      x.Accord ∧ x.nextPid ≤ Pid.limit := by
    intro before job x rest hdone
    obtain ⟨hx, -⟩ := hworks.at_job hdone
    rw [hdone, movesOf_append] at hwork
    have hfirst := hwork.split.1
    rw [← hx] at hfirst
    exact ⟨hfirst.accord hacc, hfirst.nextPid_le_limit hlimit⟩
  refine ⟨done, ⟨s', closing, hworks, hwork, hlast, hclosing⟩, ?_, hworks.perm, ?_, ?_, ?_, ?_, ?_,
    ?_, ?_⟩
  · exact fun done' s'' hworks' => (hworks'.unique hworks).1
  · exact fun before job x rest hdone => (hworks.at_job hdone).1
  · rw [hserved, Works.served_movesOf]
  · intro before time p x rest t hdone hfind hactive
    obtain ⟨-, agenda, hfrom⟩ := hworks.at_job hdone
    exact hfrom.settled (hbegun hdone).1 (hbegun hdone).2 hfind hactive
  · rintro before time p x rest t rfl hfind hactive
    exact hworks.requestsOf_eq (op.requestOf_agenda s p) hnodup hfind hactive
  · intro p hp
    rw [hserved] at hp
    exact hworks.requestsOf_eq_nil (op.requestOf_agenda s p) hp
  · intro before time p r x rest hdone
    obtain ⟨-, agenda, hfrom⟩ := hworks.at_job hdone
    exact hfrom.carried (hbegun hdone).1 (hbegun hdone).2
  · exact fun time p r x e _ hfailure => Request.status_carryOut hfailure

/-- **The law of requests holds in every operation of every run**, whatever the scripts ask for. -/
theorem request_law_of_create (options : SchedulerOptions) (library : ScriptLibrary)
    (searchPath : List ScriptPath) (world : L.World) (start : Millis) (clock : Clock)
    (ops : List (Millis × Operation L)) (now : Millis) (op : Operation L) :
    ∃ done, RequestLaw now op
      (performAll ops (Scheduler.create (L := L) options library searchPath world start clock))
      done := by
  have hpath := path_history ops
    (Scheduler.create (L := L) options library searchPath world start clock)
  have hacc := hpath.accord (Scheduler.accord_create options library searchPath world start clock)
  have hfirst :=
    Scheduler.nextPid_create_le (L := L) options library searchPath world start clock
  exact requestLaw hacc (hpath.nextPid_le_limit hfirst) now op

end Heartbeat

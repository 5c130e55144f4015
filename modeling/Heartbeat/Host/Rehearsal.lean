import Heartbeat.Host.Basic

/-!
# Rehearsals

A rehearsal runs a host on a virtual clock that starts at zero. Heartbeat `k` comes at `k` times the
interval. Input lines are given for slots: slot `k` lies half an interval behind heartbeat `k`. The
input may end at a slot, behind its lines. A host that has not ended by the last slot is cut off.

* `Rehearsal`: the lines, the end of the input and the last slot.
* `Rehearsal.play`: the run, as a `Transcript` of what was shown when.

A line that is no event is turned down. Once the host has ended or was cut off, lines are turned
down only up to the first one that is an event.
-/

namespace Heartbeat

/-- What happens around a host. -/
structure Rehearsal where
  /-- Lines with their slots, in order. A line whose slot is past comes at once. -/
  lines : List (Nat × String)
  /-- The slot at which the input ends, if it ends. -/
  closeAfter? : Option Nat
  /-- The slot at which a host is cut off. -/
  lastSlot : Nat
deriving Repr, DecidableEq

/-- What a rehearsal leads to. -/
structure Transcript (L : Language) where
  host : Host L
  /-- What was shown, with the times. -/
  news : List (Millis × StatusEvent)
  /-- What was said of lines that were turned down. -/
  rejected : List String
  endedAt : Millis
  /-- Whether the host ended before it was cut off. -/
  returned : Bool

namespace Rehearsal

variable {L : Language}

/-- The time of a heartbeat. -/
def beatTime (options : HostOptions) (k : Nat) : Millis := k * options.interval

/-- The time of a slot. -/
def slotTime (options : HostOptions) (k : Nat) : Millis :=
  k * options.interval + options.interval / 2

/-- The host takes a line, or it is turned down. -/
def takeLine (start time : Millis) (t : Transcript L) (line : String) : Transcript L :=
  match HostEvent.ofLine line with
  | .error e => { t with rejected := t.rejected ++ [e.message] }
  | .ok event =>
    let reply := t.host.handle (start + time) event
    { t with host := reply.host, news := t.news ++ reply.news.map (time, ·) }

/-- The input ends. -/
def endInput (start time : Millis) (t : Transcript L) : Transcript L :=
  let reply := t.host.step (start + time) .inputEnds
  { t with host := reply.host, news := t.news ++ reply.news.map (time, ·) }

/-- What is said of the lines before the first one that is an event. -/
def leftOver : List (Nat × String) → List String
  | [] => []
  | (_, line) :: rest =>
    match HostEvent.ofLine line with
    | .ok _ => []
    | .error e => e.message :: leftOver rest

/-- The heartbeats from `k` on, `slots` slots before the last one, with the lines that are left. -/
def playFrom (start : Millis) :
    Nat → Nat → List (Nat × String) → Option Nat → Transcript L → Transcript L
  | slots, k, lines, closeAfter?, t =>
    let time := beatTime t.host.options k
    let reply := t.host.beat (start + time)
    let t := { t with host := reply.host, news := t.news ++ reply.news.map (time, ·) }
    if reply.ends then
      { t with rejected := t.rejected ++ leftOver lines, endedAt := time, returned := true }
    else
      let time := slotTime t.host.options k
      match slots with
      | 0 => { t with rejected := t.rejected ++ leftOver lines, endedAt := time }
      | slots + 1 =>
        let due := lines.takeWhile (·.1 ≤ k)
        let later := lines.dropWhile (·.1 ≤ k)
        let t := due.foldl (fun t (_, line) => takeLine start time t line) t
        match closeAfter? with
        | some slot =>
          if slot ≤ k && later.isEmpty then
            playFrom start slots (k + 1) later none (endInput start time t)
          else playFrom start slots (k + 1) later closeAfter? t
        | none => playFrom start slots (k + 1) later none t

/-- The run of a host whose clock shows `start` at the beginning (`HostRuntime.run`). -/
def play (r : Rehearsal) (start : Millis) (host : Host L) : Transcript L :=
  playFrom start r.lastSlot 0 r.lines r.closeAfter? ⟨host, [], [], 0, false⟩

end Rehearsal

end Heartbeat

/-!
# Faults

A fault ends a script. It has a message and may say where it arose.

* `Fault.detail`: the message with the place behind it.
* `Fault.ofPanic`: the fault of code that broke down.
-/

namespace Heartbeat

/-- Why a script ended before its time (`ScriptFault`). -/
structure Fault where
  message : String
  context? : Option String
deriving Repr, DecidableEq

/-- The text that a breakdown left, or what is said when it left none (`panic_message`). -/
def panicText (text? : Option String) : String := text?.getD "unknown panic"

namespace Fault

/-- The message, with the place behind it if there is one (`record_outcome`). -/
def detail (f : Fault) : String :=
  match f.context? with
  | some context => s!"{f.message} ({context})"
  | none => f.message

/-- The fault of code that broke down (`fault_from_panic`). -/
def ofPanic (text? : Option String) : Fault := ⟨s!"script panicked: {panicText text?}", none⟩

/-- The fault of a wait condition that broke down (`ScriptThread.poll_eligible`). -/
def ofCondition (text? : Option String) : Fault :=
  { ofPanic text? with context? := some "wait condition" }

end Fault

/-- How a callback went wrong. -/
inductive CallbackFault where
  /-- The callback reported a failure. -/
  | failed (message : String)
  /-- The callback broke down. -/
  | panicked (text? : Option String)
deriving Repr, DecidableEq

/-- The wording of what went wrong (`PendingEvent.invoke`). -/
def CallbackFault.message : CallbackFault → String
  | .failed message => message
  | .panicked text? => s!"callback panicked: {panicText text?}"

end Heartbeat

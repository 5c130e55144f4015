import Heartbeat.Process.Table
import Heartbeat.Text.Column

/-!
# Listings of processes

* `Listing.table`: one line for each entry under a line of headings.
* `Listing.details`: what is known of one entry, a line for each fact.
-/

namespace Heartbeat.Listing

open Heartbeat.Text

/-- The headings of the table. -/
def headings : String :=
  alignRight 6 "PID" ++ " " ++ alignLeft 20 "NAME" ++ " " ++ alignLeft 8 "STATUS"

/-- The line of an entry; its status ends the line. -/
def row (e : ProcessEntry) : String :=
  alignRight 6 (toString e.pid) ++ " " ++ alignLeft 20 e.name ++ " " ++ e.status.text

/-- One line for each entry under a line of headings (`format_table`). -/
def table (entries : List ProcessEntry) : List String := headings :: entries.map row

/-- What is known of an entry, a line for each fact (`format_info`). -/
def details (e : ProcessEntry) : List String :=
  [s!"pid: {e.pid}", s!"name: {e.name}", s!"path: {e.path}", s!"arguments: {e.argumentLine}",
    "status: " ++ e.status.text, s!"start time: {e.startTime}"] ++
  (e.endTime?.map fun time => s!"end time: {time}").toList ++
  (if e.returnValues.isEmpty then []
    else ["return values: " ++ ", ".intercalate e.returnValues]) ++
  (e.error?.map fun message => s!"error: {message}").toList

end Heartbeat.Listing

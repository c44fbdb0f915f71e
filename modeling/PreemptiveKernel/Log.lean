/-
  Log records.

  A record is a severity, the part of the kernel it comes from, and a text.  Its written
  form is one line: the severity in capitals, padded to five places so that the sources
  line up, the source, a closing bracket, and the text.
-/
namespace PreemptiveKernel

/-- How grave a log record is; the gravest first. -/
inductive Severity
  | error
  | warn
  | info
  | debug
  | trace
  deriving DecidableEq, Repr, Inhabited

namespace Severity

/-- The rank of a severity: a record passes a filter when its rank is not above it. -/
def rank : Severity → Nat
  | error => 1
  | warn => 2
  | info => 3
  | debug => 4
  | trace => 5

/-- The name in capitals. -/
def name : Severity → String
  | error => "ERROR"
  | warn => "WARN"
  | info => "INFO"
  | debug => "DEBUG"
  | trace => "TRACE"

/-- Every severity. -/
def all : List Severity := [error, warn, info, debug, trace]

/-- Reads a name in whatever case it is written. -/
def ofName? (s : String) : Option Severity :=
  all.find? fun severity => severity.name == s.map Char.toUpper

/-- A filter at `limit` lets everything pass that is at least as grave. -/
def passes (severity limit : Severity) : Bool :=
  severity.rank ≤ limit.rank

end Severity

/-- One entry of the log. -/
structure Record where
  /-- How grave it is. -/
  severity : Severity
  /-- The part of the kernel that wrote it. -/
  source : String
  /-- What it says. -/
  text : String
  deriving DecidableEq, Repr, Inhabited

namespace Record

/-- The severity's name, padded on the right to five places. -/
def paddedName (severity : Severity) : String :=
  severity.name ++ String.ofList (List.replicate (5 - severity.name.length) ' ')

/-- The written form: one line with its end. -/
def line (r : Record) : String :=
  s!"[{paddedName r.severity} {r.source}] {r.text}\n"

end Record

/-! ## The sources

  The names under which the parts of the kernel write to the log. -/

namespace Source

/-- The task table and the ready queues. -/
def scheduler : String := "kairos::sched::manager"

/-- A single task. -/
def task : String := "kairos::sched::task"

/-- The scheduler as the one that the whole kernel shares. -/
def sharedScheduler : String := "kairos::sched"

/-- The clock. -/
def clock : String := "kairos::timer"

/-- Interrupt dispatch. -/
def interrupt : String := "kairos::irq"

/-- The search for memory. -/
def memoryMap : String := "kairos::mm::pmm"

/-- The kernel's heap. -/
def heap : String := "kairos::mm::heap"

/-- The tasks and the boot sequence of the kernel image. -/
def image : String := "kernel"

end Source

example : (Record.mk .warn "kairos::sched" "task 3 dropped").line =
    "[WARN  kairos::sched] task 3 dropped\n" := by decide

end PreemptiveKernel

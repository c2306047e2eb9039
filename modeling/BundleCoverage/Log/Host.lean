import BundleCoverage.Disk.Basic
import BundleCoverage.Log.Event

/-!
# The host

What a run can change: the disk, what is printed, and what is logged.  Printing and logging
leave the disk as it is.
-/

namespace BundleCoverage

/-- The surroundings of a run. -/
structure Host where
  /-- The disk. -/
  disk : Disk := default
  /-- What was printed. -/
  printed : String := ""
  /-- What was logged, in order. -/
  events : List Event := []
deriving Inhabited

namespace Host

/-- Prints a text. -/
def print (h : Host) (text : String) : Host := { h with printed := h.printed ++ text }

/-- Prints a line. -/
def printLine (h : Host) (line : String) : Host := h.print (line ++ "\n")

/-- Logs some events. -/
def log (h : Host) (events : List Event) : Host := { h with events := h.events ++ events }

@[simp] theorem print_disk (h : Host) (text : String) : (h.print text).disk = h.disk := rfl

@[simp] theorem printLine_disk (h : Host) (line : String) :
    (h.printLine line).disk = h.disk := rfl

@[simp] theorem log_disk (h : Host) (events : List Event) : (h.log events).disk = h.disk := rfl

end Host

end BundleCoverage

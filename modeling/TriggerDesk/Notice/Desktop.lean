import TriggerDesk.Notice.Summary

/-!
# Notices on the desktop

A notice is shown by a program of the desktop, which is given the summary of an event. What
becomes of the program says whether the notice was shown.
-/

namespace TriggerDesk.Notice

open TriggerDesk.Order

/-- How notices are shown. -/
structure Desktop where
  /-- The title of a notice. -/
  app : String
  /-- How many milliseconds it is shown. -/
  timeout : Nat
  deriving DecidableEq, Repr

/-- How notices are shown unless something else is asked for. -/
def Desktop.standard : Desktop := { app := "ems", timeout := 10000 }

/-- The program that shows notices. -/
def Desktop.program : String := "notify-send"

/-- What the program is called with. -/
def Desktop.arguments (desktop : Desktop) (event : Event) : List String :=
  ["-u", "normal", "-t", toString desktop.timeout, desktop.app, event.summary]

/-- What becomes of a program. -/
inductive Ending where
  | exited (status : Nat)
  | killed (signal : Nat)
  /-- It could not be started. -/
  | unstarted (reason : String)
  deriving DecidableEq, Repr

/-- The names of the signals, from the first on. -/
def signalNames : List String :=
  ["SIGHUP", "SIGINT", "SIGQUIT", "SIGILL", "SIGTRAP", "SIGABRT", "SIGBUS", "SIGFPE", "SIGKILL",
    "SIGUSR1", "SIGSEGV", "SIGUSR2", "SIGPIPE", "SIGALRM", "SIGTERM", "SIGSTKFLT", "SIGCHLD",
    "SIGCONT", "SIGSTOP", "SIGTSTP", "SIGTTIN", "SIGTTOU", "SIGURG", "SIGXCPU", "SIGXFSZ",
    "SIGVTALRM", "SIGPROF", "SIGWINCH", "SIGIO", "SIGPWR", "SIGSYS"]

/-- A signal by number, and by name if it has one. -/
def describeSignal (signal : Nat) : String :=
  match signal, signalNames[signal - 1]? with
  | _ + 1, some name => s!"{signal} ({name})"
  | _, _ => toString signal

/-- Why a notice was not shown, if it was not. -/
def Ending.fault? : Ending → Option String
  | exited 0 => none
  | exited status => some s!"notifier exited with exit status: {status}"
  | killed signal => some s!"notifier exited with signal: {describeSignal signal}"
  | unstarted reason => some s!"notifier failed to start: {reason}"

end TriggerDesk.Notice

import TriggerDesk.CommandLine.Reader

/-!
# How the program ends

What the program prints and which status it ends with when its words are no task. Help and the
version are asked for, so they end well; everything else is a fault of usage.
-/

namespace TriggerDesk.CommandLine

/-- The name and the version of the program. -/
def versionLine : String := "ems_rust 0.1.0"

/-- How the program is called. -/
def usageLines : List String :=
  ["usage: [--addr ADDRESS] TASK",
    "  serve [--metrics-port PORT] [--feed-mode MODE] [--record-file FILE]",
    "  alert SYMBOL PRICE [--broker BROKER] [--oid ID]",
    "  order buy|sell SYMBOL PRICE [--broker BROKER] [--oid ID]",
    "  session"]

/-- The status of a program that did what it was asked for. -/
def statusDone : UInt32 := 0

/-- The status of a program that could not do its task. -/
def statusFailed : UInt32 := 1

/-- The status of a program whose words are no task. -/
def statusUsage : UInt32 := 2

namespace UsageError

/-- What is wrong with the words, if anything is. -/
def fault? : UsageError → Option String
  | help | version | nothingGiven => none
  | missingTask => some "a task is missing"
  | unknownTask => some "there is no such task"
  | unknownArgument => some "there is no such argument"
  | missingArgument => some "an argument is missing"
  | badValue => some "a value is missing or not possible"
  | badNumber => some "a value is not a number of the kind that is needed"
  | repeated => some "an argument is given twice"
  | needlessValue => some "a value is given to an argument that takes none"

/-- The status that the program ends with. -/
def status : UsageError → UInt32
  | help | version => statusDone
  | nothingGiven | missingTask | unknownTask | unknownArgument | missingArgument | badValue
  | badNumber | repeated | needlessValue => statusUsage

/-- What is printed for whoever asked. -/
def answer : UsageError → List String
  | help => usageLines
  | version => [versionLine]
  | nothingGiven | missingTask | unknownTask | unknownArgument | missingArgument | badValue
  | badNumber | repeated | needlessValue => []

/-- What is printed as a complaint. -/
def complaint (reason : UsageError) : List String :=
  if reason.status = statusUsage then reason.fault?.toList ++ usageLines else []

end UsageError

end TriggerDesk.CommandLine

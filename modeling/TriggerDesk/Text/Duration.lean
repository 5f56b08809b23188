/-!
# Durations

How long a span of milliseconds is, for people: in whole milliseconds below a second, else in
seconds with as many decimals as it takes.
-/

namespace TriggerDesk.Text

/-- The digits of thousandths after the point, without zeros at the end. -/
def thousandths (n : Nat) : String :=
  if n = 0 then ""
  else
    let digits := (toString (1000 + n)).toList.tail
    "." ++ String.ofList (digits.reverse.dropWhile (· = '0')).reverse

/-- The text of a span of milliseconds. No time at all is told in the smallest unit. -/
def duration (milliseconds : Nat) : String :=
  if milliseconds = 0 then "0ns"
  else if milliseconds < 1000 then s!"{milliseconds}ms"
  else s!"{milliseconds / 1000}{thousandths (milliseconds % 1000)}s"

example : duration 1500 = "1.5s" := by decide +kernel

example : duration 60001 = "60.001s" := by decide +kernel

example : duration 3600000 = "3600s" := by decide +kernel

end TriggerDesk.Text

import Micro80.Text

/-!
# Clocks

Lines of log files carry the time of day, and the usual name of a log file carries the date.

## Main definitions

* `TimeStamp`, with `TimeStamp.text`.
* `Date`, with `Date.text`.
-/

namespace Micro80

/-- **Time stamps.** Seconds since some midnight and microseconds after them. -/
structure TimeStamp where
  seconds : Int
  micros : Int

/-- **The time of day** in hours, minutes, seconds and whole milliseconds. -/
def TimeStamp.text (t : TimeStamp) : Text :=
  let s := t.seconds % 86400
  .decimal 2 (s / 3600) ++ .ascii ":" ++ .decimal 2 (s / 60 % 60) ++ .ascii ":"
    ++ .decimal 2 (s % 60) ++ .ascii "." ++ .decimal 3 (t.micros.tdiv 1000)

/-- **Dates.** -/
structure Date where
  year : Nat
  month : Nat
  day : Nat

/-- A date in eight digits. -/
def Date.text (d : Date) : Text :=
  .numeral 10 4 d.year ++ .numeral 10 2 d.month ++ .numeral 10 2 d.day

/-- **Clock readings.** -/
structure Clock where
  now : TimeStamp
  today : Date

end Micro80

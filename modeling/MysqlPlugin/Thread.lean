import MysqlPlugin.Values

namespace MysqlPlugin.Thread

/-- Thread::time at an instant given in milliseconds since the epoch. ftime
splits the instant into seconds and milliseconds; twenty bits of the seconds
are kept. -/
def time (instant : Nat) : Int :=
  ((instant % 1000 : Nat) : Int) + ((instant / 1000 &&& 0xFFFFF : Nat) : Int) * 1000

/-- Thread::timeSpan at an instant, for a stamp that time() returned earlier. -/
def timeSpan (instant : Nat) (start : Int) : Int :=
  let duration := time instant - start
  if duration < 0 then duration + 0x100000 * 1000 else duration

end MysqlPlugin.Thread

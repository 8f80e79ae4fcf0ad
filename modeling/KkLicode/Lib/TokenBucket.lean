import Mathlib.Order.Basic
import Mathlib.Data.Nat.Notation

/-! `TokenBucket`. All times are unsigned counts of microseconds. -/

namespace KkLicode.Lib

structure TokenBucket where
  time : UInt64 := 0
  timePerToken : UInt64 := 0
  timePerBurst : UInt64 := 0
  deriving DecidableEq, Repr

namespace TokenBucket

/-- The constructor with a rate and a burst size, and `reset`. -/
def withRate (rate burstSize : UInt64) : TokenBucket :=
  let timePerToken := 1000000 / max rate 1
  { time := 0, timePerToken := timePerToken, timePerBurst := burstSize * timePerToken }

/-- `consume` at the time `now`; the exchange of `time` succeeds at once, as nobody else writes it. -/
def consume (b : TokenBucket) (now tokens : UInt64) : TokenBucket × Bool :=
  let timeNeeded := tokens * b.timePerToken
  let minTime := now - b.timePerBurst
  let newTime := (if minTime > b.time then minTime else b.time) + timeNeeded
  if newTime > now then (b, false) else ({ b with time := newTime }, true)

end TokenBucket

end KkLicode.Lib

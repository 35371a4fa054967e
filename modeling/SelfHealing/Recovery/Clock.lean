import SelfHealing.Time.Duration
import SelfHealing.Time.Timestamp

/-!
The time of a world: a clock to measure by, and the date.
-/

namespace SelfHealing.Recovery

open Time

structure Clock (m : Type → Type) where
  now : m Instant
  pass : Duration → m Unit
  date : m Timestamp

end SelfHealing.Recovery

import ChannelAgent.Duration

set_option autoImplicit false

namespace ChannelAgent

/-- Retry delays that start at `initial` and are multiplied after each one, never above
`maximum`. -/
structure Backoff where
  initial : Duration
  multiplier : UInt32
  maximum : Duration
  /-- The delay that the next call returns. -/
  current : Duration
  deriving DecidableEq, Repr

namespace Backoff

/-- A policy at its first interval. An initial interval above the maximum is lowered to it. -/
def new (initial : Duration) (multiplier : UInt32) (maximum : Duration) : Backoff :=
  let first := initial.min maximum
  { initial := first, multiplier, maximum, current := first }

/-- Two seconds, doubling up to one hour. -/
def standard : Backoff := new (.ofSeconds 2) 2 (.ofSeconds 3600)

instance : Inhabited Backoff := ⟨standard⟩

/-- The delay before the next retry, and the policy after it. -/
def next (b : Backoff) : Duration × Backoff :=
  (b.current, { b with current := (b.current.saturatingMul b.multiplier).min b.maximum })

def reset (b : Backoff) : Backoff := { b with current := b.initial }

end Backoff

end ChannelAgent

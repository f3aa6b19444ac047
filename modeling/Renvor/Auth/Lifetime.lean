import Renvor.Auth.Error
import Renvor.Kernel.Entropy

/-! # Durations and lifetimes -/

namespace Renvor

/-- A duration in microseconds. -/
abbrev Duration := Int

def Duration.days (count : Int) : Duration := count * 86400000000

def Duration.minutes (count : Int) : Duration := count * 60000000

def Duration.seconds (count : Int) : Duration := count * 1000000

/-- The whole seconds of a duration. -/
def Duration.numSeconds (duration : Duration) : Int := Int.tdiv duration 1000000

/-- Whole seconds from the epoch. -/
def Instant.timestamp (instant : Instant) : Int := instant / 1000000

/-- A positive duration within a ceiling. -/
structure Lifetime (ceiling : Duration) where
  duration : Duration
  positive : 0 < duration
  bounded : duration ≤ ceiling

def Lifetime.new (ceiling duration : Duration) : Except AuthError (Lifetime ceiling) :=
  if within : 0 < duration ∧ duration ≤ ceiling then .ok ⟨duration, within.1, within.2⟩
  else .error .policyMisconfigured

end Renvor

import Renvor.Lifecycle.Phase

/-! # Kernel errors

The errors of the kernel that registration, boot, rollback and the work gate
raise, each with the fields the source names.
-/

namespace Renvor

/-- The cause an error wraps: a failure the provider returned, a panic that was
contained, or a note the kernel wrote itself. -/
inductive BoxedCause
  | returned (failure : String)
  | panicked (message : String)
  | noted (text : String)
  deriving DecidableEq

/-- Which axis of the work budget was exceeded. -/
inductive BudgetAxis
  | providerExaminations | edgeExaminations | totalWorkUnits

/-- The errors the modelled part of the kernel produces. -/
inductive KernelError
  | dependencyCycle (providers : List String)
  | dependencyMissing (dependent capability : String)
  | capabilityDuplicate (capability first second : String)
  | limitExceeded (limit : String) (ceiling observed : Nat)
  | providerInit (provider : String) (source : BoxedCause)
  | providerStop (provider : String) (source : BoxedCause)
  | cancelled (phase : LifecyclePhase)
  | deadlineExceeded (operation : String) (deadlineMs : Nat)
  | shuttingDown (operation : String)
  | internal (axis : BudgetAxis) (observed allowed : Nat)

end Renvor

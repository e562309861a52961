import Drex.Core.Runs
import Drex.Core.Unsigned

/-
  What the two drivers of the DPU take from their
  environment in the same way.

  Key definitions include:
    * `DocaError`
    * `inflightLimit`
-/

------------------------------------------------------------
-- Results And Limits
------------------------------------------------------------

namespace Drex

/- `doca_error_t`, as far as its values have names here. -/
inductive DocaError
| success
| noMemory
| unexpected
| other (code : Nat)
deriving DecidableEq

/- A limit of no kernel in flight is one of one kernel. -/
def inflightLimit (maxInflight : Nat) : Nat :=
  if maxInflight = 0 then 1 else maxInflight

end Drex

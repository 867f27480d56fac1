import SelectorCatalog.Fault

/-!
# Stopped steps

A step ends early with a failure that it reports, or with a fault.
-/

set_option autoImplicit false

namespace SelectorCatalog

/-- What ends a step early. -/
inductive Stop (ε : Type) where
  | failure (reason : ε)
  | fault (reason : Fault)
  deriving DecidableEq

namespace Stop

variable {ε δ α : Type}

/-- The stop with its failure told in other words. -/
def map (f : ε → δ) : Stop ε → Stop δ
  | failure e => failure (f e)
  | fault x => fault x

/-- A step that reports no failure of its own. -/
def lift (step : Except Fault α) : Except (Stop ε) α := step.mapError fault

end Stop

end SelectorCatalog

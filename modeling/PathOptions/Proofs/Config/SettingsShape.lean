import Mathlib.Tactic.Common
import PathOptions.Config.Settings
import PathOptions.Proofs.Config.UnknownKeys
/-!
The shape of the settings of a configuration, and what becomes of settings of another shape. Reading
them fails unless they have the shape, but a value that says nothing passes for null wherever null
may stand; and unknown keys of different kinds fail in a way of their own, since they cannot be put
in order.
-/

namespace PathOptions.Config

/-! ## The values of settings -/

end PathOptions.Config

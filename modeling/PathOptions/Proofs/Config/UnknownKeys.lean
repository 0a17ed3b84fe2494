import PathOptions.Config.Cache
import PathOptions.Config.Profiles
import PathOptions.Proofs.Config.OptionNames
/-!
Unknown keys in the mappings of a configuration. They are refused with a fault that lists them in
order, unless they are of different kinds and have no order. Apart from these, readers foresee all
that can be wrong.
-/

namespace PathOptions.Config

/-! ## Refusing unknown keys -/

theorem RefusesOptions.isUnforeseen {profile : Text} {fault : Error}
    (h : RefusesOptions profile fault) : fault.isUnforeseen = false := by
  cases h <;> rfl

end PathOptions.Config

/-!
# Powers

In every module, powers of natural numbers and of integers are those of the core
library, whatever else the module imports; so definitions and statements about them
agree.
-/

namespace SceneForge

/-- Powers with natural exponents. -/
@[default_instance 20000]
instance (priority := 2000) naturalPower {α : Type} [NatPow α] : Pow α Nat := instPowNat

end SceneForge

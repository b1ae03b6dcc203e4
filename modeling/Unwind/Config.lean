import Unwind.Text.Quoted

/-!
# Settings of a run
-/

namespace Unwind

structure Config where
  /-- How many hops the trail of a failure keeps. -/
  hopLimit : Nat := 32
  /-- The name of the outermost frame. -/
  rootName : String := "<root>"
  deriving DecidableEq

def Config.text (config : Config) : String :=
  s!"Config \x7b hop_limit: {config.hopLimit}, root_name: {Text.quoted config.rootName} \x7d"

end Unwind

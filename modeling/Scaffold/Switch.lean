/-!
# Switches

The texts that stand for true and false in settings and flags.
-/

namespace Scaffold

/-- The truth value that a text stands for. -/
def readSwitch? (text : String) : Option Bool :=
  if text ∈ ["1", "t", "T", "TRUE", "true", "True"] then some true
  else if text ∈ ["0", "f", "F", "FALSE", "false", "False"] then some false
  else none

end Scaffold

/-!
What is put on record while the registry works, for those who run it.
-/

namespace Coinage.Log

inductive Level where
  | info
  | warning
  | error
deriving DecidableEq, Repr

def Level.name : Level → String
  | .info => "INFO"
  | .warning => "WARNING"
  | .error => "ERROR"

structure Record where
  level : Level
  text : String
deriving DecidableEq, Repr

end Coinage.Log

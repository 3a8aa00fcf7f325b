import FlagScript.Expr.Calls
import FlagScript.Expr.Source
import FlagScript.Script

/-!
# Scripts without operators
-/

namespace FlagScript

namespace Script

/-- Reads a script and writes it with calls in place of its operators and assignments. -/
def translate (source : String) : Except Error String :=
  (parse source).map fun script => Script.source (Expr.allToCalls script)

end Script

end FlagScript

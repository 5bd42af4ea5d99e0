/-!
# Version

The version that the library reports of itself.
-/

namespace Keystroke

def version : String := "0.1.0"

end Keystroke

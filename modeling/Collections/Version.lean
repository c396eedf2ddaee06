/-! The version of the library. -/

set_option autoImplicit false

namespace Collections

def version : String := "0.1.0"

end Collections

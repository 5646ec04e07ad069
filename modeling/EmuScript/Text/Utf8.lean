/-!
# Strings as bytes

Blocks of memory and network data are lists of bytes; strings cross into them
as UTF-8.
-/

set_option autoImplicit false

namespace EmuScript

abbrev Bytes := List UInt8

namespace Text

def toUtf8 (text : String) : Bytes :=
  text.toUTF8.toList

/-- The string with the given UTF-8 bytes, if they are valid. -/
def ofUtf8? (bytes : Bytes) : Option String :=
  String.fromUTF8? ⟨bytes.toArray⟩

end Text

end EmuScript

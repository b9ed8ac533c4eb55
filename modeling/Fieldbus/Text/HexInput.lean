import Fieldbus.Text.Blank
import Fieldbus.Text.Hex

namespace Fieldbus

/-- Colons and blanks may stand between hexadecimal digits. -/
def isHexSeparator (c : Char) : Bool := c = ':' || isBlank c

/-- The bytes of a typed hexadecimal text: blanks around it, leading `0x` and separators are
skipped. -/
def typedBytes? (cs : List Char) : Option (List UInt8) :=
  Hex.bytes? ((dropHexTags (trimBlanks cs)).filter fun c => !isHexSeparator c)

end Fieldbus

import HostBridge.Host.Form
import HostBridge.Host.Ty
import HostBridge.Script.Value

/-!
# Converters

A converter carries values across the boundary in both directions.  Toward the
host it is told the type to produce, and having no answer means that the value
cannot be converted.  Toward the script it needs no type, and a failure says why.

Each scripting architecture has its own converter.  It can be handed to host
functions as an object of the class `TypeConverter`.  Such an object is a token:
what it stands for is the converter of the call.
-/

namespace HostBridge

/-- Conversion between script values and host values. -/
structure Converter where
  /-- The host value of a type for a script value, if there is one. -/
  toHost : Script.Value → Host.Ty → Option Host.Value
  /-- The script value for a host value. -/
  toScript : Host.Value → Except ConversionError Script.Value

namespace Converter

/-- The class of converter objects. -/
def objectClass : Host.Class := .root "TypeConverter"

/-- The object by which a host function is handed the converter of its call. -/
def token : Host.Object := ⟨objectClass, .converter, 0⟩

end Converter

end HostBridge

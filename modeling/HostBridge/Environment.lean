import HostBridge.Converter.Standard
import HostBridge.Dict

/-!
# Environments of calls

What a scripting host supplies for a call besides the script arguments: the name
of its architecture, its converter, values by position that come after the target
of the call, and values by name.

Two names are always taken: `converter` is an object standing for the converter,
and `architecture` is the name of the architecture.  They may be replaced like
any other.
-/

namespace HostBridge

namespace Environment.Key

/-- The name of the converter. -/
def converter : String := "converter"

/-- The name of the context of a call. -/
def context : String := "context"

/-- The name of the access to a computer. -/
def access : String := "access"

/-- The name of the calling computer. -/
def computer : String := "computer"

/-- The name of the architecture. -/
def architecture : String := "architecture"

end Environment.Key

/-- What a host supplies for a call. -/
structure Environment where
  architecture : String
  converter : Converter
  /-- The values by position, from the first after the target. -/
  positional : List Host.Value
  /-- The values by name. -/
  named : Dict String Host.Value

namespace Environment

/-- The environment of an architecture, with the two names that are always taken. -/
def new (architecture : String) (converter : Converter) : Environment where
  architecture
  converter
  positional := []
  named := Dict.empty
    |>.insert Key.converter (.object Converter.token)
    |>.insert Key.architecture (.string architecture)

/-- The environment with one more value by position. -/
def addPositional (e : Environment) (v : Host.Value) : Environment :=
  { e with positional := e.positional ++ [v] }

/-- The environment with a value under a name. -/
def setNamed (e : Environment) (name : String) (v : Host.Value) : Environment :=
  { e with named := e.named.insert name v }

/-- The value by position, counted from the first after the target. -/
def positional? (e : Environment) (i : Nat) : Option Host.Value := e.positional[i]?

/-- The value under a name. -/
def named? (e : Environment) (name : String) : Option Host.Value := e.named.find? name

end Environment

end HostBridge

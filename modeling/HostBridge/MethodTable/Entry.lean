import HostBridge.Adapter

/-!
# Entries of method tables

A method table is made from a list of entries, one for each name under which scripts
find a method.  A method with aliases has several entries.

While a table is being made, two more things are kept beside the entries: the origin of
each entry, for messages, and an index that gives the place of each name.

`addName` adds an entry.  Whether the name is there already is looked up in the index.
The same method may come again, since an adapter can apply to a class in more than one
way, and then nothing changes.  Another method under the same name is an error, which
names both origins.  Methods are compared by identity.
-/

namespace HostBridge.MethodTable

/-- A name under which scripts find a method. -/
structure Entry (σ : Type) where
  name : String
  method : Method σ

/-- A table that is being made. -/
structure Builder (σ : Type) where
  entries : List (Entry σ)
  /-- The place of each name among the entries. -/
  index : Dict String Nat
  /-- For each entry the adapter and the canonical name of the method, for messages. -/
  origins : List String

namespace Builder

variable {σ : Type}

/-- There is no entry yet. -/
def empty : Builder σ := ⟨[], .empty, []⟩

/-- The origin of a method of an adapter. -/
def originOf (a : Adapter σ) (m : Method σ) : String := a.name ++ "::" ++ m.name

/-- Add a name of a method. -/
def addName (m : Method σ) (origin : String) (b : Builder σ) (name : String) :
    Except RegistrationError (Builder σ) :=
  match b.index.find? name with
  | none => .ok {
      entries := b.entries ++ [⟨name, m⟩]
      index := b.index.insert name b.entries.length
      origins := b.origins ++ [origin] }
  | some place =>
      -- The index is never out of step, so there is an entry at the place, and an origin.
      if (b.entries[place]?).any fun e => e.method.id = m.id then .ok b
      else .error (.duplicate name ((b.origins[place]?).getD "") origin)

/-- Add all names of a method, if scripts see it on the architecture. -/
def addMethod (architecture : String) (a : Adapter σ) (b : Builder σ) (m : Method σ) :
    ExceptT RegistrationError (StateM Setup) (Builder σ) := do
  let visible ← (Setup.deciding (m.checkVisible architecture) : StateM Setup Bool)
  if visible then
    MonadExcept.ofExcept (m.declaration.names.foldlM (addName m (originOf a m)) b)
  else
    Setup.write .trace ("'" ++ m.name ++ "' hidden on " ++ architecture)
    return b

/-- Add the methods of an adapter that scripts see on the architecture. -/
def addAdapter (architecture : String) (b : Builder σ) (a : Adapter σ) :
    ExceptT RegistrationError (StateM Setup) (Builder σ) :=
  a.methods.foldlM (addMethod architecture a) b

end Builder

end HostBridge.MethodTable

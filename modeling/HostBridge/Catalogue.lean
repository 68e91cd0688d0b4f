import HostBridge.MethodTable

/-!
# Catalogues of adapters

The registered adapters of a host, and the method tables built from them so far.

The adapters for a class are found through an index from target classes to
positions.  Those registered for the class itself come first, then those of its
ancestors from the nearest outwards, each group in the order of registration.

A table is kept for its class and architecture until something changes that it
was built from.
-/

namespace HostBridge

/-- The registered adapters of a host and its method tables. -/
structure Catalogue (σ : Type) where
  /-- The adapters, in the order of registration. -/
  adapters : List (Adapter σ)
  /-- For each class that adapters are for, their positions. -/
  byTarget : Dict TypeId (List Nat)
  /-- The tables kept, by class and architecture. -/
  tables : Dict (TypeId × String) (MethodTable σ)

namespace Catalogue

variable {σ : Type}

/-- The catalogue without adapters. -/
def empty : Catalogue σ := ⟨[], .empty, .empty⟩

/-- The catalogue without tables. -/
def forgetTables (c : Catalogue σ) : Catalogue σ := { c with tables := .empty }

/-- Register an adapter.  Tables built without it are dropped. -/
def register (c : Catalogue σ) (a : Adapter σ) : Catalogue σ where
  adapters := c.adapters ++ [a]
  byTarget :=
    c.byTarget.insert a.target.id
      ((c.byTarget.find? a.target.id).getD [] ++ [c.adapters.length])
  tables := .empty

/-- The positions of the adapters for a class, in look-up order. -/
def positionsFor (c : Catalogue σ) (cls : Host.Class) : List Nat :=
  cls.lineage.flatMap fun id => (c.byTarget.find? id).getD []

/-- The adapters for a class, in look-up order. -/
def adaptersFor (c : Catalogue σ) (cls : Host.Class) : List (Adapter σ) :=
  (c.positionsFor cls).filterMap fun i => c.adapters[i]?

/-- The table kept for a class on an architecture. -/
def table? (c : Catalogue σ) (cls : Host.Class) (architecture : String) :
    Option (MethodTable σ) :=
  c.tables.find? (cls.id, architecture)

/-- Keep a table for a class on an architecture. -/
def keep (c : Catalogue σ) (cls : Host.Class) (architecture : String) (t : MethodTable σ) :
    Catalogue σ :=
  { c with tables := c.tables.insert (cls.id, architecture) t }

/-- The number of tables kept. -/
def keptCount (c : Catalogue σ) : Nat := c.tables.size

/-- Check every adapter again, in the order of registration. -/
def revalidate (c : Catalogue σ) (setup : Setup) : Except RegistrationError Unit :=
  c.adapters.forM fun a => a.revalidate setup

end Catalogue

end HostBridge

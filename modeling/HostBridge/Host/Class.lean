import HostBridge.TypeId

/-!
# Host classes

A class has a name and a list of the identities of its ancestors, nearest first.
A class is identified by its name alone: two descriptions with the same name are
the same class, whatever ancestors they list.

Ancestors are collected when a class is derived.  Each parent adds itself and
then its own ancestors, and an identity that is listed already is not listed
again.  So the list goes depth first through the parents in order.
-/

namespace HostBridge.Host

/-- A named host class. -/
structure Class where
  /-- The name, which identifies the class. -/
  name : String
  /-- The identities of all ancestors, nearest first. -/
  ancestors : List TypeId
deriving Repr

namespace Class

/-- The class with the given name and no ancestors. -/
def root (name : String) : Class := ⟨name, []⟩

/-- The identity of the class. -/
def id (c : Class) : TypeId := .ofName c.name

/-- The identities of the class and of its ancestors, in look-up order. -/
def lineage (c : Class) : List TypeId := c.id :: c.ancestors

/-- A list with one more element at the end, unless it is there already. -/
def addNew {α : Type} [DecidableEq α] (xs : List α) (x : α) : List α :=
  if x ∈ xs then xs else xs ++ [x]

/-- The class with further parents. -/
def derive (c : Class) (parents : List Class) : Class :=
  { c with ancestors := (parents.flatMap lineage).foldl addNew c.ancestors }

/-- The class with one further parent. -/
def deriveFrom (c : Class) (parent : Class) : Class := c.derive [parent]

/-- Whether two descriptions are of the same class. -/
def same (a b : Class) : Bool := a.id == b.id

/-- Whether `a` is `b` or has it as an ancestor. -/
def isA (a b : Class) : Bool := a.lineage.contains b.id

/-- The class as it is shown to programmers. -/
def describe (c : Class) : String := "ClassRef(" ++ c.name ++ ")"

/-! ## Laws -/

@[simp] theorem name_derive (c : Class) (ps : List Class) : (c.derive ps).name = c.name := rfl

@[simp] theorem id_derive (c : Class) (ps : List Class) : (c.derive ps).id = c.id := rfl

theorem isA_iff (a b : Class) : a.isA b = true ↔ b.id ∈ a.lineage := by
  simp [isA]

theorem isA_self (a : Class) : a.isA a = true := by
  simp [isA, lineage]

end Class

end HostBridge.Host

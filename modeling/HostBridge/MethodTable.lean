import HostBridge.MethodTable.Listing

/-!
# Method tables

What scripts on one architecture see of the objects of one class: the visible
methods of all adapters that apply, under their canonical names and aliases, in
the order of the adapters.  If the setup says so, the methods that describe the
table come last.

Two methods must not have a name in common, unless one of them is hidden.  A name is
looked up in an index of places, which is made along with the entries.  The sources of
a table are those of all its adapters, whether any of their methods is visible or not.

A table does not change.  It is built under an identity, which also serves its
describing methods.
-/

namespace HostBridge

/-- What scripts on one architecture see of the objects of one class. -/
structure MethodTable (σ : Type) where
  id : Nat
  target : Host.Class
  architecture : String
  /-- The names in order. -/
  names : List String
  /-- For each name the method under it. -/
  methods : List (Method σ)
  /-- The place of each name. -/
  index : Dict String Nat
  /-- The sources of the adapters, in alphabetical order. -/
  sources : List String

namespace MethodTable

variable {σ : Type}

/-! ## Building -/

/-- The sources of adapters in alphabetical order, each once. -/
def sourcesOf (adapters : List (Adapter σ)) : List String :=
  (adapters.map Adapter.source).eraseDups.mergeSort fun a b => decide (a ≤ b)

/-- Add the methods that describe the entries, if the setup asks for these. -/
def addListing (id : Nat) (target : Host.Class) (architecture : String)
    (sources : List String) (b : Builder σ) :
    ExceptT RegistrationError (StateM Setup) (Builder σ) := do
  let setup ← get
  if setup.lists then
    let listing ← (Listing.definition target b.entries sources).build id
    b.addAdapter architecture listing
  else return b

/-- The finished table. -/
def Builder.table (b : Builder σ) (id : Nat) (target : Host.Class) (architecture : String)
    (sources : List String) : MethodTable σ where
  id
  target
  architecture
  names := b.entries.map Entry.name
  methods := b.entries.map Entry.method
  index := b.index
  sources

/-- Build the table of a class on an architecture from adapters, in order. -/
def build (id : Nat) (target : Host.Class) (architecture : String) (adapters : List (Adapter σ)) :
    ExceptT RegistrationError (StateM Setup) (MethodTable σ) := do
  let own ← adapters.foldlM (Builder.addAdapter architecture) .empty
  let sources := sourcesOf adapters
  let all ← addListing id target architecture sources own
  Setup.write .debug ("adapted '" ++ target.name ++ "' for " ++ architecture ++ ": "
    ++ toString all.entries.length ++ " exposed name(s) from " ++ toString sources.length
    ++ " source(s)")
  return all.table id target architecture sources

/-! ## Look-ups -/

/-- The names with their methods, in order. -/
def entries (t : MethodTable σ) : List (Entry σ) := List.zipWith Entry.mk t.names t.methods

/-- The number of names. -/
def size (t : MethodTable σ) : Nat := t.names.length

/-- Whether there is no name. -/
def isEmpty (t : MethodTable σ) : Bool := t.names.isEmpty

/-- The place of a name. -/
def indexOf? (t : MethodTable σ) (name : String) : Option Nat := t.index.find? name

/-- The method at a place. -/
def method? (t : MethodTable σ) (index : Nat) : Option (Method σ) := t.methods[index]?

/-- The method under a name. -/
def find? (t : MethodTable σ) (name : String) : Option (Method σ) :=
  (t.indexOf? name).bind t.method?

/-! ## Calls -/

/-- Call a method, if there is one; otherwise report that there is none of that name. -/
def callMethod (m : Option (Method σ)) (name : String) (env : Environment) (target : Host.Value)
    (args : List Script.Value) (s : σ) : Except CallError (List Script.Value) × σ :=
  match m with
  | some m => m.call env target args s
  | none => (.error (.noSuchMethod name), s)

/-- Call the method under a name. -/
def call (t : MethodTable σ) (name : String) (env : Environment) (target : Host.Value)
    (args : List Script.Value) (s : σ) : Except CallError (List Script.Value) × σ :=
  callMethod (t.find? name) name env target args s

/-- Call the method at a place. -/
def callAt (t : MethodTable σ) (index : Nat) (env : Environment) (target : Host.Value)
    (args : List Script.Value) (s : σ) : Except CallError (List Script.Value) × σ :=
  callMethod (t.method? index) ("#" ++ toString index) env target args s

end MethodTable

end HostBridge

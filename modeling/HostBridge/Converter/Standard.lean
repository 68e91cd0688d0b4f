import HostBridge.Converter.Rule

/-!
# The standard conversion

Toward the host, the rules are asked first, in order.  Then the type decides.

* Nil converts to nothing.
* Truth values, numbers and texts convert to their own types.  A number converts
  to an integer by dropping its fraction, if the result has 64 bits, and to a
  text by the way scripts print it.
* A table converts to an array, a list or a set if it is a sequence and every
  value converts to the element type, and to a map if every key and value
  converts.
* At type `any` a value takes its natural form.  A table takes the form of a list
  if it is a sequence whose values convert at `any`.  Otherwise it takes the form
  of a map, whose keys and values take their natural forms; the rules are not
  asked about these.

Toward the script, the rules are asked first again.  Null becomes nil, both
numbers become numbers, anything that holds a sequence becomes a table with keys
from one on, and a map becomes a table written entry by entry.  An object has no
script value.

Converters without rules are the ones most statements are about.
-/

namespace HostBridge.Converter

namespace Standard

open Script (Table)

/-! ## Toward the host -/

/-- The host integer for a number: its whole part, if that has 64 bits. -/
def wholePart? (x : Binary64) : Option Int64 := do
  let i ← x.truncate?
  if Host.Width.int64.Holds i then some (.ofInt i) else none

/-- The answers to a question about every member of a list, asked one after the other.
The question may use that its subject is a member.  An answer may be missing toward the
host and may be a failure toward the script, and then the rest is not asked. -/
def collect {m : Type → Type} [Monad m] {α β : Type} (xs : List α)
    (ask : (x : α) → x ∈ xs → m β) : m (List β) :=
  xs.attach.mapM fun x => ask x.1 x.2

mutual

/-- The host value of a type for a script value. -/
def toHost (rules : List Rule) (value : Script.Value) (target : Host.Ty) : Option Host.Value :=
  match rules.findSome? fun rule => rule.toHost value target fun v t _ => toHost rules v t with
  | some converted => some converted
  | none =>
      match target, value with
      | .any, value => natural rules value
      | .boolean, .boolean b => some (.boolean b)
      | .integer, .number x => (wholePart? x).map .integer
      | .float, .number x => some (.float x)
      | .string, .string s => some (.string s)
      | .string, .number x => some (.string (Script.Value.number x).display)
      | .array e, .table t => (toHostItems rules t e).map .array
      | .list e, .table t => (toHostItems rules t e).map .list
      | .set e, .table t => (toHostItems rules t e).map .list
      | .map key val, .table t =>
          (collect t fun e _ => do
            let k ← toHost rules e.1 key
            let v ← toHost rules e.2 val
            return (k, v)).map .map
      | _, _ => none
termination_by (value.weight, target.weight + 2)
decreasing_by
  · rename_i h
    rcases h with h | ⟨h, h'⟩
    · exact Prod.Lex.left _ _ h
    · rw [h]
      exact Prod.Lex.right _ (by omega)
  · exact Prod.Lex.right _ (by omega)
  · exact Prod.Lex.right _ (by omega)
  · exact Prod.Lex.right _ (by omega)
  · exact Prod.Lex.right _ (by omega)
  · rename_i h
    exact Prod.Lex.left _ _ (Script.Value.weight_lt_of_mem h).1
  · rename_i h
    exact Prod.Lex.left _ _ (Script.Value.weight_lt_of_mem h).2

/-- The host values of an element type for the values of a sequence. -/
def toHostItems (rules : List Rule) (t : Table) (element : Host.Ty) : Option (List Host.Value) :=
  match _h : Table.sequence? t with
  | some items => collect items fun v _ => toHost rules v element
  | none => none
termination_by (Script.Value.weight (.table t), 0)
decreasing_by
  rename_i hv
  exact Prod.Lex.left _ _ (Table.weight_lt_of_sequence? _h hv)

/-- The natural form of a script value. -/
def natural (rules : List Rule) (value : Script.Value) : Option Host.Value :=
  match value with
  | .nil => none
  | .boolean b => some (.boolean b)
  | .number x => some (.float x)
  | .string s => some (.string s)
  | .table t =>
      match toHostItems rules t .any with
      | some items => some (.list items)
      | none =>
          (collect t fun e _ => do
            let k ← natural rules e.1
            let v ← natural rules e.2
            return (k, v)).map .map
termination_by (value.weight, 1)
decreasing_by
  · exact Prod.Lex.right _ (by omega)
  · rename_i h
    exact Prod.Lex.left _ _ (Script.Value.weight_lt_of_mem h).1
  · rename_i h
    exact Prod.Lex.left _ _ (Script.Value.weight_lt_of_mem h).2

end

/-! ## Toward the script -/

/-- The script value for a host value. -/
def toScript (rules : List Rule) (value : Host.Value) : Except ConversionError Script.Value :=
  match rules.findSome? fun rule => rule.toScript value fun v _ => toScript rules v with
  | some converted => converted
  | none =>
      match value with
      | .null => .ok .nil
      | .boolean b => .ok (.boolean b)
      | .integer n => .ok (.ofInt n.toInt)
      | .float x => .ok (.number x)
      | .string s => .ok (.string s)
      | .array items => do
          let vs ← collect items fun v _ => toScript rules v
          return .table (Table.ofSequence vs)
      | .list items => do
          let vs ← collect items fun v _ => toScript rules v
          return .table (Table.ofSequence vs)
      | .multi items => do
          let vs ← collect items fun v _ => toScript rules v
          return .table (Table.ofSequence vs)
      | .map entries => do
          let es ← collect entries fun e _ => do
            let k ← toScript rules e.1
            let v ← toScript rules e.2
            return (k, v)
          return .table (es.foldl (fun t e => Table.insert t e.1 e.2) [])
      | .object o => .error (.unrepresentable o.cls.name)
termination_by value.weight
decreasing_by
  · assumption
  · rename_i h
    exact Host.Value.weight_lt_of_mem_items h
  · rename_i h
    exact Host.Value.weight_lt_of_mem_items h
  · rename_i h
    exact Host.Value.weight_lt_of_mem_items h
  · rename_i h
    exact (Host.Value.weight_lt_of_mem_entries h).1
  · rename_i h
    exact (Host.Value.weight_lt_of_mem_entries h).2

end Standard

/-- The standard converter with the given rules, asked in order. -/
def standard (rules : List Rule) : Converter where
  toHost := Standard.toHost rules
  toScript := Standard.toScript rules

end HostBridge.Converter

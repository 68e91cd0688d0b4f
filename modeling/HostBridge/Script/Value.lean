import HostBridge.Binary.Rounding
import HostBridge.Binary.Text

/-!
# Script values

What a script passes in and gets back: nil, a truth value, a number, a text, or
a table.  A table is a list of entries in the order their keys were first
written.

`Value.equal` is the equality of scripts.  Numbers are compared as numbers, so a
NaN equals nothing and the zeros are equal, and tables are compared entry by
entry in order.  Tables look their keys up by this equality.  It is not the
equality of the type.

`Table.sequence?` reads a table as a sequence: its keys must be the numbers from
one to the number of entries, in any order.  `Table.ofSequence` builds such a
table.
-/

namespace HostBridge.Script

/-- A value of a script. -/
inductive Value where
  /-- The absent value. -/
  | nil
  | boolean (b : Bool)
  /-- A number.  Scripts have one type of numbers. -/
  | number (x : Binary64)
  | string (s : String)
  /-- A table, by its entries in order. -/
  | table (entries : List (Value × Value))
deriving Repr, Inhabited

/-- The entries of a table, in order. -/
abbrev Table := List (Value × Value)

namespace Value

/-! ## Kinds and parts -/

/-- The kind of a value as scripts call it. -/
def kindName : Value → String
  | .nil => "nil"
  | .boolean _ => "boolean"
  | .number _ => "number"
  | .string _ => "string"
  | .table _ => "table"

/-- Whether the value is nil. -/
def isNil : Value → Bool
  | .nil => true
  | _ => false

/-- The text of a text value. -/
def string? : Value → Option String
  | .string s => some s
  | _ => none

/-- The number of a number value. -/
def number? : Value → Option Binary64
  | .number x => some x
  | _ => none

/-- The truth value of a truth value. -/
def boolean? : Value → Option Bool
  | .boolean b => some b
  | _ => none

/-- The entries of a table. -/
def table? : Value → Option Table
  | .table t => some t
  | _ => none

/-- The number value nearest to an integer. -/
def ofInt (i : Int) : Value := .number (.ofInt i)

/-- The text scripts see for a value.  A table shows only its size. -/
def display : Value → String
  | .nil => "nil"
  | .boolean b => if b then "true" else "false"
  | .number x => x.text
  | .string s => s
  | .table t => "table[" ++ toString t.length ++ "]"

/-! ## Size -/

mutual

/-- The number of entries in a value, at all depths. -/
def weight : Value → Nat
  | .table t => weightEntries t
  | _ => 0
termination_by structural v => v

/-- The number of entries in a list of entries, at all depths. -/
def weightEntries : List (Value × Value) → Nat
  | [] => 0
  | (k, v) :: rest => k.weight + v.weight + weightEntries rest + 1
termination_by structural es => es

end

/-- A key or a value of an entry weighs less than the table. -/
theorem weight_lt_of_mem {t : Table} {k v : Value} (h : (k, v) ∈ t) :
    k.weight < weight (.table t) ∧ v.weight < weight (.table t) := by
  simp only [weight]
  induction t with
  | nil => simp at h
  | cons e rest ih =>
      obtain ⟨k', v'⟩ := e
      simp only [weightEntries]
      rcases List.mem_cons.mp h with heq | hmem
      · injection heq with hk hv
        subst hk hv
        omega
      · have := ih hmem
        omega

/-! ## Equality -/

mutual

/-- The equality of scripts. -/
def equal : Value → Value → Bool
  | .nil, .nil => true
  | .boolean a, .boolean b => a == b
  | .number x, .number y => x.equal y
  | .string a, .string b => a == b
  | .table s, .table t => equalEntries s t
  | _, _ => false
termination_by structural v => v

/-- Equality of lists of entries: same length, keys and values equal in order. -/
def equalEntries : List (Value × Value) → List (Value × Value) → Bool
  | [], [] => true
  | (k, v) :: rest, (k', v') :: rest' => k.equal k' && v.equal v' && equalEntries rest rest'
  | _, _ => false
termination_by structural es => es

end

end Value

/-! ## Tables -/

namespace Table

/-- Write a value at a key: in place when an equal key is present, at the end
otherwise.  The key present stays as it was written first. -/
def write (k v : Value) : List (Value × Value) → List (Value × Value)
  | [] => [(k, v)]
  | (k', v') :: rest => if k'.equal k then (k', v) :: rest else (k', v') :: write k v rest

/-- Write a value at a key, if the key is not nil. -/
def insert (t : Table) (k v : Value) : Table :=
  if k.isNil then t else write k v t

/-- The value at a key. -/
def get? (t : Table) (k : Value) : Option Value :=
  (t.find? fun e => e.1.equal k).map Prod.snd

/-- The value at a text key. -/
def getString? (t : Table) (s : String) : Option Value :=
  (t.find? fun e => e.1.string? == some s).map Prod.snd

/-- The entries of a sequence from a position on. -/
def sequenceFrom (i : Nat) : List Value → Table
  | [] => []
  | v :: rest => (.ofInt i, v) :: sequenceFrom (i + 1) rest

/-- The table that has the given values at the keys from one on. -/
def ofSequence (values : List Value) : Table := sequenceFrom 1 values

/-- The position from zero that a key stands for in a sequence of the given length. -/
def slot? (length : Nat) (key : Value) : Option Nat := do
  let x ← key.number?
  let i ← x.toInt?
  if 1 ≤ i ∧ i ≤ length then some (i - 1).toNat else none

/-- Put each value into the slot of its key.  There is no answer if a key has no slot. -/
def fill (slots : List (Option Value)) : List (Value × Value) → Option (List (Option Value))
  | [] => some slots
  | (k, v) :: rest =>
      match slot? slots.length k with
      | none => none
      | some i => fill (slots.set i (some v)) rest

/-- All the values, if no slot is empty. -/
def allFilled : List (Option Value) → Option (List Value)
  | [] => some []
  | none :: _ => none
  | some v :: rest => (allFilled rest).map (v :: ·)

/-- The values of a table in the order of its keys, if the keys are the numbers
from one to the number of entries. -/
def sequence? (t : Table) : Option (List Value) :=
  (fill (List.replicate t.length none) t).bind allFilled

/-! ## Members of a sequence -/

theorem mem_of_fill {es : List (Value × Value)} {slots slots' : List (Option Value)}
    (h : fill slots es = some slots') {v : Value} (hv : some v ∈ slots') :
    some v ∈ slots ∨ ∃ k, (k, v) ∈ es := by
  induction es generalizing slots with
  | nil =>
      simp only [fill, Option.some.injEq] at h
      exact Or.inl (h ▸ hv)
  | cons e rest ih =>
      obtain ⟨k, w⟩ := e
      simp only [fill] at h
      split at h
      · simp at h
      · rcases ih h with hs | ⟨k', hk'⟩
        · rcases List.mem_or_eq_of_mem_set hs with hm | he
          · exact Or.inl hm
          · injection he with he
            exact Or.inr ⟨k, by simp [he]⟩
        · exact Or.inr ⟨k', List.mem_cons_of_mem _ hk'⟩

theorem mem_of_allFilled {slots : List (Option Value)} {vs : List Value}
    (h : allFilled slots = some vs) {v : Value} (hv : v ∈ vs) : some v ∈ slots := by
  induction slots generalizing vs with
  | nil =>
      simp only [allFilled, Option.some.injEq] at h
      subst h
      simp at hv
  | cons s rest ih =>
      cases s with
      | none => simp [allFilled] at h
      | some w =>
          simp only [allFilled, Option.map_eq_some_iff] at h
          obtain ⟨ws, hws, rfl⟩ := h
          rcases List.mem_cons.mp hv with rfl | hm
          · simp
          · exact List.mem_cons_of_mem _ (ih hws hm)

/-- Every value of a sequence is the value of an entry. -/
theorem mem_of_sequence? {t : Table} {vs : List Value} (h : sequence? t = some vs) {v : Value}
    (hv : v ∈ vs) : ∃ k, (k, v) ∈ t := by
  simp only [sequence?, Option.bind_eq_some_iff] at h
  obtain ⟨slots, hf, ha⟩ := h
  rcases mem_of_fill hf (mem_of_allFilled ha hv) with hs | he
  · simp [List.mem_replicate] at hs
  · exact he

/-- A value of a sequence weighs less than the table. -/
theorem weight_lt_of_sequence? {t : Table} {vs : List Value} (h : sequence? t = some vs) {v : Value}
    (hv : v ∈ vs) : v.weight < Value.weight (.table t) := by
  obtain ⟨k, hk⟩ := mem_of_sequence? h hv
  exact (Value.weight_lt_of_mem hk).2

end Table

/-! ## Examples -/

example : (Table.insert [] .nil (.boolean true)) = [] := rfl
example : (Table.insert [(.string "a", .nil)] (.string "a") (.boolean true)) =
    [(.string "a", .boolean true)] := rfl
example : (Table.sequence? [(.ofInt 2, .string "b"), (.ofInt 1, .string "a")]).map
    (fun vs => vs.map Value.display) = some ["a", "b"] := by decide +kernel
example : (Table.sequence? [(.ofInt 1, .string "a"), (.ofInt 3, .string "c")]).isNone := by
  decide +kernel
example : Table.sequence? [] = some [] := rfl

end HostBridge.Script

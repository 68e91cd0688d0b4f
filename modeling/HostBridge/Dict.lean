/-!
# Dictionaries in insertion order

A `Dict` is a finite map held as a list of entries with pairwise distinct keys,
oldest first.  Writing to a key that is present keeps its place and changes its
value; writing to a new key appends.  The order of entries is therefore the
order in which keys were first written, and every answer that lists a
dictionary lists it in that order unless it sorts the keys.

`find?_insert` says what a write does to every later look-up, and
`keys_insert` what it does to the keys.
-/

namespace HostBridge

/-! ## Entries -/

/-- Write `v` at `k`: in place when the key is present, at the end otherwise. -/
def insertEntry {κ ν : Type} [DecidableEq κ] (k : κ) (v : ν) : List (κ × ν) → List (κ × ν)
  | [] => [(k, v)]
  | (k', v') :: rest =>
      if k' = k then (k', v) :: rest else (k', v') :: insertEntry k v rest

/-- The value of the first entry whose key is `k`. -/
def valueAt? {κ ν : Type} [DecidableEq κ] (k : κ) : List (κ × ν) → Option ν
  | [] => none
  | (k', v') :: rest => if k' = k then some v' else valueAt? k rest

section Entries

variable {κ ν : Type} [DecidableEq κ]

theorem map_fst_insertEntry (k : κ) (v : ν) (es : List (κ × ν)) :
    (insertEntry k v es).map Prod.fst =
      if k ∈ es.map Prod.fst then es.map Prod.fst else es.map Prod.fst ++ [k] := by
  induction es with
  | nil => simp [insertEntry]
  | cons e rest ih =>
      obtain ⟨k', v'⟩ := e
      by_cases h : k' = k
      · simp [insertEntry, h]
      · have h' : ¬ k = k' := fun e => h e.symm
        simp only [insertEntry, h, if_false, List.map_cons, ih, List.mem_cons, h', false_or]
        split <;> simp

theorem nodup_insertEntry (k : κ) (v : ν) {es : List (κ × ν)}
    (h : (es.map Prod.fst).Nodup) : ((insertEntry k v es).map Prod.fst).Nodup := by
  rw [map_fst_insertEntry]
  split
  · exact h
  · rename_i hk
    rw [List.nodup_append]
    refine ⟨h, by simp, ?_⟩
    intro a ha b hb
    simp only [List.mem_singleton] at hb
    intro hab
    exact hk (hb ▸ hab ▸ ha)

theorem valueAt?_insertEntry (k k' : κ) (v : ν) (es : List (κ × ν)) :
    valueAt? k' (insertEntry k v es) = if k = k' then some v else valueAt? k' es := by
  induction es with
  | nil => by_cases h : k = k' <;> simp [insertEntry, valueAt?, h]
  | cons e rest ih =>
      obtain ⟨a, b⟩ := e
      by_cases hak : a = k
      · subst hak
        by_cases hk : a = k' <;> simp [insertEntry, valueAt?, hk]
      · simp only [insertEntry, hak, if_false, valueAt?, ih]
        by_cases hak' : a = k'
        · have hk : ¬ k = k' := fun e => hak (hak'.trans e.symm)
          simp [hak', hk]
        · simp [hak']

theorem valueAt?_isSome_iff (k : κ) (es : List (κ × ν)) :
    (valueAt? k es).isSome ↔ k ∈ es.map Prod.fst := by
  induction es with
  | nil => simp [valueAt?]
  | cons e rest ih =>
      obtain ⟨a, b⟩ := e
      by_cases h : a = k
      · simp [valueAt?, h]
      · have h' : ¬ k = a := fun e => h e.symm
        simp only [valueAt?, h, if_false, ih, List.map_cons, List.mem_cons, h', false_or]

end Entries

/-! ## The type -/

/-- A finite map in insertion order. -/
structure Dict (κ ν : Type) where
  /-- The entries, oldest key first. -/
  entries : List (κ × ν)
  /-- No key has two entries. -/
  nodup : (entries.map Prod.fst).Nodup

namespace Dict

variable {κ ν : Type} [DecidableEq κ]

/-- The dictionary without entries. -/
def empty {κ ν : Type} : Dict κ ν := ⟨[], List.nodup_nil⟩

instance {κ ν : Type} : Inhabited (Dict κ ν) := ⟨empty⟩

/-- Write a value at a key. -/
def insert (d : Dict κ ν) (k : κ) (v : ν) : Dict κ ν :=
  ⟨insertEntry k v d.entries, nodup_insertEntry k v d.nodup⟩

/-- Write the entries of a list one by one, so that a later one replaces an earlier one. -/
def ofList (es : List (κ × ν)) : Dict κ ν :=
  es.foldl (fun d e => d.insert e.1 e.2) empty

/-- The value at a key. -/
def find? (d : Dict κ ν) (k : κ) : Option ν := valueAt? k d.entries

/-- Whether a key has a value. -/
def contains (d : Dict κ ν) (k : κ) : Bool := (d.find? k).isSome

/-- The keys, in the order they were first written. -/
def keys {κ ν : Type} (d : Dict κ ν) : List κ := d.entries.map Prod.fst

/-- The number of keys. -/
def size {κ ν : Type} (d : Dict κ ν) : Nat := d.entries.length

/-- Whether there is no key. -/
def isEmpty {κ ν : Type} (d : Dict κ ν) : Bool := d.entries.isEmpty

/-! ## Laws -/

omit [DecidableEq κ] in
theorem nodup_keys (d : Dict κ ν) : d.keys.Nodup := d.nodup

omit [DecidableEq κ] in
@[simp] theorem length_keys (d : Dict κ ν) : d.keys.length = d.size := by
  simp [keys, size]

@[simp] theorem find?_empty (k : κ) : (empty : Dict κ ν).find? k = none := rfl

/-- A write answers later look-ups of its key and no others. -/
theorem find?_insert (d : Dict κ ν) (k k' : κ) (v : ν) :
    (d.insert k v).find? k' = if k = k' then some v else d.find? k' :=
  valueAt?_insertEntry k k' v d.entries

@[simp] theorem find?_insert_self (d : Dict κ ν) (k : κ) (v : ν) :
    (d.insert k v).find? k = some v := by
  simp [find?_insert]

/-- A write adds its key at the end unless it is there already. -/
theorem keys_insert (d : Dict κ ν) (k : κ) (v : ν) :
    (d.insert k v).keys = if k ∈ d.keys then d.keys else d.keys ++ [k] :=
  map_fst_insertEntry k v d.entries

theorem contains_iff (d : Dict κ ν) (k : κ) : d.contains k = true ↔ k ∈ d.keys :=
  valueAt?_isSome_iff k d.entries

theorem mem_keys_insert (d : Dict κ ν) (k k' : κ) (v : ν) :
    k' ∈ (d.insert k v).keys ↔ k' = k ∨ k' ∈ d.keys := by
  rw [keys_insert]
  split
  · rename_i h
    constructor
    · exact Or.inr
    · rintro (rfl | h')
      · exact h
      · exact h'
  · simp [or_comm]

end Dict

end HostBridge

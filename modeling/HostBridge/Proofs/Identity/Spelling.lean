import HostBridge.Host.Ty

/-!
# Types and their identities

An identity is made by hashing a name or by composing identities.  A `Query` asks for one of
these kinds, and `Ty.queries` is all that is asked for the identity of a type.  If no two
queries have the same answer by chance, the identity of a type tells all that went into it.

What went into it is the spelling of the type.  A built-in type is spelled as a class of that
name is, so both have the same identity, and so have types that differ only there.  `named`
reads every built-in type as the class.  Two types have the same identity exactly if they are
equal when read that way (`identity_exact`).
-/

namespace HostBridge

/-! ## Queries -/

namespace TypeId

/-- What an identity is asked for. -/
inductive Query where
  | name (name : String)
  | composed (kind : String) (arguments : List TypeId)
deriving DecidableEq

/-- The identity that is made. -/
def Query.answer : Query → TypeId
  | .name s => .ofName s
  | .composed kind arguments => .compose kind arguments

/-- Different queries have different answers. -/
def CollisionFree (queries : List Query) : Prop :=
  ∀ c ∈ queries, ∀ d ∈ queries, c.answer = d.answer → c = d

instance (queries : List Query) : Decidable (CollisionFree queries) :=
  inferInstanceAs (Decidable (∀ c ∈ queries, ∀ d ∈ queries, c.answer = d.answer → c = d))

section

variable {queries more queries' more' : List Query}

theorem CollisionFree.of_subset (h : CollisionFree more) (sub : queries ⊆ more) :
    CollisionFree queries :=
  fun c hc d hd => h c (sub hc) d (sub hd)

theorem CollisionFree.of_append (h : CollisionFree (more ++ more')) (sub : queries ⊆ more)
    (sub' : queries' ⊆ more') : CollisionFree (queries ++ queries') :=
  h.of_subset (List.append_subset.mpr
    ⟨fun _ hc => List.mem_append_left _ (sub hc), fun _ hc => List.mem_append_right _ (sub' hc)⟩)

end

end TypeId

namespace Host.Ty

open TypeId (Query CollisionFree)

variable {s t : Ty}

/-- The query whose answer is the identity of the type. -/
def query : Ty → Query
  | .array e => .composed "Array" [e.id]
  | .list e => .composed "List" [e.id]
  | .set e => .composed "Set" [e.id]
  | .map k v => .composed "Map" [k.id, v.id]
  | .var x => .composed "Var" [.ofName x]
  | t => .name t.display

/-- All queries for the identity of the type. -/
def queries : Ty → List Query
  | .array e => (array e).query :: e.queries
  | .list e => (list e).query :: e.queries
  | .set e => (set e).query :: e.queries
  | .map k v => (map k v).query :: (k.queries ++ v.queries)
  | .var x => [(var x).query, .name x]
  | t => [t.query]

theorem answer_query (t : Ty) : t.query.answer = t.id := by
  cases t <;> rfl

theorem query_mem_queries (t : Ty) : t.query ∈ t.queries := by
  cases t <;> exact List.mem_cons_self ..

/-- Without collisions, types of the same identity come from the same query. -/
theorem query_eq_iff (free : CollisionFree (s.queries ++ t.queries)) :
    s.id = t.id ↔ s.query = t.query := by
  rw [← answer_query, ← answer_query]
  constructor
  · exact free _ (List.mem_append_left _ (query_mem_queries s)) _
      (List.mem_append_right _ (query_mem_queries t))
  · exact congrArg Query.answer

/-! ## Types read as classes -/

/-- The type with every built-in type read as the class of its spelling.  Of classes only the
names are kept. -/
def named : Ty → Ty
  | .array e => .array e.named
  | .list e => .list e.named
  | .set e => .set e.named
  | .map k v => .map k.named v.named
  | .var x => .var x
  | t => .object (.root t.display)

theorem id_named (t : Ty) : t.named.id = t.id := by
  induction t with
  | array e ih => exact congrArg (fun i => TypeId.compose "Array" [i]) ih
  | list e ih => exact congrArg (fun i => TypeId.compose "List" [i]) ih
  | set e ih => exact congrArg (fun i => TypeId.compose "Set" [i]) ih
  | map k v ihk ihv => rw [named, id, id, ihk, ihv]
  | _ => rfl

/-- Equal types have the same identity. -/
theorem id_eq_of_equal (h : s.equal t = true) : s.id = t.id := by
  induction s generalizing t with
  | object c =>
      cases t with
      | object d => exact beq_iff_eq.mp h
      | _ => cases h
  | array e ih =>
      cases t with
      | array e' => exact congrArg (fun i => TypeId.compose "Array" [i]) (ih h)
      | _ => cases h
  | list e ih =>
      cases t with
      | list e' => exact congrArg (fun i => TypeId.compose "List" [i]) (ih h)
      | _ => cases h
  | set e ih =>
      cases t with
      | set e' => exact congrArg (fun i => TypeId.compose "Set" [i]) (ih h)
      | _ => cases h
  | map k v ihk ihv =>
      cases t with
      | map k' v' =>
          obtain ⟨hk, hv⟩ := Bool.and_eq_true_iff.mp h
          rw [id, id, ihk hk, ihv hv]
      | _ => cases h
  | var x =>
      cases t with
      | var y =>
          cases beq_iff_eq.mp h
          rfl
      | _ => cases h
  | _ =>
      -- A type without parts is equal to itself only.
      cases t <;> first | exact absurd h Bool.false_ne_true | rfl

/-- Whether the type has no parts and is not a variable. -/
def isSimple : Ty → Bool
  | .array _ => false
  | .list _ => false
  | .set _ => false
  | .map _ _ => false
  | .var _ => false
  | _ => true

section

variable {name : String}

theorem query_eq_name_iff : t.query = .name name ↔ t.isSimple = true ∧ t.display = name := by
  cases t <;> simp [query, isSimple]

theorem named_eq_root_iff :
    t.named = .object (.root name) ↔ t.isSimple = true ∧ t.display = name := by
  cases t <;> simp [named, isSimple, Class.root]

end

/-- The queries for composed types are the same only if those for their parts are. -/
theorem query_eq_of_composed {kind : String}
    (free : CollisionFree
      (.composed kind [s.id] :: s.queries ++ .composed kind [t.id] :: t.queries))
    (same : Query.composed kind [s.id] = .composed kind [t.id]) :
    CollisionFree (s.queries ++ t.queries) ∧ s.query = t.query := by
  have inner := free.of_append (List.subset_cons_self ..) (List.subset_cons_self ..)
  have part : s.id = t.id := by simpa using same
  exact ⟨inner, (query_eq_iff inner).mp part⟩

/-- Without collisions, the query tells the type up to what `named` forgets. -/
theorem named_eq_of_query_eq (free : CollisionFree (s.queries ++ t.queries))
    (h : s.query = t.query) : s.named = t.named := by
  induction s generalizing t with
  | array e ih =>
      cases t with
      | array e' =>
          obtain ⟨inner, part⟩ := query_eq_of_composed free h
          exact congrArg Ty.array (ih inner part)
      | _ => simp [query] at h
  | list e ih =>
      cases t with
      | list e' =>
          obtain ⟨inner, part⟩ := query_eq_of_composed free h
          exact congrArg Ty.list (ih inner part)
      | _ => simp [query] at h
  | set e ih =>
      cases t with
      | set e' =>
          obtain ⟨inner, part⟩ := query_eq_of_composed free h
          exact congrArg Ty.set (ih inner part)
      | _ => simp [query] at h
  | map k v ihk ihv =>
      cases t with
      | map k' v' =>
          have inner := free.of_append (List.subset_cons_self ..) (List.subset_cons_self ..)
          have keys := inner.of_append (List.subset_append_left ..) (List.subset_append_left ..)
          have values :=
            inner.of_append (List.subset_append_right ..) (List.subset_append_right ..)
          obtain ⟨key, value⟩ : k.id = k'.id ∧ v.id = v'.id := by simpa [query] using h
          rw [named, named, ihk keys ((query_eq_iff keys).mp key),
            ihv values ((query_eq_iff values).mp value)]
      | _ => simp [query] at h
  | var x =>
      cases t with
      | var y =>
          have part : TypeId.ofName x = .ofName y := by simpa [query] using h
          have letter := free (.name x) (by simp [queries]) (.name y) (by simp [queries]) part
          rw [Query.name.inj letter]
      | _ => simp [query] at h
  | _ => exact (named_eq_root_iff.mpr (query_eq_name_iff.mp h.symm)).symm

/-! ## Classes of built-in names -/

/-- The built-in types. -/
def builtIn : List Ty := [.void, .boolean, .integer, .float, .string, .any, .multi]

/-- No class in the type is named as a built-in type is spelled. -/
def Unreserved : Ty → Prop
  | .object c => ∀ b ∈ builtIn, b.display ≠ c.name
  | .array e => e.Unreserved
  | .list e => e.Unreserved
  | .set e => e.Unreserved
  | .map k v => k.Unreserved ∧ v.Unreserved
  | _ => True

theorem mem_builtIn_or_object (h : t.isSimple = true) : t ∈ builtIn ∨ ∃ c, t = .object c := by
  cases t <;> simp [isSimple, builtIn] at h ⊢

theorem builtIn_equal :
    ∀ b ∈ builtIn, ∀ b' ∈ builtIn, b.display = b'.display → b.equal b' = true := by
  decide

theorem equal_of_display_eq (simple : s.isSimple = true) (simple' : t.isSimple = true)
    (hs : s.Unreserved) (ht : t.Unreserved) (h : s.display = t.display) : s.equal t = true := by
  rcases mem_builtIn_or_object simple with b | ⟨c, rfl⟩ <;>
    rcases mem_builtIn_or_object simple' with b' | ⟨c', rfl⟩
  · exact builtIn_equal s b t b' h
  · exact absurd h (ht s b)
  · exact absurd h.symm (hs t b')
  · exact beq_iff_eq.mpr (congrArg TypeId.ofName h)

/-- Types without classes of built-in names are equal if they are when read as classes. -/
theorem equal_of_named_eq (hs : s.Unreserved) (ht : t.Unreserved) (h : s.named = t.named) :
    s.equal t = true := by
  induction s generalizing t with
  | array e ih =>
      cases t with
      | array e' => exact ih hs ht (Ty.array.inj h)
      | _ => cases h
  | list e ih =>
      cases t with
      | list e' => exact ih hs ht (Ty.list.inj h)
      | _ => cases h
  | set e ih =>
      cases t with
      | set e' => exact ih hs ht (Ty.set.inj h)
      | _ => cases h
  | map k v ihk ihv =>
      cases t with
      | map k' v' =>
          obtain ⟨key, value⟩ := Ty.map.inj h
          exact Bool.and_eq_true_iff.mpr ⟨ihk hs.1 ht.1 key, ihv hs.2 ht.2 value⟩
      | _ => cases h
  | var x =>
      cases t with
      | var y => exact beq_iff_eq.mpr (Ty.var.inj h)
      | _ => cases h
  | _ =>
      obtain ⟨simple, spelled⟩ := named_eq_root_iff.mp h.symm
      exact equal_of_display_eq rfl simple hs ht spelled.symm

/-- What the identity of a type tells, unless two queries have the same answer by chance.  It
tells the type with its built-in types read as the classes of their spelling.  It tells the
type itself if no class has such a name.  A class has the identity of another type only if
that is a simple one spelled as the class is named. -/
theorem identity_exact (free : CollisionFree (s.queries ++ t.queries)) :
    (s.id = t.id ↔ s.named.equal t.named = true) ∧
      (s.Unreserved → t.Unreserved → (s.id = t.id ↔ s.equal t = true)) ∧
      ∀ c, s = .object c → (s.id = t.id ↔ t.isSimple = true ∧ t.display = c.name) := by
  have named_eq (h : s.id = t.id) : s.named = t.named :=
    named_eq_of_query_eq free ((query_eq_iff free).mp h)
  refine ⟨⟨fun h => ?_, fun h => ?_⟩, fun hs ht => ⟨fun h => ?_, id_eq_of_equal⟩, ?_⟩
  · rw [named_eq h]
    exact equal_self _
  · rw [← id_named s, ← id_named t]
    exact id_eq_of_equal h
  · exact equal_of_named_eq hs ht (named_eq h)
  · rintro c rfl
    rw [query_eq_iff free, eq_comm]
    exact query_eq_name_iff

/-- A class of drums. -/
def drum : Ty := .object (.root "Drum")

/-- A map to lists of drums is told from one to sets.  A class named as texts are spelled is
taken for theirs. -/
theorem identity_exact_drum :
    (Ty.map .string (.list drum)).id ≠ (Ty.map .string (.set drum)).id ∧
      (Ty.object (.root "String")).id = Ty.string.id := by
  have free : CollisionFree
      ((Ty.map .string (.list drum)).queries ++ (Ty.map .string (.set drum)).queries) := by
    decide +kernel
  have unreserved : drum.Unreserved := by
    show ∀ b ∈ builtIn, b.display ≠ "Drum"
    decide
  constructor
  · intro same
    have equal := ((identity_exact free).2.1 ⟨trivial, unreserved⟩ ⟨trivial, unreserved⟩).mp same
    cases equal
  · exact ((identity_exact (by decide +kernel)).2.2 _ rfl).mpr ⟨rfl, rfl⟩

/-- A class can share its identity with a built-in type. -/
theorem not_told_apart :
    (CollisionFree ((Ty.object (.root "int")).queries ++ Ty.integer.queries) ∧
      (Ty.object (.root "int")).id = Ty.integer.id ∧
      (Ty.object (.root "int")).equal .integer = false) ∧
    ¬ ∀ s t : Ty, CollisionFree (s.queries ++ t.queries) → (s.id = t.id ↔ s.equal t = true) := by
  have free : CollisionFree ((Ty.object (.root "int")).queries ++ Ty.integer.queries) := by
    decide +kernel
  refine ⟨⟨free, rfl, rfl⟩, fun told => ?_⟩
  cases (told _ _ free).mp rfl

end Host.Ty

end HostBridge

import HostBridge.Proofs.Declaration.Grammar

/-!
# Type variables in signatures

A signature may be written once for many types, with variables in place of those that
differ.  To replace the variables is a substitution: `substitute` puts the type that a
variable is bound to wherever the variable stands.

Resolving a type does the same and also looks whether every variable is bound to a type
without variables (`resolve_eq_ok_iff`).  So a signature whose types resolve can be
substituted first and then read under no bindings at all, and neither the answer nor the
classification afterwards is another (`parse_substitute`).
-/

namespace HostBridge

/-! ## Types -/

namespace Host.Ty

variable {bindings : Bindings} {ty : Ty}

/-- The variables of a type, from left to right. -/
def typeVariables : Ty → List String
  | .var name => [name]
  | .array e => e.typeVariables
  | .list e => e.typeVariables
  | .set e => e.typeVariables
  | .map k v => k.typeVariables ++ v.typeVariables
  | _ => []

/-- The type with every variable replaced by the type it is bound to.  A variable that is
not bound stays. -/
def substitute (bindings : Bindings) : Ty → Ty
  | .var name => (bindings.find? name).getD (.var name)
  | .array e => .array (e.substitute bindings)
  | .list e => .list (e.substitute bindings)
  | .set e => .set (e.substitute bindings)
  | .map k v => .map (k.substitute bindings) (v.substitute bindings)
  | ty => ty

/-- Every variable of the type is bound, and to a type without variables. -/
def Bound (bindings : Bindings) (ty : Ty) : Prop :=
  ∀ name ∈ ty.typeVariables, ∃ bound, bindings.find? name = some bound ∧ bound.typeVariables = []

/-- The type can be resolved. -/
def Resolves (bindings : Bindings) (ty : Ty) : Prop := ∃ r, ty.resolve bindings = .ok r

theorem hasVariables_eq_false_iff : ty.hasVariables = false ↔ ty.typeVariables = [] := by
  induction ty with
  | map k v ihk ihv => simp [hasVariables, typeVariables, ihk, ihv]
  | _ => simp_all [hasVariables, typeVariables]

theorem resolve_var_eq_ok_iff {name : String} {r : Ty} :
    (var name).resolve bindings = .ok r ↔ bindings.find? name = some r ∧ r.typeVariables = [] := by
  rw [resolve]
  cases bindings.find? name with
  | none => simp
  | some bound =>
      rw [← hasVariables_eq_false_iff]
      cases h : bound.hasVariables with
      | true =>
          simp only [h, if_true, Option.some.injEq]
          constructor
          · intro impossible
            cases impossible
          · rintro ⟨rfl, closed⟩
            cases h.symm.trans closed
      | false =>
          simp only [h, Bool.false_eq_true, if_false, Except.ok.injEq, Option.some.injEq]
          constructor
          · rintro rfl
            exact ⟨rfl, h⟩
          · exact And.left

/-- A type made from one part resolves if the part does. -/
theorem resolve_part_eq_ok_iff {part r : Ty} {wrap : Ty → Ty}
    (h : ∀ {r}, part.resolve bindings = .ok r ↔
      part.Bound bindings ∧ part.substitute bindings = r) :
    ((part.resolve bindings).bind fun e => .ok (wrap e)) = .ok r ↔
      part.Bound bindings ∧ wrap (part.substitute bindings) = r := by
  simp only [bind_eq_ok, h]
  constructor
  · rintro ⟨_, ⟨bound, rfl⟩, ⟨⟩⟩
    exact ⟨bound, rfl⟩
  · rintro ⟨bound, rfl⟩
    exact ⟨_, ⟨bound, rfl⟩, rfl⟩

/-- To resolve a type is to substitute, if the variables are bound as they must be. -/
theorem resolve_eq_ok_iff {r : Ty} :
    ty.resolve bindings = .ok r ↔ ty.Bound bindings ∧ ty.substitute bindings = r := by
  -- The answer is general, since that of a composed type is made from those of its parts.
  induction ty generalizing r with
  | var name =>
      rw [resolve_var_eq_ok_iff]
      constructor
      · rintro ⟨found, closed⟩
        exact ⟨by simp [Bound, typeVariables, found, closed], by simp [substitute, found]⟩
      · rintro ⟨bound, rfl⟩
        obtain ⟨ty, found, closed⟩ := bound name (List.mem_singleton_self name)
        simp [substitute, found, closed]
  | array e ih => exact resolve_part_eq_ok_iff ih
  | list e ih => exact resolve_part_eq_ok_iff ih
  | set e ih => exact resolve_part_eq_ok_iff ih
  | map k v ihk ihv =>
      show Except.bind _ (fun k => Except.bind _ _) = _ ↔ _
      simp only [bind_eq_ok, ihk, ihv, Bound, typeVariables, substitute, List.mem_append, or_imp,
        forall_and]
      constructor
      · rintro ⟨_, ⟨boundKey, rfl⟩, _, ⟨boundValue, rfl⟩, ⟨⟩⟩
        exact ⟨⟨boundKey, boundValue⟩, rfl⟩
      · rintro ⟨⟨boundKey, boundValue⟩, rfl⟩
        exact ⟨_, ⟨boundKey, rfl⟩, _, ⟨boundValue, rfl⟩, rfl⟩
  | _ => simp [resolve, Bound, typeVariables, substitute]

theorem Resolves.resolve_eq (h : ty.Resolves bindings) :
    ty.resolve bindings = .ok (ty.substitute bindings) := by
  obtain ⟨r, hr⟩ := h
  obtain ⟨-, rfl⟩ := resolve_eq_ok_iff.mp hr
  exact hr

theorem substitute_of_closed (h : ty.typeVariables = []) : ty.substitute bindings = ty := by
  induction ty with
  | map k v ihk ihv => simp_all [typeVariables, substitute]
  | _ => simp_all [typeVariables, substitute]

/-- What a type was resolved to is resolved to itself, under whatever bindings. -/
theorem Resolves.resolve_substitute (h : ty.Resolves bindings) (other : Bindings) :
    (ty.substitute bindings).resolve other = ty.resolve bindings := by
  have closed := hasVariables_eq_false_iff.mp (hasVariables_of_resolve h.resolve_eq)
  rw [h.resolve_eq, resolve_eq_ok_iff]
  exact ⟨by simp [Bound, closed], substitute_of_closed closed⟩

end Host.Ty

/-! ## Signatures -/

/-- The parameter with its type substituted. -/
def Param.substitute (bindings : Host.Bindings) (p : Param) : Param :=
  { p with ty := p.ty.substitute bindings }

namespace Signature

/-- The signature with all its types substituted. -/
def substitute (bindings : Host.Bindings) (s : Signature) : Signature :=
  { s with
    params := s.params.map (Param.substitute bindings)
    returns := s.returns.substitute bindings }

/-- All types of the signature resolve. -/
structure Resolves (bindings : Host.Bindings) (s : Signature) : Prop where
  params : ∀ p ∈ s.params, p.ty.Resolves bindings
  returns : s.returns.Resolves bindings

theorem Grammatical.resolves {bindings : Host.Bindings} {s : Signature}
    (h : s.Grammatical bindings) : s.Resolves bindings :=
  ⟨h.types, h.result.imp fun _ => And.left⟩

end Signature

namespace Layout

variable {bindings : Host.Bindings}

theorem slotOf_substitute (l : Layout) {p : Param} (h : p.ty.Resolves bindings) :
    l.slotOf .empty (p.substitute bindings) = l.slotOf bindings p := by
  have same : (p.substitute bindings).ty.resolve .empty = p.ty.resolve bindings :=
    h.resolve_substitute .empty
  rw [slotOf, slotOf, same]
  rfl

theorem add_substitute (l : Layout) {p : Param} (h : p.ty.Resolves bindings) :
    l.add .empty (p.substitute bindings) = l.add bindings p := by
  rw [add, add, l.slotOf_substitute h]

/-- A parameter list can be substituted before it is read. -/
theorem foldlM_substitute {params : List Param} (h : ∀ p ∈ params, p.ty.Resolves bindings)
    (l : Layout) :
    (params.map (Param.substitute bindings)).foldlM (add .empty) l =
      params.foldlM (add bindings) l := by
  induction params generalizing l with
  | nil => rfl
  | cons p params ih =>
      obtain ⟨head, tail⟩ := List.forall_mem_cons.mp h
      rw [List.map_cons, List.foldlM_cons, List.foldlM_cons, l.add_substitute head]
      exact congrArg _ (funext (ih tail))

end Layout

namespace Declaration

/-- All types of a declaration. -/
def types (d : Declaration) : List Host.Ty :=
  d.positional ++ d.env.map EnvParam.ty ++ d.arguments.map Argument.ty ++ [d.returns]

theorem map_ty_pieces (d : Declaration) : d.types = d.pieces.map Piece.ty ++ [d.returns] := by
  simp [types, pieces, HostBridge.pieces, Piece.ty, Function.comp_def]

section Parse

variable {s : Signature} {bindings : Host.Bindings} {source : String}

/-- A signature can be substituted before it is read. -/
theorem parse_substitute (h : s.Resolves bindings) :
    parse (s.substitute bindings) .empty source = parse s bindings source := by
  have params : (s.substitute bindings).params.foldlM (Layout.add .empty) {} =
      s.params.foldlM (Layout.add bindings) {} := Layout.foldlM_substitute h.params {}
  have returns : (s.substitute bindings).returns.resolve .empty = s.returns.resolve bindings :=
    h.returns.resolve_substitute .empty
  rw [parse, parse, understand, understand, params, returns]
  rfl

/-- A declaration has no variables. -/
theorem typeVariables_of_parse {c : Classification} {d : Declaration}
    (h : ((parse s bindings source).run c).1 = .ok d) : ∀ ty ∈ d.types, ty.typeVariables = [] := by
  have reflects := reflects_of_parse h
  intro ty hty
  rw [← Host.Ty.hasVariables_eq_false_iff]
  rw [map_ty_pieces, List.mem_append, List.mem_singleton] at hty
  rcases hty with hty | rfl
  · obtain ⟨x, hx, rfl⟩ := List.mem_map.mp hty
    exact reflects.closed x hx
  · exact reflects.returns_closed

/-- A signature with a type that does not resolve is refused. -/
theorem exists_parse_error (h : ¬ s.Resolves bindings) (c : Classification) :
    ∃ e, ((parse s bindings source).run c).1 = .error e := by
  cases hp : ((parse s bindings source).run c).1 with
  | error e => exact ⟨e, rfl⟩
  | ok d => exact absurd ((exists_parse_iff s bindings source c).mp ⟨d, hp⟩).resolves h

end Parse

end Declaration

end HostBridge

import HostBridge.Proofs.Declaration.Reading

/-!
# The grammar of signatures

`Signature.Grammatical` says which signatures can be understood.  Their variables stand
for types, their parameters are arranged in the five parts, a variadic parameter has the
type of an array, no two parameters are supplied under the same name, and the result has
as many tags as its type calls for.

`Declaration.Reflects` says what a declaration owes to the signature it was made from.
Nothing is lost but the tags of parameters, which were turned into shapes, and nothing
of the declaration has type variables.

`parse_exact` puts both together.  The classification matters for neither.
-/

namespace HostBridge

/-! ## Types -/

namespace Host.Ty

/-- A type that was resolved has no variables. -/
theorem hasVariables_of_resolve {bindings : Bindings} {ty r : Ty}
    (h : ty.resolve bindings = .ok r) : r.hasVariables = false := by
  induction ty generalizing r with
  | var name =>
      rw [resolve] at h
      cases hb : bindings.find? name with
      | none =>
          rw [hb] at h
          cases h
      | some bound =>
          rw [hb] at h
          dsimp only at h
          split at h
          · cases h
          · cases h
            rename_i hv
            exact Bool.eq_false_iff.mpr hv
  | array e ih =>
      obtain ⟨e', he, hr⟩ := bind_eq_ok.mp h
      cases hr
      rw [hasVariables]
      exact ih he
  | list e ih =>
      obtain ⟨e', he, hr⟩ := bind_eq_ok.mp h
      cases hr
      rw [hasVariables]
      exact ih he
  | set e ih =>
      obtain ⟨e', he, hr⟩ := bind_eq_ok.mp h
      cases hr
      rw [hasVariables]
      exact ih he
  | map k v ihk ihv =>
      obtain ⟨k', hk, h⟩ := bind_eq_ok.mp h
      obtain ⟨v', hv, hr⟩ := bind_eq_ok.mp h
      cases hr
      rw [hasVariables, ihk hk, ihv hv]
      rfl
  | _ =>
      cases h
      rfl

theorem isArray_iff {ty : Ty} : ty.isArray = true ↔ ∃ e, ty = .array e := by
  cases ty <;> simp [isArray]

end Host.Ty

/-! ## Results -/

namespace Signature

/-- The result is several values. -/
def MultiValued (s : Signature) (returns : Host.Ty) : Prop :=
  returns = .multi ∨ s.splitsResult = true ∧ returns.isOrdered = true

/-- The tags fit the type of the result: there are some if it is several values, and at
most one otherwise. -/
def ResultFits (s : Signature) (returns : Host.Ty) : Prop :=
  s.MultiValued returns ∧ s.resultTags ≠ [] ∨
    ¬ s.MultiValued returns ∧ s.splitsResult = false ∧ s.resultTags.length ≤ 1

end Signature

/-- Several values need a tag. -/
theorem checkResult_of_multiValued {s : Signature} {returns : Host.Ty}
    (h : s.MultiValued returns) :
    checkResult s returns =
      if s.resultTags = [] then .error .missingResultTags else .ok true := by
  have decided : checkResult s returns =
      if s.resultTags.length == 0 then .error .missingResultTags else .ok true := by
    rcases h with rfl | ⟨hs, ho⟩
    · rfl
    · unfold checkResult
      rw [hs]
      cases returns with
      | array e => rfl
      | list e => rfl
      | _ => cases ho
  rw [decided]
  cases s.resultTags <;> rfl

/-- One value must not be split, and has one tag at most. -/
theorem checkResult_of_not_multiValued {s : Signature} {returns : Host.Ty}
    (h : ¬ s.MultiValued returns) :
    checkResult s returns =
      if s.splitsResult then .error (.notSplittable returns)
      else if s.resultTags.length > 1 then
        .error (.tooManyResultTags returns s.resultTags.length)
      else .ok false := by
  rw [Signature.MultiValued, not_or, not_and] at h
  obtain ⟨hm, ho⟩ := h
  have decided : checkResult s returns =
      if s.splitsResult then .error (.notSplittable returns)
      else if decide (s.resultTags.length > 1) then
        .error (.tooManyResultTags returns s.resultTags.length)
      else .ok false := by
    unfold checkResult
    cases hs : s.splitsResult with
    | true =>
        cases returns with
        | multi => exact absurd rfl hm
        | array e => exact absurd rfl (ho hs)
        | list e => exact absurd rfl (ho hs)
        | _ => rfl
    | false =>
        cases returns with
        | multi => exact absurd rfl hm
        | _ => rfl
  rw [decided]
  simp only [decide_eq_true_eq]

/-- The result is accepted exactly if its tags fit, and it is split if it is several
values. -/
theorem checkResult_eq_ok_iff {s : Signature} {returns : Host.Ty} {multiple : Bool} :
    checkResult s returns = .ok multiple ↔
      s.ResultFits returns ∧ (multiple = true ↔ s.MultiValued returns) := by
  rw [Signature.ResultFits]
  by_cases hm : s.MultiValued returns
  · rw [checkResult_of_multiValued hm]
    by_cases ht : s.resultTags = []
    · simp [ht, hm]
    · cases multiple <;> simp [ht, hm]
  · rw [checkResult_of_not_multiValued hm]
    cases hs : s.splitsResult with
    | true => simp [hm]
    | false =>
        rw [if_neg Bool.false_ne_true]
        by_cases ht : s.resultTags.length > 1
        · rw [if_pos ht]
          simp [hm, Nat.not_le.mpr ht]
        · rw [if_neg ht]
          cases multiple <;> simp [hm, Nat.le_of_not_lt ht]

/-! ## Parameters of a declaration -/

/-- Who supplies the value of a parameter. -/
inductive Supply where
  | position
  | name
  | script
deriving DecidableEq, Repr

/-- Who supplies a parameter of a role. -/
def Role.supply : Role → Supply
  | .positional => .position
  | .env _ => .name
  | .script .. => .script

/-- Who supplies the value of a piece. -/
def Piece.supply : Piece → Supply
  | .positional _ => .position
  | .env _ => .name
  | .argument _ => .script

/-- The parameters that one party supplies, with their indices. -/
def suppliedBy (supply : Supply) (params : List Param) : List (Param × Nat) :=
  params.zipIdx.filter fun p => p.1.role.supply = supply

theorem Fits.supply_eq {bindings : Host.Bindings} {p : Param} {index : Nat} {x : Piece}
    (h : Fits bindings p index x) : p.role.supply = x.supply := by
  cases h with
  | positional hr => rw [hr]; rfl
  | env hr => rw [hr]; rfl
  | argument hr => rw [hr]; rfl

/-- Every piece comes from a parameter. -/
theorem exists_fits {bindings : Host.Bindings} {params : List (Param × Nat)} {xs : List Piece}
    (h : List.Forall₂ (fun p x => Fits bindings p.1 p.2 x) params xs) :
    ∀ x ∈ xs, ∃ p : Param × Nat, Fits bindings p.1 p.2 x := by
  induction h with
  | nil => exact List.forall_mem_nil _
  | cons hp _ ih =>
      intro x hx
      cases List.mem_cons.mp hx with
      | inl first => exact ⟨_, first ▸ hp⟩
      | inr later => exact ih x later

/-- The pieces of one party fit the parameters of that party. -/
theorem fits_suppliedBy {bindings : Host.Bindings} {params : List Param} {xs : List Piece}
    (h : List.Forall₂ (fun p x => Fits bindings p.1 p.2 x) params.zipIdx xs) (supply : Supply) :
    List.Forall₂ (fun p x => Fits bindings p.1 p.2 x) (suppliedBy supply params)
      (xs.filter fun x => x.supply = supply) := by
  refine List.rel_filter (fun {p x} hpx => ?_) h
  show decide _ = true ↔ decide _ = true
  rw [decide_eq_true_eq, decide_eq_true_eq, hpx.supply_eq]

section Parts

variable (positional : List Host.Ty) (env : List EnvParam) (arguments : List Argument)

theorem filter_position :
    (pieces positional env arguments).filter (fun x => x.supply = .position) =
      positional.map .positional := by
  simp [pieces, List.filter_map, Function.comp_def, Piece.supply]

theorem filter_name :
    (pieces positional env arguments).filter (fun x => x.supply = .name) = env.map .env := by
  simp [pieces, List.filter_map, Function.comp_def, Piece.supply]

theorem filter_script :
    (pieces positional env arguments).filter (fun x => x.supply = .script) =
      arguments.map .argument := by
  simp [pieces, List.filter_map, Function.comp_def, Piece.supply]

end Parts

/-! ## Names -/

theorem nodup_eraseDups : ∀ xs : List String, xs.eraseDups.Nodup
  | [] => List.nodup_nil
  | x :: xs => by
      rw [List.eraseDups_cons, List.nodup_cons]
      refine ⟨?_, nodup_eraseDups _⟩
      rw [List.mem_eraseDups, List.mem_filter]
      rintro ⟨-, h⟩
      simp at h
  termination_by xs => xs.length
  decreasing_by exact Nat.lt_succ_of_le (List.length_filter_le ..)

/-! ## The grammar -/

/-- The signatures that can be understood. -/
structure Signature.Grammatical (s : Signature) (bindings : Host.Bindings) : Prop where
  /-- The type of every parameter is known. -/
  types : ∀ p ∈ s.params, ∃ ty, p.ty.resolve bindings = .ok ty
  /-- The parameters are in the order of the five parts. -/
  arranged : Arranged s.params
  /-- The type of a variadic parameter is that of an array. -/
  arrays : ∀ p ∈ s.params, p.block = .variadic → ∃ e, p.ty.resolve bindings = .ok (.array e)
  /-- No two parameters are supplied under the same name. -/
  names : (envNames s.params).Nodup
  /-- The type of the result is known, and the tags fit it. -/
  result : ∃ ty, s.returns.resolve bindings = .ok ty ∧ s.ResultFits ty

/-- What a declaration owes to its signature. -/
structure Declaration.Reflects (d : Declaration) (s : Signature) (bindings : Host.Bindings)
    (source : String) : Prop where
  /-- The canonical name, then the other names, each where it stands first. -/
  names_eq : d.names = s.name :: (s.aliases.filter (· ≠ s.name)).eraseDups
  /-- No name is given twice. -/
  nodup : d.names.Nodup
  /-- The documentation is that of the signature. -/
  description_eq : d.description = s.description
  /-- The tag is that of the adapter. -/
  source_eq : d.source = source
  /-- The parameters by position are those of the signature, in order. -/
  positional : List.Forall₂ (fun p ty => Fits bindings p.1 p.2 (.positional ty))
    (suppliedBy .position s.params) d.positional
  /-- The parameters under names are those of the signature, in order. -/
  env : List.Forall₂ (fun p e => Fits bindings p.1 p.2 (.env e))
    (suppliedBy .name s.params) d.env
  /-- The arguments are the parameters of the script, in order. -/
  arguments : List.Forall₂ (fun p a => Fits bindings p.1 p.2 (.argument a))
    (suppliedBy .script s.params) d.arguments
  /-- The type of the result is that of the signature. -/
  returns : s.returns.resolve bindings = .ok d.returns
  /-- The tags of the result are those of the signature. -/
  resultTags_eq : d.resultTags = s.resultTags
  /-- The result is split if it is several values. -/
  multiple_iff : d.multiple = true ↔ s.MultiValued d.returns
  /-- No type of a parameter has variables. -/
  closed : ∀ x ∈ d.pieces, x.ty.hasVariables = false
  /-- The type of the result has no variables. -/
  returns_closed : d.returns.hasVariables = false

/-! ## Parsing -/

namespace Declaration

variable {s : Signature} {bindings : Host.Bindings} {source : String}

/-- The declaration for what was read of a signature. -/
def ofLayout (s : Signature) (source : String) (l : Layout) (returns : Host.Ty)
    (multiple : Bool) : Declaration where
  name := s.name
  description := s.description
  source
  aliases := (s.aliases.filter (· ≠ s.name)).eraseDups
  positional := l.positional
  env := l.env
  arguments := l.arguments
  returns
  resultTags := s.resultTags
  multiple

/-- A signature is understood part by part. -/
theorem parse_eq_ok_iff {c : Classification} {d : Declaration} :
    ((parse s bindings source).run c).1 = .ok d ↔
      ∃ l, ((s.params.foldlM (Layout.add bindings) {}).run c).1 = .ok l ∧
        ∃ returns, s.returns.resolve bindings = .ok returns ∧
          ∃ multiple, checkResult s returns = .ok multiple ∧
            ofLayout s source l returns multiple = d := by
  rw [parse, run_adapt, mapError_eq_ok, understand, fst_run_bind, bind_eq_ok]
  refine exists_congr fun l => and_congr_right fun _ => ?_
  rw [fst_run_bind, run_ofExcept, bind_eq_ok]
  refine exists_congr fun returns => and_congr mapError_eq_ok ?_
  rw [fst_run_bind, run_ofExcept, bind_eq_ok]
  refine exists_congr fun multiple => and_congr_right fun _ => ?_
  rw [run_pure]
  constructor
  · intro h
    cases h
    rfl
  · rintro rfl
    rfl

/-- The pieces of a declaration are what became of the parameters. -/
theorem fits_of_parse {c : Classification} {d : Declaration}
    (h : ((parse s bindings source).run c).1 = .ok d) :
    List.Forall₂ (fun p x => Fits bindings p.1 p.2 x) s.params.zipIdx d.pieces := by
  obtain ⟨l, hl, returns, -, multiple, -, rfl⟩ := parse_eq_ok_iff.mp h
  exact Layout.reads_nil.foldlM hl

/-- A parameter list can be read if its parameters are sound and in order. -/
theorem exists_read_iff (s : Signature) (bindings : Host.Bindings) (c : Classification) :
    (∃ l, ((s.params.foldlM (Layout.add bindings) {}).run c).1 = .ok l) ↔
      (∀ p ∈ s.params, p.Sound bindings) ∧ Ordered s.params := by
  have start : Layout.Reads bindings [] {} := Layout.reads_nil
  exact start.exists_foldlM_iff .nil

/-- No argument of a declaration but the last is variadic. -/
theorem not_variadic_of_parse {c : Classification} {d : Declaration}
    (h : ((parse s bindings source).run c).1 = .ok d) :
    d.arguments.Pairwise fun a _ => a.isVariadic = false := by
  have fits := fits_of_parse h
  obtain ⟨l, hl, -⟩ := parse_eq_ok_iff.mp h
  have ordered : (s.params.map Param.block).Pairwise Block.Precedes :=
    List.pairwise_map.mpr ((exists_read_iff s bindings c).mp ⟨l, hl⟩).2
  rw [← map_block_of_fits fits, List.pairwise_map, pieces, HostBridge.pieces] at ordered
  refine (List.pairwise_map.mp (List.pairwise_append.mp ordered).2.1).imp fun {a _} hp => ?_
  refine Layout.isVariadic_eq_false_iff.mpr fun b hb => hp.2.1 ?_
  rw [Piece.block, hb]
  rfl

/-- To be arranged is what can be read one parameter after the other. -/
theorem sound_and_ordered_iff :
    ((∀ p ∈ s.params, p.Sound bindings) ∧ Ordered s.params) ↔
      (∀ p ∈ s.params, ∃ ty, p.ty.resolve bindings = .ok ty) ∧
      (∀ p ∈ s.params, p.block = .variadic → ∃ e, p.ty.resolve bindings = .ok (.array e)) ∧
      Arranged s.params ∧ (envNames s.params).Nodup := by
  rw [arranged_iff]
  constructor
  · rintro ⟨hs, ho⟩
    refine ⟨?_, ?_, fun p hp => (hs p hp).1, ho⟩
    · intro p hp
      obtain ⟨-, ty, hr, -⟩ := hs p hp
      exact ⟨ty, hr⟩
    · intro p hp hv
      obtain ⟨-, ty, hr, ha⟩ := hs p hp
      obtain ⟨e, rfl⟩ := Host.Ty.isArray_iff.mp (ha hv)
      exact ⟨e, hr⟩
  · rintro ⟨ht, ha, hm, ho⟩
    refine ⟨?_, ho⟩
    intro p hp
    obtain ⟨ty, hr⟩ := ht p hp
    refine ⟨hm p hp, ty, hr, ?_⟩
    intro hv
    obtain ⟨e, he⟩ := ha p hp hv
    cases hr.symm.trans he
    rfl

theorem exists_parse_iff (s : Signature) (bindings : Host.Bindings) (source : String)
    (c : Classification) :
    (∃ d, ((parse s bindings source).run c).1 = .ok d) ↔ s.Grammatical bindings := by
  have read := (exists_read_iff s bindings c).trans sound_and_ordered_iff
  constructor
  · rintro ⟨d, h⟩
    obtain ⟨l, hl, returns, hr, multiple, hm, -⟩ := parse_eq_ok_iff.mp h
    obtain ⟨types, arrays, arranged, names⟩ := read.mp ⟨l, hl⟩
    exact ⟨types, arranged, arrays, names, returns, hr, (checkResult_eq_ok_iff.mp hm).1⟩
  · rintro ⟨types, arranged, arrays, names, returns, hr, hf⟩
    obtain ⟨l, hl⟩ := read.mpr ⟨types, arrays, arranged, names⟩
    -- The result is split or not, as its type says.
    obtain ⟨multiple, hm⟩ : ∃ multiple : Bool, multiple = true ↔ s.MultiValued returns := by
      by_cases h : s.MultiValued returns
      · exact ⟨true, by simp [h]⟩
      · exact ⟨false, by simp [h]⟩
    exact ⟨_, parse_eq_ok_iff.mpr
      ⟨l, hl, returns, hr, multiple, checkResult_eq_ok_iff.mpr ⟨hf, hm⟩, rfl⟩⟩

theorem reflects_of_parse {c : Classification} {d : Declaration}
    (h : ((parse s bindings source).run c).1 = .ok d) : d.Reflects s bindings source := by
  have fits := fits_of_parse h
  obtain ⟨l, -, returns, hr, multiple, hm, rfl⟩ := parse_eq_ok_iff.mp h
  have position := fits_suppliedBy fits .position
  have name := fits_suppliedBy fits .name
  have script := fits_suppliedBy fits .script
  rw [pieces, filter_position, List.forall₂_map_right_iff] at position
  rw [pieces, filter_name, List.forall₂_map_right_iff] at name
  rw [pieces, filter_script, List.forall₂_map_right_iff] at script
  refine ⟨rfl, ?_, rfl, rfl, position, name, script, hr, rfl, (checkResult_eq_ok_iff.mp hm).2, ?_,
    Host.Ty.hasVariables_of_resolve hr⟩
  · refine List.nodup_cons.mpr ⟨?_, nodup_eraseDups _⟩
    intro hn
    have other : s.name ∈ s.aliases.filter (· ≠ s.name) := List.mem_eraseDups.mp hn
    simp at other
  · intro x hx
    obtain ⟨p, hp⟩ := exists_fits fits x hx
    exact Host.Ty.hasVariables_of_resolve hp.resolve_eq

/-- A signature is understood exactly if it is grammatical, and then the declaration
reflects it. -/
theorem parse_exact (s : Signature) (bindings : Host.Bindings) (source : String)
    (c : Classification) :
    ((∃ d, ((parse s bindings source).run c).1 = .ok d) ↔ s.Grammatical bindings) ∧
    ∀ d, ((parse s bindings source).run c).1 = .ok d → d.Reflects s bindings source :=
  ⟨exists_parse_iff s bindings source c, fun _ => reflects_of_parse⟩

/-- A signature with all parts. -/
def melody : Signature where
  name := "play"
  params := [
    { ty := .object (.root "Organ"), role := .positional },
    { ty := .object (.root "Computer"), role := .env "computer" },
    .argument "pitch" .integer,
    { Param.argument "volume" .float with optional := true },
    { Param.argument "stops" (.array (.var "T")) with variadic := true }]
  returns := .list (.var "T")
  resultTags := [.number, .number]
  splitsResult := true
  aliases := ["strike", "play", "strike"]

/-- The signature is grammatical once its variable stands for a type. -/
theorem parse_exact_melody :
    melody.Grammatical (Dict.empty.insert "T" .string) ∧
      ∃ d, Declaration.Reflects d melody (Dict.empty.insert "T" .string) "organ" := by
  have parsed : ∃ d, ((parse melody (Dict.empty.insert "T" .string) "organ").run .empty).1 =
      .ok d := ⟨_, rfl⟩
  have exact := parse_exact melody (Dict.empty.insert "T" .string) "organ" .empty
  exact ⟨exact.1.mp parsed, parsed.imp exact.2⟩

end Declaration

end HostBridge

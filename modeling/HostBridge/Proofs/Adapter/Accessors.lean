import HostBridge.Proofs.Adapter.Composition
import HostBridge.Proofs.Adapter.Findings
import HostBridge.Proofs.Declaration.Targets
import HostBridge.Proofs.Host.Assignability

/-!
# Accessors of properties

The signatures of accessors are written by no author, and nothing can be wrong with them but
the types.  They are understood as soon as these resolve, and fit every adapter whose methods
have a target (`accepts_accessors_iff`).

What the reading accessor returns is tagged before any signature is read, the value of the
writing accessor when its signature is.  Both ask the classification for one type, and no
answer is forgotten in between (`resultTag_eq`), so the accessors agree
(`accessedBy_of_wraps`).
-/

namespace HostBridge

variable {σ : Type}

/-! ## Methods with a target -/

namespace Adapter

theorem Kind.verify_of_onTarget {kind : Kind} {d : Declaration} {target : Host.Class}
    {provided : EnvTypes} (targeted : kind ≠ .composed)
    (positional : d.positional = [.object target]) (env : d.env = []) :
    kind.verify d target provided = .ok () := by
  have callable : d.CallableOn target kind := by
    cases kind with
    | composed => exact absurd rfl targeted
    | peripheral => exact ⟨_, positional, Host.Ty.accepts_self _⟩
    | property => exact ⟨_, positional, Host.Ty.accepts_self _⟩
  refine verify_eq_ok_iff.mpr ⟨callable, Declaration.checkEnv_eq_ok_iff.mpr ?_⟩
  rw [env]
  exact List.forall_mem_nil _

namespace Definition

variable {d : Definition σ} {provided : EnvTypes} {spec : MethodSpec σ} {rest : List Param}

/-- A method of the target fits every adapter whose methods have a target. -/
theorem accepts_iff_of_onTarget (targeted : d.kind ≠ .composed)
    (on : spec.signature.OnTarget d.target rest) :
    d.Accepts provided spec ↔ spec.signature.Grammatical d.bindings := by
  constructor
  · intro accepted
    obtain ⟨declaration, parsed, -⟩ := accepted .empty
    exact (Declaration.exists_parse_iff _ _ _ .empty).mp ⟨declaration, parsed⟩
  · intro grammatical c
    obtain ⟨declaration, parsed⟩ :=
      (Declaration.exists_parse_iff _ _ d.sourceTag c).mpr grammatical
    have reflects := Declaration.reflects_of_parse parsed
    exact ⟨declaration, parsed, Kind.verify_of_onTarget targeted
      (reflects.positional_of_onTarget on) (reflects.env_of_onTarget on)⟩

end Definition

end Adapter

/-! ## Signatures of accessors -/

namespace Property

variable {p : Property σ} {target : Host.Class} {tag : Script.ResultTag}
  {bindings : Host.Bindings}

/-- The parameter for the index, if there is one. -/
def indexParams (p : Property σ) : List Param :=
  p.index.toList.map fun ty => .argument "index" ty "Property index"

/-- The parameter for the value to write. -/
def valueParam (p : Property σ) : Param := .argument "value" p.ty "New value"

theorem commonParams_eq (p : Property σ) (target : Host.Class) :
    p.commonParams target = { ty := .object target, role := .positional } :: p.indexParams := by
  rw [commonParams, indexParams]
  cases p.index <;> rfl

theorem length_indexParams (p : Property σ) : p.indexParams.length = p.index.toList.length :=
  List.length_map _

theorem required_of_mem_indexParams :
    ∀ q ∈ p.indexParams, q.block = .required ∧ q.Untagged :=
  List.forall_mem_map.mpr fun _ _ => ⟨rfl, Param.untagged_argument _ _ _⟩

theorem getterSignature_onTarget (p : Property σ) (target : Host.Class) (tag : Script.ResultTag) :
    (p.getterSignature target tag).OnTarget target p.indexParams where
  params_eq := p.commonParams_eq target
  required q hq := (required_of_mem_indexParams q hq).1
  untagged q hq := (required_of_mem_indexParams q hq).2

theorem setterSignature_onTarget (p : Property σ) (target : Host.Class) :
    (p.setterSignature target).OnTarget target (p.indexParams ++ [p.valueParam]) where
  params_eq := by
    rw [setterSignature, commonParams_eq]
    rfl
  required := List.forall_mem_append.mpr ⟨fun q hq => (required_of_mem_indexParams q hq).1,
    List.forall_mem_singleton.mpr rfl⟩
  untagged := List.forall_mem_append.mpr ⟨fun q hq => (required_of_mem_indexParams q hq).2,
    List.forall_mem_singleton.mpr (Param.untagged_argument _ _ _)⟩

theorem resolves_indexParams_iff :
    (∀ q ∈ p.indexParams, q.ty.Resolves bindings) ↔ ∀ ty ∈ p.index, ty.Resolves bindings := by
  rw [indexParams, List.forall_mem_map]
  cases p.index <;> simp [Param.argument]

/-- One tag fits every result. -/
theorem grammatical_getterSignature_iff :
    (p.getterSignature target tag).Grammatical bindings ↔ p.Resolves bindings := by
  have fits (ty : Host.Ty) : (p.getterSignature target tag).ResultFits ty := by
    by_cases multi : (p.getterSignature target tag).MultiValued ty
    · exact .inl ⟨multi, List.cons_ne_nil _ _⟩
    · exact .inr ⟨multi, rfl, Nat.le_refl 1⟩
  rw [(p.getterSignature_onTarget target tag).grammatical_iff, resolves_indexParams_iff]
  constructor
  · rintro ⟨index, ty, resolved, -⟩
    exact ⟨⟨ty, resolved⟩, index⟩
  · rintro ⟨⟨ty, resolved⟩, index⟩
    exact ⟨index, ty, resolved, fits ty⟩

theorem grammatical_setterSignature (h : p.Resolves bindings) :
    (p.setterSignature target).Grammatical bindings := by
  refine (p.setterSignature_onTarget target).grammatical_iff.mpr ⟨?_, .void, rfl, ?_⟩
  · exact List.forall_mem_append.mpr ⟨resolves_indexParams_iff.mpr h.index,
      List.forall_mem_singleton.mpr h.value⟩
  · refine .inr ⟨?_, rfl, Nat.zero_le 1⟩
    rintro (void | ⟨split, -⟩)
    · cases void
    · cases split

end Property

/-! ## Accessors -/

namespace Property

/-- What the accessors of a property have in common. -/
structure Common (p : Property σ) (d : Adapter.Definition σ) (m : Method σ) : Prop where
  /-- The host supplies the target and nothing else. -/
  positional_eq : m.declaration.positional = [.object d.target]
  env_eq : m.declaration.env = []
  flagged : .property ∈ m.flags
  group_eq : m.group = p.group.or d.group

/-- The method reads the property. -/
structure ReadBy (p : Property σ) (d : Adapter.Definition σ) (getter : Method σ) : Prop
    extends p.Common d getter where
  name_eq : getter.name = p.getterName
  function_eq : getter.function = p.getter
  /-- The script supplies the index, if there is one. -/
  index : List.Forall₂ (fun ty a => Argument.Takes a d.bindings "index" ty 1) p.index.toList
    getter.declaration.arguments
  returns : p.ty.resolve d.bindings = .ok getter.declaration.returns
  /-- There is one tag, that of the type. -/
  tagged : ∃ c, getter.declaration.resultTags =
    [.ofTag (Classification.classify getter.declaration.returns c).1.toTag]

/-- The method writes the property that the other one reads. -/
structure WrittenBy (p : Property σ) (d : Adapter.Definition σ) (getter setter : Method σ) : Prop
    extends p.Common d setter where
  name_eq : setter.name = p.setterName
  function_eq : some setter.function = p.setter
  /-- The script supplies what the other accessor takes, and then the value.  What the other
  accessor returns is tagged as the value is. -/
  value : ∃ a : Argument, setter.declaration.arguments = getter.declaration.arguments ++ [a] ∧
    a.Takes d.bindings "value" p.ty (1 + p.index.toList.length) ∧
    getter.declaration.resultTags = [.ofTag a.tag]

/-- The methods are the accessors of the property. -/
inductive AccessedBy (p : Property σ) (d : Adapter.Definition σ) : List (Method σ) → Prop
  | readOnly (getter : Method σ) (only : p.setter = none) (reads : p.ReadBy d getter) :
      AccessedBy p d [getter]
  | writable (getter setter : Method σ) (reads : p.ReadBy d getter)
      (writes : p.WrittenBy d getter setter) : AccessedBy p d [getter, setter]

/-! ## Accessors that were wrapped -/

section Wrapped

variable {p : Property σ} {d : Adapter.Definition σ} {bindings : Host.Bindings} {id : Nat}
  {c c' : Classification}

theorem common_of_wraps {spec : MethodSpec σ} {m : Method σ} {rest : List Param}
    (h : d.Wraps id c spec m) (on : spec.signature.OnTarget d.target rest)
    (marked : spec.ofProperty = true) (group : spec.group = p.group) : p.Common d m := by
  obtain ⟨place, c', declaration, parsed, rfl⟩ := h.understands
  have reflects := Declaration.reflects_of_parse parsed
  refine ⟨reflects.positional_of_onTarget on, reflects.env_of_onTarget on, ?_, ?_⟩
  · exact (Method.property_mem_flags _).mpr marked
  · rw [← group]
    exact d.groupOf_eq spec

/-- The argument is the index of a property, as it is shown to scripts. -/
structure IsIndex (c : Classification) (bindings : Host.Bindings) (ty : Host.Ty) (a : Argument) :
    Prop where
  takes : a.Takes bindings "index" ty 1
  description_eq : a.description = "Property index"
  shown : a.ShownBy c

theorem rightUnique_isIndex (c : Classification) (bindings : Host.Bindings) :
    Relator.RightUnique (IsIndex c bindings) := fun _ _ _ h h' =>
  h'.takes.eq h.takes (h.description_eq.trans h'.description_eq.symm) h'.shown h.shown

theorem isIndex_of_fits {arguments : List Argument}
    (fits : List.Forall₂ (fun p a => Fits bindings p.1 p.2 (.argument a)) (p.indexParams.zipIdx 1)
      arguments) (shown : ∀ a ∈ arguments, a.ShownBy c) :
    List.Forall₂ (IsIndex c bindings) p.index.toList arguments := by
  rw [indexParams] at fits
  cases hi : p.index with
  | none =>
      rw [hi] at fits
      cases fits
      exact .nil
  | some ty =>
      rw [hi] at fits
      obtain _ | ⟨fit, none⟩ := fits
      cases none
      obtain ⟨takes, description⟩ := Argument.takes_of_fits fit
      exact .cons ⟨takes, description, shown _ (List.mem_singleton_self _)⟩ .nil

/-- The tag of what is read is the one of the value to write, if what was found for the tag is
kept until the value is shown. -/
theorem resultTag_eq {a : Argument} {n : Nat} (takes : a.Takes bindings "value" p.ty n)
    (shown : a.ShownBy c) (kept : (p.resultTag bindings c').2.Keeps c) :
    (p.resultTag bindings c').1 = .ofTag a.tag := by
  rw [resultTag, takes.resolved] at kept ⊢
  have found := kept _ _ (Classification.kept?_classify a.ty c')
  rw [Argument.ShownBy, takes.required] at shown
  rw [Argument.tag, Option.some.inj (shown.symm.trans found)]
  rfl

/-- The reading accessor takes the index. -/
theorem isIndex_of_wraps {tag : Script.ResultTag} {getter : Method σ}
    (h : d.Wraps id c (p.getterSpec d.target tag) getter) :
    List.Forall₂ (IsIndex c d.bindings) p.index.toList getter.declaration.arguments := by
  have on := p.getterSignature_onTarget d.target tag
  have shown := h.shown on.forall_untagged
  obtain ⟨place, c', declaration, parsed, rfl⟩ := h.understands
  exact isIndex_of_fits ((Declaration.reflects_of_parse parsed).arguments_of_onTarget on) shown

theorem resultTags_of_wraps {tag : Script.ResultTag} {getter : Method σ}
    (h : d.Wraps id c (p.getterSpec d.target tag) getter) :
    getter.declaration.resultTags = [tag] := by
  obtain ⟨place, c', declaration, parsed, rfl⟩ := h.understands
  exact (Declaration.reflects_of_parse parsed).resultTags_eq

theorem readBy_of_wraps {getter : Method σ}
    (h : d.Wraps id c (p.getterSpec d.target (p.resultTag d.bindings c').1) getter) :
    p.ReadBy d getter := by
  have common := p.common_of_wraps h (p.getterSignature_onTarget d.target _) rfl rfl
  have index := isIndex_of_wraps h
  have tags := resultTags_of_wraps h
  obtain ⟨place, c₁, declaration, parsed, rfl⟩ := h.understands
  have reflects := Declaration.reflects_of_parse parsed
  have returns : p.ty.resolve d.bindings = .ok declaration.returns := reflects.returns
  rw [resultTag, returns] at tags
  exact ⟨common, (List.cons.inj reflects.names_eq).1, rfl, index.imp fun _ _ is => is.takes,
    returns, c', tags⟩

/-- The writing accessor takes what the reading one does, and the value. -/
theorem writtenBy_of_wraps {setter : HostFunction σ} {getter writer : Method σ}
    (hs : p.setter = some setter)
    (hg : d.Wraps id c (p.getterSpec d.target (p.resultTag d.bindings c').1) getter)
    (hw : d.Wraps id c (p.setterSpec d.target setter) writer)
    (kept : (p.resultTag d.bindings c').2.Keeps c) : p.WrittenBy d getter writer := by
  have on := p.setterSignature_onTarget d.target
  have common := p.common_of_wraps hw on rfl rfl
  have shown := hw.shown on.forall_untagged
  obtain ⟨place, c₁, declaration, parsed, rfl⟩ := hw.understands
  have reflects := Declaration.reflects_of_parse parsed
  -- The arguments are the index, as it is shown for the other accessor, and one more.
  have fits := reflects.arguments_of_onTarget on
  rw [List.zipIdx_append, length_indexParams] at fits
  obtain ⟨first, last, split, indices, values⟩ := exists_append_of_forall₂ fits
  obtain ⟨a, rest, fit, none, rfl⟩ := List.forall₂_cons_left_iff.mp values
  obtain rfl := List.forall₂_nil_left_iff.mp none
  obtain ⟨shownFirst, shownLast⟩ := List.forall_mem_append.mp (split ▸ shown)
  have same : first = getter.declaration.arguments := List.right_unique_forall₂'
    (rightUnique_isIndex c d.bindings) (isIndex_of_fits indices shownFirst) (isIndex_of_wraps hg)
  obtain ⟨takes, -⟩ := Argument.takes_of_fits fit
  have tag := resultTag_eq takes (List.forall_mem_singleton.mp shownLast) kept
  refine ⟨common, (List.cons.inj reflects.names_eq).1, hs.symm, a, same ▸ split, takes, ?_⟩
  rw [resultTags_of_wraps hg, tag]

end Wrapped

end Property

namespace Adapter.Definition

variable {d : Definition σ} {provided : EnvTypes}

/-- Accessors are accepted if their types resolve. -/
theorem accepts_accessors_iff (targeted : d.kind ≠ .composed) (p : Property σ)
    (tag : Script.ResultTag) :
    (∀ spec ∈ p.accessors d.target tag, d.Accepts provided spec) ↔ p.Resolves d.bindings := by
  have getter : d.Accepts provided (p.getterSpec d.target tag) ↔ p.Resolves d.bindings := by
    rw [accepts_iff_of_onTarget targeted (p.getterSignature_onTarget d.target tag)]
    exact Property.grammatical_getterSignature_iff
  cases hs : p.setter with
  | none => rw [Property.accessors_of_none hs, List.forall_mem_singleton, getter]
  | some setter =>
      rw [Property.accessors_of_some hs, List.forall_mem_cons, getter, List.forall_mem_singleton,
        accepts_iff_of_onTarget targeted (p.setterSignature_onTarget d.target)]
      exact and_iff_left_of_imp Property.grammatical_setterSignature

/-- Accessors that were wrapped agree. -/
theorem accessedBy_of_wraps {id : Nat} {c c' : Classification} {p : Property σ}
    {ms : List (Method σ)}
    (h : List.Forall₂ (d.Wraps id c) (p.accessors d.target (p.resultTag d.bindings c').1) ms)
    (kept : (p.resultTag d.bindings c').2.Keeps c) : p.AccessedBy d ms := by
  cases hs : p.setter with
  | none =>
      rw [Property.accessors_of_none hs] at h
      obtain _ | ⟨getter, none⟩ := h
      cases none
      exact .readOnly _ hs (Property.readBy_of_wraps getter)
  | some setter =>
      rw [Property.accessors_of_some hs] at h
      obtain _ | ⟨getter, setter | ⟨writer, none⟩⟩ := h
      cases none
      exact .writable _ _ (Property.readBy_of_wraps getter)
        (Property.writtenBy_of_wraps hs getter writer kept)

/-- Accessors are accepted exactly if the types of their property resolve, by every adapter
whose methods have a target, and an adapter of accessors only is built exactly if all types do.
When an adapter is built, the accessors of each property agree with each other. -/
theorem accessors_agree {d : Definition σ} (targeted : d.kind ≠ .composed) (id : Nat) (s : Setup) :
    let answer := ((d.build id).run s).1
    let generated := (d.generate s.classification).1
    List.Forall₂ (fun p group =>
      (∀ spec ∈ group, d.Accepts (s.envTypes d.kind) spec) ↔ p.Resolves d.bindings)
      d.properties generated ∧
    (d.methods = [] → d.provider = none →
      ((∃ a, answer = .ok a) ↔ ∀ p ∈ d.properties, p.Resolves d.bindings)) ∧
    ∀ found, d.provider.getD (.ok []) = .ok found →
      ∀ a, answer = .ok a → ∃ given accessors,
        a.methods = given ++ accessors.flatten ∧
        given.length = (d.methods ++ found).length ∧
        List.Forall₂ (fun p ms => p.AccessedBy d ms) d.properties accessors := by
  dsimp only
  have accepted : List.Forall₂ (fun p group =>
      (∀ spec ∈ group, d.Accepts (s.envTypes d.kind) spec) ↔ p.Resolves d.bindings)
      d.properties (d.generate s.classification).1 := by
    refine (d.accessors_of_generate s.classification).imp fun p group made => ?_
    obtain ⟨c, rfl, -⟩ := made
    exact accepts_accessors_iff targeted p _
  refine ⟨accepted, fun methods provider => ?_, fun found provider a built => ?_⟩
  · have found : d.provider.getD (.ok []) = .ok [] := by rw [provider]; rfl
    rw [exists_build_iff, specs_of_ok found, methods, List.nil_append, List.nil_append,
      forall_mem_flatten_iff]
    exact forall_mem_iff_of_forall₂ accepted.flip fun resolves => resolves
  · rw [fst_run_build, specs_of_ok provider, map_eq_ok] at built
    obtain ⟨ms, wrapped, rfl⟩ := built
    obtain ⟨s', run⟩ : ∃ s', (d.wrapAll id 0 _).run _ = (.ok ms, s') := ⟨_, Prod.ext wrapped rfl⟩
    obtain ⟨given, rest, rfl, first, later⟩ := exists_append_of_forall₂ (wraps_of_wrapAll run)
    obtain ⟨accessors, rfl, groups⟩ := exists_flatten_of_forall₂ later
    refine ⟨given, accessors, rfl, first.length_eq.symm, ?_⟩
    -- What was found when the accessors were made is kept until the last one is wrapped.
    have kept := remembers_of_wrapAll run
    refine forall₂_trans (d.accessors_of_generate s.classification) groups ?_
    rintro p group ms ⟨c, rfl, found⟩ wraps
    exact accessedBy_of_wraps wraps (Trans.trans found kept)

/-- A definition with a property for each rank of pipes, and one that is only read. -/
def pipework : Definition Unit where
  name := "Pipework"
  target := .root "Organ"
  kind := .property
  bindings := Dict.empty.insert "T" (.object (.root "Pipe"))
  properties := [
    { name := "pipe", ty := .var "T", index := some .integer, getter := .const .null
      setter := some (.const .null) },
    { name := "ranks", ty := .multi, getter := .const .null, group := some "stops" }]

/-- The three accessors of the two properties. -/
theorem accessors_agree_pipework :
    pipework.kind ≠ .composed ∧ ∃ a, ((pipework.build 0).run .initial).1 = .ok a ∧
      a.methods.length = 3 ∧ ∃ accessors, a.methods = accessors.flatten ∧
        List.Forall₂ (fun p ms => p.AccessedBy pipework ms) pipework.properties accessors := by
  have targeted : pipework.kind ≠ .composed := by decide
  obtain ⟨-, built, agree⟩ := accessors_agree targeted 0 .initial
  have resolve : ∀ p ∈ pipework.properties, p.Resolves pipework.bindings := by
    refine List.forall_mem_cons.mpr ⟨⟨⟨_, rfl⟩, ?_⟩, List.forall_mem_singleton.mpr ⟨⟨_, rfl⟩, nofun⟩⟩
    rintro _ ⟨⟩
    exact ⟨_, rfl⟩
  obtain ⟨a, ok⟩ := (built rfl rfl).mpr resolve
  obtain ⟨given, accessors, methods, none, accessed⟩ := agree [] rfl a ok
  obtain rfl := List.length_eq_zero_iff.mp none
  refine ⟨targeted, a, ok, ?_, accessors, methods, accessed⟩
  have three : ((pipework.build 0).run .initial).1.toOption.map (fun a => a.methods.length) =
      some 3 := by decide +kernel
  rw [ok] at three
  exact Option.some.inj three

end Adapter.Definition

end HostBridge

import HostBridge.Proofs.Declaration.Blocks
import HostBridge.Proofs.Running

/-!
# Reading a parameter list

A declaration holds its parameters in three lists.  `pieces` puts them together again,
in the order in which the host function takes them.

A parameter list is read one parameter after the other.  `slotOf_eq_ok_iff` says which
parameter may come next, and `pieces_extend` that it becomes the next piece.  So the
pieces of what was read fit the parameters one by one (`fits_of_foldlM`), and a list can
be read to its end exactly if it is in order and its types are right
(`exists_foldlM_iff`).
-/

namespace HostBridge

/-! ## Pieces -/

/-- What a parameter became. -/
inductive Piece where
  /-- A parameter the host supplies by position. -/
  | positional (ty : Host.Ty)
  /-- A parameter the host supplies under a name. -/
  | env (e : EnvParam)
  /-- A parameter the script supplies. -/
  | argument (a : Argument)

/-- The part of a parameter list that an argument belongs to. -/
def Presence.block : Presence → Block
  | .required => .required
  | .optional => .optional
  | .variadic _ => .variadic

namespace Piece

/-- The type of the value. -/
def ty : Piece → Host.Ty
  | positional ty => ty
  | env e => e.ty
  | argument a => a.ty

/-- The part of a parameter list that the piece comes from. -/
def block : Piece → Block
  | positional _ => .positional
  | env e => .env e.name
  | argument a => a.presence.block

end Piece

/-- Three lists of parameters put together. -/
def pieces (positional : List Host.Ty) (env : List EnvParam) (arguments : List Argument) :
    List Piece :=
  positional.map .positional ++ env.map .env ++ arguments.map .argument

/-- The pieces read so far. -/
def Layout.pieces (l : Layout) : List Piece :=
  HostBridge.pieces l.positional l.env l.arguments

/-- The pieces of a declaration, in the order of the host function. -/
def Declaration.pieces (d : Declaration) : List Piece :=
  HostBridge.pieces d.positional d.env d.arguments

theorem Layout.length_pieces (l : Layout) : l.pieces.length = l.size := by
  simp [pieces, HostBridge.pieces, size, Nat.add_assoc]

theorem Layout.forall_mem_pieces {l : Layout} {P : Piece → Prop} :
    (∀ x ∈ l.pieces, P x) ↔
      (∀ ty ∈ l.positional, P (.positional ty)) ∧ (∀ e ∈ l.env, P (.env e)) ∧
        ∀ a ∈ l.arguments, P (.argument a) := by
  simp only [pieces, HostBridge.pieces, List.forall_mem_append, List.forall_mem_map, and_assoc]

/-! ## Parameters and their pieces -/

/-- How many values a parameter of the script takes. -/
def Param.presence (p : Param) : Presence :=
  if p.variadic then .variadic p.optional else if p.optional then .optional else .required

theorem Param.block_of_script {p : Param} {name description : String} {tag : Script.Tag}
    (h : p.role = .script name description tag) : p.block = p.presence.block := by
  rw [block, presence, h]
  cases p.variadic <;> cases p.optional <;> rfl

/-- The type of the parameter is known, and its marks fit the role and the type. -/
def Param.Sound (bindings : Host.Bindings) (p : Param) : Prop :=
  p.block ≠ .misplaced ∧ ∃ ty, p.ty.resolve bindings = .ok ty ∧ (p.block = .variadic → ty.isArray)

/-- The piece is what the parameter at an index of a signature became. -/
inductive Fits (bindings : Host.Bindings) (p : Param) (index : Nat) : Piece → Prop where
  /-- A parameter by position keeps its type. -/
  | positional {ty : Host.Ty} (hr : p.role = .positional) (ht : p.ty.resolve bindings = .ok ty)
      (hb : p.block = .positional) :
      Fits bindings p index (.positional ty)
  /-- A parameter under a name keeps the name, the type and the index. -/
  | env {e : EnvParam} (hr : p.role = .env e.name) (ht : p.ty.resolve bindings = .ok e.ty)
      (hi : e.index = index) (hb : p.block = .env e.name) :
      Fits bindings p index (.env e)
  /-- A parameter of the script keeps all but the tag, which tells the shape if it was
  given.  If it is variadic, it has the type of an array. -/
  | argument {a : Argument} {tag : Script.Tag}
      (hr : p.role = .script a.name a.description tag)
      (ht : p.ty.resolve bindings = .ok a.ty) (hi : a.index = index)
      (hp : a.presence = p.presence) (hs : tag ≠ .auto → a.shape = .tag tag)
      (ha : a.isVariadic → a.ty.isArray) :
      Fits bindings p index (.argument a)

theorem Fits.block_eq {bindings : Host.Bindings} {p : Param} {index : Nat} {x : Piece}
    (h : Fits bindings p index x) : x.block = p.block := by
  cases h with
  | positional hr ht hb => exact hb.symm
  | env hr ht hi hb => exact hb.symm
  | argument hr ht hi hp hs ha =>
      rw [Param.block_of_script hr, ← hp]
      rfl

theorem Fits.resolve_eq {bindings : Host.Bindings} {p : Param} {index : Nat} {x : Piece}
    (h : Fits bindings p index x) : p.ty.resolve bindings = .ok x.ty := by
  cases h with
  | positional hr ht hb => exact ht
  | env hr ht hi hb => exact ht
  | argument hr ht hi hp hs ha => exact ht

/-- Pieces are of the parts that the parameters belong to. -/
theorem map_block_of_fits {bindings : Host.Bindings} {params : List Param} {xs : List Piece}
    (h : List.Forall₂ (fun p x => Fits bindings p.1 p.2 x) params.zipIdx xs) :
    xs.map Piece.block = params.map Param.block := by
  have same : List.Forall₂ (· = ·) (params.zipIdx.map fun p => p.1.block) (xs.map Piece.block) := by
    rw [List.forall₂_map_left_iff, List.forall₂_map_right_iff]
    exact h.imp fun _ _ h => h.block_eq.symm
  rw [List.forall₂_eq_eq_eq] at same
  calc xs.map Piece.block
    _ = params.zipIdx.map fun p => p.1.block := same.symm
    _ = (params.zipIdx.map Prod.fst).map Param.block := by rw [List.map_map]; rfl
    _ = params.map Param.block := by rw [List.zipIdx_map_fst]

/-! ## The next parameter -/

namespace Layout

variable {bindings : Host.Bindings}

/-- The parameter may come next, with the given type. -/
structure Admits (bindings : Host.Bindings) (l : Layout) (p : Param) (ty : Host.Ty) : Prop where
  /-- Its variables stand for the type. -/
  resolved : p.ty.resolve bindings = .ok ty
  /-- It is marked as it may be. -/
  placed : p.block ≠ .misplaced
  /-- If it takes the rest of the values, it is an array. -/
  array : p.block = .variadic → ty.isArray
  /-- It may follow all pieces. -/
  later : ∀ x ∈ l.pieces, x.block.Precedes p.block

/-- What a parameter is in its place. -/
def slot (p : Param) (ty : Host.Ty) : Slot :=
  match p.role with
  | .positional => .positional ty
  | .env name => .env name ty
  | .script name description tag => .script name description tag ty p.presence

theorem variadic?_eq_none_iff {l : Layout} :
    l.variadic? = none ↔ ∀ a ∈ l.arguments, a.isVariadic = false := by
  simp [variadic?]

theorem isVariadic_iff {a : Argument} : a.isVariadic = true ↔ ∃ b, a.presence = .variadic b := by
  rw [Argument.isVariadic]
  cases a.presence <;> simp

theorem isVariadic_eq_false_iff {a : Argument} :
    a.isVariadic = false ↔ ∀ b, a.presence ≠ .variadic b := by
  rw [← Bool.not_eq_true, isVariadic_iff, not_exists]

/-- A parameter by position may follow others by position only. -/
theorem later_positional_iff {l : Layout} :
    (∀ x ∈ l.pieces, x.block.Precedes .positional) ↔ l.env = [] ∧ l.arguments = [] := by
  rw [forall_mem_pieces]
  constructor
  · rintro ⟨-, he, ha⟩
    constructor
    · refine List.eq_nil_iff_forall_not_mem.mpr ?_
      intro e h
      have := (he e h).1
      simp [Piece.block, Block.rank] at this
    · refine List.eq_nil_iff_forall_not_mem.mpr ?_
      intro a h
      have := (ha a h).1
      cases hp : a.presence <;> simp [Piece.block, hp, Presence.block, Block.rank] at this
  · rintro ⟨he, ha⟩
    rw [he, ha]
    refine ⟨fun _ _ => Block.precedes_self ?_ rfl, List.forall_mem_nil _, List.forall_mem_nil _⟩
    intro h
    cases h

/-- A parameter under a name may follow all of the host, but none of the same name. -/
theorem later_env_iff {l : Layout} {name : String} :
    (∀ x ∈ l.pieces, x.block.Precedes (.env name)) ↔
      l.arguments = [] ∧ ∀ e ∈ l.env, e.name ≠ name := by
  rw [forall_mem_pieces]
  constructor
  · rintro ⟨-, he, ha⟩
    constructor
    · refine List.eq_nil_iff_forall_not_mem.mpr ?_
      intro a h
      have := (ha a h).1
      cases hp : a.presence <;> simp [Piece.block, hp, Presence.block, Block.rank] at this
    · intro e h hn
      have named : name ∈ (Piece.env e).block.name? := by
        rw [Piece.block, hn]
        rfl
      exact (he e h).2.2 name named rfl
  · rintro ⟨ha, he⟩
    rw [ha]
    refine ⟨fun _ _ => Block.precedes_of_lt (Nat.lt_succ_self 0), ?_, List.forall_mem_nil _⟩
    intro e h
    refine ⟨Nat.le_refl _, ?_, ?_⟩
    · intro hv
      cases hv
    · rintro _ ⟨⟩ ⟨⟩
      exact he e h rfl

theorem precedes_presence_iff {q p : Presence} :
    q.block.Precedes p.block ↔ (∀ b, q ≠ .variadic b) ∧ (p = .required → q ≠ .optional) := by
  cases q <;> cases p <;> simp [Presence.block, Block.Precedes, Block.rank, Block.name?]

/-- An argument may follow any that is not variadic, and a required one none that is
optional. -/
theorem later_presence_iff {l : Layout} {p : Presence} :
    (∀ x ∈ l.pieces, x.block.Precedes p.block) ↔
      (∀ a ∈ l.arguments, a.isVariadic = false) ∧ (p = .required → l.hasOptional = false) := by
  have hosts {b : Block} (h : b.rank < 2) : b.Precedes p.block := by
    refine Block.precedes_of_lt (Nat.lt_of_lt_of_le h ?_)
    cases p <;> simp [Presence.block, Block.rank]
  have arguments : (∀ a ∈ l.arguments, a.presence.block.Precedes p.block) ↔ _ :=
    forall₂_congr fun a _ => precedes_presence_iff
  rw [forall_mem_pieces]
  constructor
  · rintro ⟨-, -, h⟩
    have h := arguments.mp h
    refine ⟨fun a ha => isVariadic_eq_false_iff.mpr (h a ha).1, fun hp => ?_⟩
    simp only [hasOptional, List.any_eq_false, decide_eq_true_eq]
    exact fun a ha => (h a ha).2 hp
  · rintro ⟨hv, ho⟩
    refine ⟨fun _ _ => hosts (Nat.zero_lt_succ 1), fun e _ => hosts (Nat.lt_succ_self 1), ?_⟩
    refine arguments.mpr fun a ha => ⟨isVariadic_eq_false_iff.mp (hv a ha), fun hp => ?_⟩
    have none := ho hp
    simp only [hasOptional, List.any_eq_false, decide_eq_true_eq] at none
    exact none a ha

theorem checkHostSupplied_eq_ok_iff {index : Nat} {p : Param} :
    checkHostSupplied index p = .ok () ↔ p.optional = false ∧ p.variadic = false := by
  rw [checkHostSupplied]
  cases p.optional <;> cases p.variadic <;> simp

/-- A parameter of the host is placed exactly if it carries no marks. -/
theorem block_of_host {p : Param} {b : Block} (index : Nat)
    (h : p.block = if p.optional || p.variadic then .misplaced else b) (hb : b ≠ .misplaced) :
    (p.block ≠ .misplaced ↔ checkHostSupplied index p = .ok ()) ∧
      (checkHostSupplied index p = .ok () → p.block = b) := by
  rw [checkHostSupplied_eq_ok_iff, h]
  cases p.optional <;> cases p.variadic <;> simp [hb]

theorem block_of_positional {p : Param} (index : Nat) (hr : p.role = .positional) :
    (p.block ≠ .misplaced ↔ checkHostSupplied index p = .ok ()) ∧
      (checkHostSupplied index p = .ok () → p.block = .positional) :=
  block_of_host index (by rw [Param.block, hr]) (by simp)

theorem block_of_env {p : Param} {name : String} (index : Nat) (hr : p.role = .env name) :
    (p.block ≠ .misplaced ↔ checkHostSupplied index p = .ok ()) ∧
      (checkHostSupplied index p = .ok () → p.block = .env name) :=
  block_of_host index (by rw [Param.block, hr]) (by simp)

theorem presence_eq_ok_iff {l : Layout} {p : Param} {name : String} {ty : Host.Ty}
    {r : Presence} :
    l.presence p name ty = .ok r ↔
      r = p.presence ∧ (p.variadic = true → ty.isArray = true) ∧
        (p.presence = .required → l.hasOptional = false) := by
  rw [presence, Param.presence]
  cases p.variadic <;> cases p.optional <;> cases ty.isArray <;> cases l.hasOptional <;>
    simp [eq_comm]

section Slot

variable {l : Layout} {p : Param} {ty : Host.Ty} {x : Slot}

theorem slotOf_positional (hv : l.variadic? = none) (ht : p.ty.resolve bindings = .ok ty)
    (hr : p.role = .positional) :
    l.slotOf bindings p = .ok x ↔ l.Admits bindings p ty ∧ x = .positional ty := by
  obtain ⟨placed, hb⟩ := block_of_positional l.size hr
  rw [slotOf, hv, ht, hr]
  show (if _ then _ else Except.bind _ _) = _ ↔ _
  constructor
  · intro h
    split at h
    · cases h
    · rename_i hl
      obtain ⟨_, hc, hs⟩ := bind_eq_ok.mp h
      cases hs
      have hb := hb hc
      refine ⟨⟨ht, placed.mpr hc, ?_, ?_⟩, rfl⟩
      · intro hv
        cases hb.symm.trans hv
      · rw [hb, later_positional_iff]
        simpa using hl
  · rintro ⟨⟨-, hp, -, hl⟩, rfl⟩
    have hc := placed.mp hp
    rw [hb hc, later_positional_iff] at hl
    rw [if_neg (by simp [hl]), hc]
    rfl

theorem slotOf_env (hv : l.variadic? = none) (ht : p.ty.resolve bindings = .ok ty)
    {name : String} (hr : p.role = .env name) :
    l.slotOf bindings p = .ok x ↔ l.Admits bindings p ty ∧ x = .env name ty := by
  obtain ⟨placed, hb⟩ := block_of_env l.size hr
  rw [slotOf, hv, ht, hr]
  show (if _ then _ else Except.bind _ _) = _ ↔ _
  constructor
  · intro h
    split at h
    · cases h
    · rename_i hl
      obtain ⟨_, hc, hs⟩ := bind_eq_ok.mp h
      split at hs
      · cases hs
      · rename_i hn
        cases hs
        have hb := hb hc
        refine ⟨⟨ht, placed.mpr hc, ?_, ?_⟩, rfl⟩
        · intro hv
          cases hb.symm.trans hv
        · rw [hb, later_env_iff]
          exact ⟨by simpa using hl, by simpa using hn⟩
  · rintro ⟨⟨-, hp, -, hl⟩, rfl⟩
    have hc := placed.mp hp
    rw [hb hc, later_env_iff] at hl
    rw [if_neg (by simp [hl.1]), hc]
    exact if_neg (by simpa using hl.2)

theorem slotOf_script (hv : l.variadic? = none) (ht : p.ty.resolve bindings = .ok ty)
    {name description : String} {tag : Script.Tag} (hr : p.role = .script name description tag) :
    l.slotOf bindings p = .ok x ↔
      l.Admits bindings p ty ∧ x = .script name description tag ty p.presence := by
  have placed : p.block ≠ .misplaced := by
    rw [Param.block_of_script hr]
    cases p.presence <;> simp [Presence.block]
  have variadic : p.block = .variadic ↔ p.variadic = true := by
    rw [Param.block, hr]
    cases p.variadic <;> cases p.optional <;> simp
  rw [slotOf, hv, ht, hr]
  show Except.bind (l.presence p name ty) _ = _ ↔ _
  rw [bind_eq_ok]
  constructor
  · rintro ⟨r, hp, hs⟩
    obtain ⟨rfl, ha, ho⟩ := presence_eq_ok_iff.mp hp
    cases hs
    refine ⟨⟨ht, placed, fun hb => ha (variadic.mp hb), ?_⟩, rfl⟩
    rw [Param.block_of_script hr, later_presence_iff]
    exact ⟨variadic?_eq_none_iff.mp hv, ho⟩
  · rintro ⟨⟨-, -, ha, hl⟩, rfl⟩
    rw [Param.block_of_script hr, later_presence_iff] at hl
    exact ⟨_, presence_eq_ok_iff.mpr ⟨rfl, fun h => ha (variadic.mpr h), hl.2⟩, rfl⟩

/-- Nothing may follow a variadic argument. -/
theorem Admits.variadic?_eq_none (h : l.Admits bindings p ty) : l.variadic? = none := by
  refine variadic?_eq_none_iff.mpr ?_
  intro a ha
  refine isVariadic_eq_false_iff.mpr ?_
  intro b hb
  have before := (forall_mem_pieces.mp h.later).2.2 a ha
  rw [Piece.block, hb] at before
  exact before.2.1 rfl

/-- The parameters that are accepted are those that may come next. -/
theorem slotOf_eq_ok_iff :
    l.slotOf bindings p = .ok x ↔ ∃ ty, l.Admits bindings p ty ∧ x = slot p ty := by
  cases hv : l.variadic? with
  | some name =>
      rw [slotOf, hv]
      constructor
      · intro h
        cases h
      · rintro ⟨ty, h, -⟩
        cases hv.symm.trans h.variadic?_eq_none
  | none =>
      cases ht : p.ty.resolve bindings with
      | error e =>
          rw [slotOf, hv, ht]
          constructor
          · intro h
            cases h
          · rintro ⟨ty, h, -⟩
            cases ht.symm.trans h.resolved
      | ok ty =>
          have role : l.slotOf bindings p = .ok x ↔ l.Admits bindings p ty ∧ x = slot p ty := by
            rw [slot]
            cases hr : p.role with
            | positional => exact slotOf_positional hv ht hr
            | env name => exact slotOf_env hv ht hr
            | script name description tag => exact slotOf_script hv ht hr
          rw [role]
          constructor
          · intro h
            exact ⟨ty, h⟩
          · rintro ⟨ty', h, hx⟩
            cases ht.symm.trans h.resolved
            exact ⟨h, hx⟩

end Slot

/-- A parameter that may come next becomes the next piece. -/
theorem pieces_extend {l : Layout} {p : Param} {ty : Host.Ty} (h : l.Admits bindings p ty)
    (c : Classification) :
    ∃ x, ((l.extend (slot p ty)) c).1.pieces = l.pieces ++ [x] ∧ Fits bindings p l.size x := by
  have later := h.later
  have placed := h.placed
  rw [slot]
  cases hr : p.role with
  | positional =>
      obtain ⟨hc, hb⟩ := block_of_positional l.size hr
      have hb := hb (hc.mp placed)
      rw [hb, later_positional_iff] at later
      refine ⟨.positional ty, ?_, .positional hr h.resolved hb⟩
      show HostBridge.pieces (l.positional ++ [ty]) l.env l.arguments = _
      rw [Layout.pieces, later.1, later.2]
      simp [HostBridge.pieces]
  | env name =>
      obtain ⟨hc, hb⟩ := block_of_env l.size hr
      have hb := hb (hc.mp placed)
      rw [hb, later_env_iff] at later
      refine ⟨.env ⟨name, ty, l.size⟩, ?_, .env hr h.resolved rfl hb⟩
      show HostBridge.pieces l.positional (l.env ++ [_]) l.arguments = _
      rw [Layout.pieces, later.1]
      simp [HostBridge.pieces]
  | script name description tag =>
      have shape (hs : tag ≠ .auto) : (shapeOf tag ty p.presence c).1 = .tag tag := by
        rw [shapeOf, if_neg hs]
        rfl
      have array : (∃ b, p.presence = .variadic b) → ty.isArray := by
        rintro ⟨b, hp⟩
        refine h.array ?_
        rw [Param.block_of_script hr, hp]
        rfl
      let a : Argument :=
        ⟨name, description, (shapeOf tag ty p.presence c).1, ty, l.size, p.presence⟩
      refine ⟨.argument a, ?_, .argument hr h.resolved rfl rfl shape ?_⟩
      · show HostBridge.pieces l.positional l.env (l.arguments ++ [_]) = _
        simp [Layout.pieces, HostBridge.pieces]
        rfl
      · intro hv
        exact array (isVariadic_iff.mp hv)

theorem fst_run_add (l : Layout) (p : Param) (c : Classification) :
    ((add bindings l p).run c).1 = (l.slotOf bindings p).map fun x => (l.extend x c).1 := by
  rw [add]
  cases l.slotOf bindings p <;> rfl

/-! ## The whole list -/

/-- The layout holds what the parameters became, one by one. -/
def Reads (bindings : Host.Bindings) (params : List Param) (l : Layout) : Prop :=
  List.Forall₂ (fun p x => Fits bindings p.1 p.2 x) params.zipIdx l.pieces

theorem reads_nil : Reads bindings [] {} := .nil

theorem Reads.length_eq {params : List Param} {l : Layout} (h : Reads bindings params l) :
    l.size = params.length := by
  rw [← l.length_pieces, ← List.Forall₂.length_eq h, List.length_zipIdx]

/-- A parameter may come next if all that were read precede it. -/
theorem Reads.later_iff {params : List Param} {l : Layout} (h : Reads bindings params l)
    (b : Block) :
    (∀ x ∈ l.pieces, x.block.Precedes b) ↔ ∀ q ∈ params, q.block.Precedes b := by
  have mapped : (∀ a ∈ l.pieces.map Piece.block, a.Precedes b) ↔ _ := List.forall_mem_map
  rw [map_block_of_fits h, List.forall_mem_map] at mapped
  exact mapped.symm

/-- One more parameter is one more piece. -/
theorem Reads.add {params : List Param} {l l' : Layout} (h : Reads bindings params l) {p : Param}
    {c : Classification} (ha : ((Layout.add bindings l p).run c).1 = .ok l') :
    (∃ ty, l.Admits bindings p ty) ∧ Reads bindings (params ++ [p]) l' := by
  rw [fst_run_add, map_eq_ok] at ha
  obtain ⟨x, hx, rfl⟩ := ha
  obtain ⟨ty, hadm, rfl⟩ := slotOf_eq_ok_iff.mp hx
  obtain ⟨y, hy, hfits⟩ := pieces_extend hadm c
  refine ⟨⟨ty, hadm⟩, ?_⟩
  rw [Reads, hy, List.zipIdx_append]
  refine List.rel_append h (.cons ?_ .nil)
  rw [h.length_eq] at hfits
  rwa [Nat.zero_add]

/-- A list that was read to its end became the pieces. -/
theorem Reads.foldlM {params read : List Param} {l l' : Layout} {c : Classification}
    (h : Reads bindings read l)
    (ha : ((params.foldlM (Layout.add bindings) l).run c).1 = .ok l') :
    Reads bindings (read ++ params) l' := by
  induction params generalizing read l c with
  | nil =>
      cases ha
      rwa [List.append_nil]
  | cons p params ih =>
      rw [List.foldlM_cons, fst_run_bind, bind_eq_ok] at ha
      obtain ⟨l₁, h₁, ha⟩ := ha
      have rest := ih (h.add h₁).2 ha
      rwa [List.append_assoc] at rest

/-- A list can be read to its end exactly if its parameters are sound and in order. -/
theorem Reads.exists_foldlM_iff {params read : List Param} {l : Layout} {c : Classification}
    (h : Reads bindings read l) (ho : Ordered read) :
    (∃ l', ((params.foldlM (Layout.add bindings) l).run c).1 = .ok l') ↔
      (∀ p ∈ params, p.Sound bindings) ∧ Ordered (read ++ params) := by
  -- The induction is on what is left to read, for every list that was read before.
  induction params generalizing read l c with
  | nil =>
      rw [List.append_nil]
      constructor
      · intro _
        exact ⟨List.forall_mem_nil _, ho⟩
      · intro _
        exact ⟨l, rfl⟩
  | cons p params ih =>
      have split : read ++ p :: params = read ++ [p] ++ params := by
        rw [List.append_assoc, List.singleton_append]
      rw [List.foldlM_cons, fst_run_bind, List.forall_mem_cons, split]
      constructor
      · rintro ⟨l', h'⟩
        obtain ⟨l₁, h₁, ha⟩ := bind_eq_ok.mp h'
        obtain ⟨⟨ty, hadm⟩, hread⟩ := h.add h₁
        have ordered : Ordered (read ++ [p]) := by
          refine List.pairwise_append.mpr ⟨ho, List.pairwise_singleton .., ?_⟩
          intro q hq p' hp'
          rw [List.mem_singleton.mp hp']
          exact (h.later_iff p.block).mp hadm.later q hq
        obtain ⟨hs, ho'⟩ := (ih hread ordered).mp ⟨l', ha⟩
        exact ⟨⟨⟨hadm.placed, ty, hadm.resolved, hadm.array⟩, hs⟩, ho'⟩
      · rintro ⟨⟨⟨hp, ty, hr, ha⟩, hs⟩, ho'⟩
        have ordered : Ordered (read ++ [p]) :=
          List.Pairwise.sublist (List.sublist_append_left ..) ho'
        have later : ∀ q ∈ read, q.block.Precedes p.block := by
          intro q hq
          exact (List.pairwise_append.mp ordered).2.2 q hq p (List.mem_singleton_self p)
        have hadm : l.Admits bindings p ty := ⟨hr, hp, ha, (h.later_iff p.block).mpr later⟩
        have added : ((Layout.add bindings l p).run c).1 = .ok (l.extend (slot p ty) c).1 := by
          rw [fst_run_add, slotOf_eq_ok_iff.mpr ⟨ty, hadm, rfl⟩]
          rfl
        rw [added]
        exact (ih (h.add added).2 ordered).mpr ⟨hs, ho'⟩

end Layout

end HostBridge

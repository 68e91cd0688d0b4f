import HostBridge.Proofs.Declaration.Grammar

/-!
# Shapes that were found

A classification keeps its answers, and questions only add to what it keeps (`Keeps`).  So
all who ask for the shape of one type find the same one, as long as no classifier is
registered in between.

An argument that was given no tag has the shape that was found for its type.  To read a
signature leaves that shape kept (`shown_of_parse`), and whatever is found later agrees with
it.
-/

namespace HostBridge

/-! ## Answers -/

namespace Classification

/-- What was kept is kept still. -/
def Keeps (c c' : Classification) : Prop :=
  ∀ ty shape, c.kept? ty = some shape → c'.kept? ty = some shape

instance : Std.Refl Keeps := ⟨fun _ _ _ kept => kept⟩

instance : Trans Keeps Keeps Keeps :=
  ⟨fun first later ty shape kept => later ty shape (first ty shape kept)⟩

theorem kept?_append (classifiers : List Classifier) (kept : List (Host.Ty × Script.Shape))
    (new : Host.Ty × Script.Shape) (ty : Host.Ty) :
    kept? ⟨classifiers, kept ++ [new]⟩ ty =
      (kept? ⟨classifiers, kept⟩ ty).or (if new.1.equal ty then some new.2 else none) := by
  rw [kept?, kept?, List.find?_append, List.find?_singleton]
  cases kept.find? fun entry => entry.1.equal ty with
  | some entry => rfl
  | none => cases new.1.equal ty <;> rfl

theorem keeps_classify (ty : Host.Ty) (c : Classification) : c.Keeps (classify ty c).2 := by
  rw [classify]
  cases c.kept? ty with
  | some shape => exact Std.Refl.refl c
  | none =>
      intro other shape kept
      rw [kept?_append, kept]
      rfl

/-- The answer to a question is kept. -/
theorem kept?_classify (ty : Host.Ty) (c : Classification) :
    (classify ty c).2.kept? ty = some (classify ty c).1 := by
  rw [classify]
  cases h : c.kept? ty with
  | some shape => exact h
  | none =>
      dsimp only
      rw [kept?_append, h, ty.equal_self]
      rfl

end Classification

open Classification (Keeps)

/-! ## Arguments -/

/-- The argument has the shape that was found for its type. -/
def Argument.ShownBy (c : Classification) (a : Argument) : Prop :=
  c.kept? (Layout.shownType a.ty a.presence) = some a.shape

theorem Argument.ShownBy.keeps {c c' : Classification} {a : Argument} (h : a.ShownBy c)
    (kept : c.Keeps c') : a.ShownBy c' :=
  kept _ _ h

/-- The shapes of arguments of one type are the same. -/
theorem Argument.ShownBy.shape_eq {c : Classification} {a a' : Argument} (h : a.ShownBy c)
    (h' : a'.ShownBy c) (ty : a'.ty = a.ty) (presence : a'.presence = a.presence) :
    a'.shape = a.shape := by
  rw [ShownBy, ty, presence] at h'
  exact Option.some.inj (h'.symm.trans h)

/-- The parameter was given no tag. -/
def Param.Untagged (p : Param) : Prop :=
  ∀ name description tag, p.role = .script name description tag → tag = .auto

namespace Layout

variable {bindings : Host.Bindings} {l l' : Layout} {c c' : Classification}

theorem run_add (l : Layout) (p : Param) (c : Classification) :
    (add bindings l p).run c =
      match l.slotOf bindings p with
      | .error fault => (.error fault, c)
      | .ok x => (.ok (l.extend x c).1, (l.extend x c).2) := by
  rw [add]
  cases l.slotOf bindings p <;> rfl

theorem keeps_shapeOf (tag : Script.Tag) (ty : Host.Ty) (presence : Presence)
    (c : Classification) : c.Keeps (shapeOf tag ty presence c).2 := by
  rw [shapeOf]
  split
  · exact Classification.keeps_classify _ c
  · exact Std.Refl.refl c

theorem keeps_extend (l : Layout) (x : Slot) (c : Classification) :
    c.Keeps (l.extend x c).2 := by
  cases x with
  | positional ty => exact Std.Refl.refl c
  | env name ty => exact Std.Refl.refl c
  | script name description tag ty presence => exact keeps_shapeOf tag ty presence c

theorem moves_add (l : Layout) (p : Param) : Moves Keeps (add bindings l p) := by
  intro c
  rw [run_add]
  cases l.slotOf bindings p with
  | error fault => exact Std.Refl.refl c
  | ok x => exact l.keeps_extend x c

/-- A parameter without a tag becomes an argument of the shape that is found. -/
theorem shown_of_add {p : Param} (untagged : p.Untagged)
    (h : (add bindings l p).run c = (.ok l', c')) (shown : ∀ a ∈ l.arguments, a.ShownBy c) :
    ∀ a ∈ l'.arguments, a.ShownBy c' := by
  have kept : c.Keeps ((add bindings l p).run c).2 := moves_add l p c
  rw [h] at kept
  have old : ∀ a ∈ l.arguments, a.ShownBy c' := fun a ha => (shown a ha).keeps kept
  rw [run_add] at h
  cases hs : l.slotOf bindings p with
  | error fault =>
      rw [hs] at h
      cases h
  | ok x =>
      rw [hs] at h
      obtain ⟨ty, -, rfl⟩ := slotOf_eq_ok_iff.mp hs
      rw [slot] at h
      cases hr : p.role with
      | positional =>
          rw [hr] at h
          cases h
          exact old
      | env name =>
          rw [hr] at h
          cases h
          exact old
      | script name description tag =>
          obtain rfl := untagged name description tag hr
          rw [hr] at h
          cases h
          exact List.forall_mem_append.mpr
            ⟨old, List.forall_mem_singleton.mpr (Classification.kept?_classify _ c)⟩

theorem shown_of_foldlM {params : List Param} (untagged : ∀ p ∈ params, p.Untagged)
    (h : (params.foldlM (add bindings) l).run c = (.ok l', c'))
    (shown : ∀ a ∈ l.arguments, a.ShownBy c) : ∀ a ∈ l'.arguments, a.ShownBy c' := by
  induction params generalizing l c with
  | nil =>
      cases h
      exact shown
  | cons p rest ih =>
      obtain ⟨first, others⟩ := List.forall_mem_cons.mp untagged
      rw [List.foldlM_cons, run_bind] at h
      cases ha : (add bindings l p).run c with
      | mk r c₁ =>
          rw [ha] at h
          cases r with
          | error fault => cases h
          | ok l₁ => exact ih others h (shown_of_add first ha shown)

end Layout

/-! ## Signatures -/

namespace Declaration

variable {s : Signature} {bindings : Host.Bindings} {source : String}

theorem moves_understand (s : Signature) (bindings : Host.Bindings) (source : String) :
    Moves Keeps (understand s bindings source) := by
  refine moves_bind (moves_foldlM Layout.moves_add s.params {}) fun l => ?_
  refine moves_bind (moves_ofExcept _) fun returns => ?_
  exact moves_bind (moves_ofExcept _) fun multiple => moves_pure _

theorem moves_parse (s : Signature) (bindings : Host.Bindings) (source : String) :
    Moves Keeps (parse s bindings source) :=
  moves_adapt (moves_understand s bindings source)

/-- After the parameters nothing is classified any more. -/
theorem snd_run_parse (s : Signature) (bindings : Host.Bindings) (source : String)
    (c : Classification) :
    ((parse s bindings source).run c).2 =
      ((s.params.foldlM (Layout.add bindings) {}).run c).2 := by
  rw [parse, run_adapt, understand, run_bind]
  rcases (s.params.foldlM (Layout.add bindings) {}).run c with ⟨_ | l, c'⟩
  · rfl
  · dsimp only
    rw [run_bind, run_ofExcept]
    cases (s.returns.resolve bindings).mapError DeclarationFault.unresolved with
    | error fault => rfl
    | ok returns =>
        dsimp only
        rw [run_bind, run_ofExcept]
        cases checkResult s returns <;> rfl

/-- The arguments of a signature without tags have the shapes that are found for their
types. -/
theorem shown_of_parse {c c' : Classification} {d : Declaration}
    (untagged : ∀ p ∈ s.params, p.Untagged)
    (h : (parse s bindings source).run c = (.ok d, c')) : ∀ a ∈ d.arguments, a.ShownBy c' := by
  obtain ⟨l, hl, returns, -, multiple, -, rfl⟩ := parse_eq_ok_iff.mp (congrArg Prod.fst h)
  have after := snd_run_parse s bindings source c
  rw [h] at after
  exact Layout.shown_of_foldlM untagged (Prod.ext hl after.symm) (List.forall_mem_nil _)

end Declaration

end HostBridge

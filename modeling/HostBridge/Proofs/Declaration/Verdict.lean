import HostBridge.Proofs.Declaration.Grammar

/-!
# Verdicts on signatures

To read a signature asks the classification for the shapes of arguments, and for nothing
else.  What a parameter may be after those read so far does not depend on their shapes
(`slotOf_congr`).  So under another classification the arguments may look different, but the
signature is refused for the same fault or understood as before (`parse_congr`).
-/

namespace HostBridge

/-- The argument without what it looks like to scripts. -/
def Argument.blank (a : Argument) : Argument := { a with shape := .fallback }

namespace Layout

variable {bindings : Host.Bindings} {l l' : Layout}

/-- The layout without what its arguments look like to scripts. -/
def blank (l : Layout) : Layout := { l with arguments := l.arguments.map Argument.blank }

theorem size_blank (l : Layout) : l.blank.size = l.size := by
  rw [size, blank, List.length_map]
  rfl

theorem variadic?_blank (l : Layout) : l.blank.variadic? = l.variadic? := by
  rw [variadic?, blank, List.find?_map, Option.map_map]
  rfl

theorem hasOptional_blank (l : Layout) : l.blank.hasOptional = l.hasOptional := by
  rw [hasOptional, blank, List.any_map]
  rfl

theorem slotOf_blank (bindings : Host.Bindings) (l : Layout) (p : Param) :
    l.blank.slotOf bindings p = l.slotOf bindings p := by
  have none : l.blank.arguments.isEmpty = l.arguments.isEmpty := List.isEmpty_map
  have presence (name : String) (ty : Host.Ty) :
      l.blank.presence p name ty = l.presence p name ty := by
    rw [Layout.presence, hasOptional_blank, Layout.presence]
  rw [slotOf, slotOf, variadic?_blank, size_blank, none]
  simp only [presence]
  rfl

/-- What the next parameter is does not depend on what arguments look like. -/
theorem slotOf_congr (h : l.blank = l'.blank) (p : Param) :
    l.slotOf bindings p = l'.slotOf bindings p := by
  rw [← slotOf_blank, h, slotOf_blank]

theorem blank_extend (h : l.blank = l'.blank) (x : Slot) (c c' : Classification) :
    (l.extend x c).1.blank = (l'.extend x c').1.blank := by
  have size : l.size = l'.size := by rw [← size_blank, h, size_blank]
  obtain ⟨positional, env, arguments⟩ := Layout.mk.injEq .. ▸ h
  cases x with
  | positional ty =>
      show Layout.mk (l.positional ++ [ty]) l.env (l.arguments.map Argument.blank) =
        .mk (l'.positional ++ [ty]) l'.env (l'.arguments.map Argument.blank)
      rw [positional, env, arguments]
  | env name ty =>
      show Layout.mk l.positional (l.env ++ [⟨name, ty, l.size⟩])
          (l.arguments.map Argument.blank) =
        .mk l'.positional (l'.env ++ [⟨name, ty, l'.size⟩]) (l'.arguments.map Argument.blank)
      rw [positional, env, arguments, size]
  | script name description tag ty presence =>
      show Layout.mk l.positional l.env ((l.arguments ++ [_]).map Argument.blank) =
        .mk l'.positional l'.env ((l'.arguments ++ [_]).map Argument.blank)
      rw [List.map_append, List.map_append, positional, env, arguments]
      show Layout.mk _ _ (_ ++ [⟨name, description, .fallback, ty, l.size, presence⟩]) = _
      rw [size]
      rfl

/-- Under every classification a parameter list is read alike. -/
theorem foldlM_congr (bindings : Host.Bindings) (params : List Param) (h : l.blank = l'.blank)
    (c c' : Classification) :
    ((params.foldlM (add bindings) l).run c).1.map blank =
      ((params.foldlM (add bindings) l').run c').1.map blank := by
  induction params generalizing l l' c c' with
  | nil => exact congrArg Except.ok h
  | cons p rest ih =>
      rw [List.foldlM_cons, List.foldlM_cons, fst_run_bind, fst_run_bind, fst_run_add,
        fst_run_add, slotOf_congr h]
      cases l'.slotOf bindings p with
      | error fault => rfl
      | ok x => exact ih (blank_extend h x c c') _ _

end Layout

namespace Declaration

variable {s : Signature} {bindings : Host.Bindings} {source : String} {c c' : Classification}

/-- What comes of the parameters that were read. -/
theorem fst_run_understand (s : Signature) (bindings : Host.Bindings) (source : String)
    (c : Classification) :
    ((understand s bindings source).run c).1 =
      ((s.params.foldlM (Layout.add bindings) {}).run c).1.bind fun l =>
        ((s.returns.resolve bindings).mapError .unresolved).bind fun returns =>
          (checkResult s returns).map (ofLayout s source l returns) := by
  rw [understand, fst_run_bind]
  congr 1
  funext l
  rw [fst_run_bind, run_ofExcept]
  congr 1
  funext returns
  rw [fst_run_bind, run_ofExcept]
  cases checkResult s returns <;> rfl

/-- Whether a signature is refused, and for which fault, is the same under every
classification. -/
theorem parse_congr (s : Signature) (bindings : Host.Bindings) (source : String)
    (c c' : Classification) :
    ((parse s bindings source).run c).1.map (fun _ => ()) =
      ((parse s bindings source).run c').1.map fun _ => () := by
  have read := Layout.foldlM_congr bindings s.params (rfl : Layout.blank {} = Layout.blank {}) c c'
  rw [parse, run_adapt, run_adapt, fst_run_understand, fst_run_understand]
  cases hc : ((s.params.foldlM (Layout.add bindings) {}).run c).1 with
  | error fault =>
      rw [hc] at read
      rw [map_eq_error.mp read.symm]
  | ok l =>
      rw [hc] at read
      obtain ⟨l', hl', -⟩ := map_eq_ok.mp read.symm
      rw [hl']
      cases (s.returns.resolve bindings).mapError DeclarationFault.unresolved with
      | error fault => rfl
      | ok returns =>
          show Except.map _ (Except.mapError _ (Except.map _ (checkResult s returns))) =
            Except.map _ (Except.mapError _ (Except.map _ (checkResult s returns)))
          cases checkResult s returns <;> rfl

theorem parse_eq_error {e : DeclarationError}
    (h : ((parse s bindings source).run c).1 = .error e) (c' : Classification) :
    ((parse s bindings source).run c').1 = .error e := by
  have same := parse_congr s bindings source c c'
  rw [h] at same
  exact map_eq_error.mp same.symm

theorem exists_parse {d : Declaration} (h : ((parse s bindings source).run c).1 = .ok d)
    (c' : Classification) : ∃ d', ((parse s bindings source).run c').1 = .ok d' := by
  have same := parse_congr s bindings source c c'
  rw [h] at same
  obtain ⟨d', hd', -⟩ := map_eq_ok.mp same.symm
  exact ⟨d', hd'⟩

end Declaration

end HostBridge

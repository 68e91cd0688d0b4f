import HostBridge.Proofs.Method.CallOrder

/-!
# Values a host did not supply

A call fails if a value that the host is to supply is not there.  The target is always
there, so a method that takes nothing else by position only ever lacks values by name.  And
two names are always taken, whatever a host adds to an environment or replaces in it.
-/

namespace HostBridge

/-! ## Environments a host can make -/

/-- The environments a host can make: it starts from that of an architecture, and supplies
more values by position and by name. -/
inductive Environment.Made : Environment → Prop where
  | new (architecture : String) (converter : Converter) : Made (.new architecture converter)
  | addPositional {e : Environment} (h : Made e) (v : Host.Value) : Made (e.addPositional v)
  /-- A value is added, or replaced. -/
  | setNamed {e : Environment} (h : Made e) (name : String) (v : Host.Value) :
      Made (e.setNamed name v)

/-- A value that was set is there from then on. -/
theorem Environment.named?_setNamed (e : Environment) (name other : String) (v : Host.Value) :
    (e.setNamed name v).named? other = if name = other then some v else e.named? other :=
  Dict.find?_insert ..

/-- There are always values for the converter and for the architecture. -/
theorem Environment.Made.ne_of_named? {env : Environment} (h : env.Made) {name : String}
    (absent : env.named? name = none) : name ≠ Key.converter ∧ name ≠ Key.architecture := by
  induction h with
  | new architecture converter =>
      constructor
      · rintro rfl
        simp [named?, Environment.new, Dict.find?_insert, Key.converter, Key.architecture] at absent
      · rintro rfl
        simp [named?, Environment.new] at absent
  | addPositional _ v ih => exact ih absent
  | setNamed _ other v ih =>
      rw [named?_setNamed] at absent
      split at absent
      · cases absent
      · exact ih absent

namespace Method

variable {σ : Type} {m : Method σ} {env : Environment} {target : Host.Value}
  {args : List Script.Value} {method name : String}

/-! ## Values by position -/

/-- The target is the first value by position. -/
theorem exists_positionalInput_of_length_le (few : m.declaration.positional.length ≤ 1)
    (env : Environment) (target : Host.Value) :
    ∀ i < m.declaration.positional.length, ∃ v, positionalInput env target i = .ok v := by
  intro i hi
  have first : i = 0 := by omega
  exact ⟨target, by rw [first, positionalInput]⟩

/-! ## Values by name -/

theorem absent_of_namedInput {p : EnvParam}
    (h : namedInput env p = .error (.missingEnvironment name)) :
    p.name = name ∧ env.named? name = none := by
  rw [namedInput] at h
  cases absent : env.named? p.name with
  | none =>
      rw [absent] at h
      cases h
      exact ⟨rfl, absent⟩
  | some v =>
      rw [absent] at h
      cases h

/-- If the values by position are there, then what is missing is a value by name. -/
theorem exists_param_of_inputs
    (there : ∀ i < m.declaration.positional.length, ∃ v, positionalInput env target i = .ok v)
    (h : m.inputs env target args = .error (.missingEnvironment name)) :
    ∃ p ∈ m.declaration.env, p.name = name ∧ env.named? name = none := by
  rw [inputs] at h
  cases hp : (List.range m.declaration.positional.length).mapM (positionalInput env target) with
  | error fault =>
      obtain ⟨i, hi, failed⟩ := exists_of_mapM_eq_error hp
      obtain ⟨v, given⟩ := there i (List.mem_range.mp hi)
      rw [given] at failed
      cases failed
  | ok positional =>
      cases hn : m.declaration.env.mapM (namedInput env) with
      | error fault =>
          rw [hp, hn] at h
          cases h
          obtain ⟨p, param, failed⟩ := exists_of_mapM_eq_error hn
          exact ⟨p, param, absent_of_namedInput failed⟩
      | ok named =>
          -- All values of the host are there, so the fault would be with the script.
          rw [hp, hn] at h
          cases hc : m.declaration.convertArguments env.converter args with
          | error cause =>
              rw [hc] at h
              cases h
          | ok converted =>
              rw [hc] at h
              cases h

/-! ## Calls -/

/-- A call lacks a value if its inputs do. -/
theorem inputs_of_call {s : σ}
    (h : (m.call env target args s).1 = .error (.inMethod method (.missingEnvironment name))) :
    m.name = method ∧ m.inputs env target args = .error (.missingEnvironment name) := by
  obtain ⟨fault, same, fails⟩ := fails_of_call h
  cases same
  exact ⟨rfl, inputs_eq_error_iff.mpr ⟨fails, rfl⟩⟩

end Method

end HostBridge

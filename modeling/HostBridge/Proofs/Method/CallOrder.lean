import HostBridge.Proofs.Method.Alignment
import HostBridge.Proofs.Method.Results

/-!
# The order of a call

A call of a method can go wrong in five ways.  Two are found before the host function runs:
a value that the host is to supply is missing, or the script arguments are refused.  The
other three are found afterwards: the function failed, it returned another number of items
than announced, or an item has no script value.  `Fails` says when each is reported, which
includes that nothing earlier was wrong.

To see when the function runs, it is made to note its calls: `recorded` adds a record of
calls to the state of the host.  `Orderly` says what is to be seen.  The function runs once
if the call has all its inputs, and then on just these, and it does not run otherwise.
-/

namespace HostBridge

/-! ## Faults -/

/-- Whether the fault is found before the host function runs. -/
def CallFault.isEarly : CallFault → Bool
  | .argument _ => true
  | .missingEnvironment _ => true
  | .invocation _ => false
  | .resultCount _ _ => false
  | .result _ => false

/-- Whether the error is found before any host function runs. -/
def CallError.isEarly : CallError → Bool
  | .inMethod _ fault => fault.isEarly
  | .noSuchMethod _ => true

/-! ## Records of calls -/

/-- The function that notes its calls. -/
def HostFunction.recorded {σ : Type} (f : HostFunction σ) : HostFunction (σ × List Call) :=
  fun c s => ((f c s.1).1, (f c s.1).2, s.2 ++ [c])

namespace Method

variable {σ : Type} {m : Method σ} {env : Environment} {target : Host.Value}
  {args : List Script.Value} {values : List Host.Value} {s : σ}

/-- The method whose function notes its calls. -/
def recorded (m : Method σ) : Method (σ × List Call) :=
  { m with function := m.function.recorded }

/-! ## What the host supplies -/

/-- The values that a call takes from the host, in declared order, with the names under
which they are missed. -/
def supplies (m : Method σ) (env : Environment) (target : Host.Value) :
    List (String × Option Host.Value) :=
  (List.range m.declaration.positional.length).map
      (fun i => ("#" ++ toString i, byPosition? env target i)) ++
    m.declaration.env.map fun p => (p.name, env.named? p.name)

/-- The name of the first value that is missing. -/
def firstMissing? (supplied : List (String × Option Host.Value)) : Option String :=
  (supplied.find? fun p => p.2.isNone).map Prod.fst

/-- The value, which has to be there. -/
def demand : String × Option Host.Value → Except CallFault Host.Value
  | (_, some v) => .ok v
  | (name, none) => .error (.missingEnvironment name)

/-- The values of a call are there: those of the host, and then the converted script
arguments. -/
def Given (m : Method σ) (env : Environment) (target : Host.Value) (args : List Script.Value)
    (values : List Host.Value) : Prop :=
  ∃ supplied converted, List.Forall₂ (fun p v => p.2 = some v) (m.supplies env target) supplied ∧
    m.declaration.convertArguments env.converter args = .ok converted ∧
    values = supplied ++ converted

theorem demand_eq_ok_iff {p : String × Option Host.Value} {v : Host.Value} :
    demand p = .ok v ↔ p.2 = some v := by
  obtain ⟨name, value⟩ := p
  cases value <;> simp [demand]

theorem mapM_demand_eq_error_iff {supplied : List (String × Option Host.Value)}
    {fault : CallFault} :
    supplied.mapM demand = .error fault ↔
      ∃ name, firstMissing? supplied = some name ∧ fault = .missingEnvironment name := by
  induction supplied with
  | nil =>
      constructor
      · rintro ⟨⟩
      · rintro ⟨_, ⟨⟩, _⟩
  | cons p rest ih =>
      obtain ⟨name, value⟩ := p
      rw [List.mapM_cons]
      refine bind_eq_error.trans ?_
      cases value with
      | none =>
          constructor
          · rintro (⟨⟨⟩⟩ | ⟨_, ⟨⟩, _⟩)
            exact ⟨name, rfl, rfl⟩
          · rintro ⟨_, ⟨⟩, rfl⟩
            exact .inl rfl
      | some v =>
          constructor
          · rintro (⟨⟨⟩⟩ | ⟨_, -, h⟩)
            rcases bind_eq_error.mp h with failed | ⟨_, -, ⟨⟩⟩
            exact ih.mp failed
          · intro missing
            exact .inr ⟨v, rfl, bind_eq_error.mpr (.inl (ih.mpr missing))⟩

/-- No value is missing if all are there. -/
theorem firstMissing?_eq_none_iff {supplied : List (String × Option Host.Value)} :
    firstMissing? supplied = none ↔ ∃ there, supplied.mapM demand = .ok there := by
  constructor
  · intro h
    cases hd : supplied.mapM demand with
    | ok there => exact ⟨there, rfl⟩
    | error fault =>
        obtain ⟨name, missing, -⟩ := mapM_demand_eq_error_iff.mp hd
        cases h.symm.trans missing
  · rintro ⟨there, hd⟩
    cases hm : firstMissing? supplied with
    | none => rfl
    | some name => cases hd.symm.trans (mapM_demand_eq_error_iff.mpr ⟨name, hm, rfl⟩)

/-- The inputs of a call are the values of the host and the script arguments. -/
theorem inputs_eq (m : Method σ) (env : Environment) (target : Host.Value)
    (args : List Script.Value) :
    m.inputs env target args = (do
      let supplied ← (m.supplies env target).mapM demand
      let converted ← (m.declaration.convertArguments env.converter args).mapError .argument
      return supplied ++ converted) := by
  have position : demand ∘ (fun i => ("#" ++ toString i, byPosition? env target i)) =
      positionalInput env target := by
    funext i
    cases i with
    | zero => rfl
    | succ i =>
        show demand (_, env.positional? i) = _
        rw [positionalInput]
        cases env.positional? i <;> rfl
  have name : demand ∘ (fun p : EnvParam => (p.name, env.named? p.name)) = namedInput env := by
    funext p
    show demand (_, env.named? p.name) = _
    rw [namedInput]
    cases env.named? p.name <;> rfl
  rw [inputs, supplies, List.mapM_append, List.mapM_map, List.mapM_map, position, name]
  simp only [bind_assoc, pure_bind]

theorem inputs_eq_ok_iff :
    m.inputs env target args = .ok values ↔ m.Given env target args values := by
  rw [inputs_eq]
  constructor
  · intro h
    obtain ⟨supplied, hs, h⟩ := bind_eq_ok.mp h
    obtain ⟨converted, hc, h⟩ := bind_eq_ok.mp h
    cases h
    exact ⟨supplied, converted, (mapM_eq_ok_iff.mp hs).imp fun _ _ => demand_eq_ok_iff.mp,
      mapError_eq_ok.mp hc, rfl⟩
  · rintro ⟨supplied, converted, hs, hc, rfl⟩
    exact bind_eq_ok.mpr ⟨supplied, mapM_eq_ok_iff.mpr (hs.imp fun _ _ => demand_eq_ok_iff.mpr),
      bind_eq_ok.mpr ⟨converted, mapError_eq_ok.mpr hc, rfl⟩⟩

/-! ## What the host function returned -/

/-- The values that are to become script values. -/
def resultParts (m : Method σ) (result : Host.Value) : List Host.Value :=
  if m.declaration.multiple then resultItems result
  else
    match m.declaration.returns with
    | .void => []
    | _ => [result]

/-- The result is split into another number of items than announced. -/
def Miscounts (m : Method σ) (result : Host.Value) : Prop :=
  m.declaration.multiple = true ∧
    (resultItems result).length ≠ m.declaration.resultTags.length

/-- The items are counted before any of them is converted. -/
theorem outputs_of_miscounts {result : Host.Value} (h : m.Miscounts result)
    (converter : Converter) :
    m.outputs converter result =
      .error (.resultCount m.declaration.resultTags.length (resultItems result).length) := by
  rw [outputs, if_pos h.1]
  exact if_pos h.2

theorem outputs_of_not_miscounts {result : Host.Value} (h : ¬ m.Miscounts result)
    (converter : Converter) :
    m.outputs converter result =
      ((m.resultParts result).mapM converter.toScript).mapError .result := by
  rw [outputs, resultParts]
  split
  · rename_i several
    exact if_neg fun count => h ⟨several, count⟩
  · have one : [result].mapM converter.toScript = (converter.toScript result).map fun v => [v] := by
      rw [List.mapM_cons]
      cases converter.toScript result <;> rfl
    cases m.declaration.returns with
    | void => rfl
    | _ => rw [one]

theorem outputs_eq_ok_iff {converter : Converter} {result : Host.Value}
    {answers : List Script.Value} :
    m.outputs converter result = .ok answers ↔ ¬ m.Miscounts result ∧
      List.Forall₂ (fun part v => converter.toScript part = .ok v) (m.resultParts result)
        answers := by
  by_cases h : m.Miscounts result
  · rw [outputs_of_miscounts h]
    exact ⟨nofun, fun ⟨counts, _⟩ => absurd h counts⟩
  · rw [outputs_of_not_miscounts h, mapError_eq_ok, mapM_eq_ok_iff]
    exact (and_iff_right h).symm

/-! ## Outcomes -/

/-- The call fails, and this is what is wrong with it. -/
inductive Fails (m : Method σ) (env : Environment) (target : Host.Value)
    (args : List Script.Value) (s : σ) : CallFault → Prop where
  /-- A value of the host is missing, and it is the first one. -/
  | missing {name : String} (absent : firstMissing? (m.supplies env target) = some name) :
      Fails m env target args s (.missingEnvironment name)
  /-- The host has all values, but the script arguments are refused. -/
  | argument {cause : ArgumentError} (supplied : firstMissing? (m.supplies env target) = none)
      (refused : m.declaration.convertArguments env.converter args = .error cause) :
      Fails m env target args s (.argument cause)
  /-- The function runs and fails. -/
  | invocation {values : List Host.Value} {cause : FunctionError}
      (given : m.Given env target args values)
      (failed : (m.function ⟨values, env.converter⟩ s).1 = .error cause) :
      Fails m env target args s (.invocation cause)
  /-- The function returns another number of items than announced. -/
  | resultCount {values : List Host.Value} {result : Host.Value}
      (given : m.Given env target args values)
      (returned : (m.function ⟨values, env.converter⟩ s).1 = .ok result)
      (miscounts : m.Miscounts result) :
      Fails m env target args s
        (.resultCount m.declaration.resultTags.length (resultItems result).length)
  /-- The number of items is right, but one has no script value, and it is the first one. -/
  | result {values : List Host.Value} {result : Host.Value} {cause : ConversionError}
      (given : m.Given env target args values)
      (returned : (m.function ⟨values, env.converter⟩ s).1 = .ok result)
      (counts : ¬ m.Miscounts result)
      (first : FailsFirst env.converter.toScript (m.resultParts result) cause) :
      Fails m env target args s (.result cause)

/-- The call returns these script values. -/
def Returns (m : Method σ) (env : Environment) (target : Host.Value)
    (args : List Script.Value) (s : σ) (answers : List Script.Value) : Prop :=
  ∃ values result, m.Given env target args values ∧
    (m.function ⟨values, env.converter⟩ s).1 = .ok result ∧ ¬ m.Miscounts result ∧
    List.Forall₂ (fun part v => env.converter.toScript part = .ok v) (m.resultParts result) answers

/-! ### Before and after the host function -/

/-- The inputs of a call lack exactly what is reported early. -/
theorem inputs_eq_error_iff {fault : CallFault} :
    m.inputs env target args = .error fault ↔
      m.Fails env target args s fault ∧ fault.isEarly = true := by
  rw [inputs_eq]
  constructor
  · intro h
    rcases bind_eq_error.mp h with failed | ⟨supplied, hs, h⟩
    · obtain ⟨name, absent, rfl⟩ := mapM_demand_eq_error_iff.mp failed
      exact ⟨.missing absent, rfl⟩
    · rcases bind_eq_error.mp h with failed | ⟨_, -, ⟨⟩⟩
      obtain ⟨cause, refused, rfl⟩ := mapError_eq_error.mp failed
      exact ⟨.argument (firstMissing?_eq_none_iff.mpr ⟨supplied, hs⟩) refused, rfl⟩
  · rintro ⟨fails, early⟩
    cases fails with
    | missing absent =>
        exact bind_eq_error.mpr (.inl (mapM_demand_eq_error_iff.mpr ⟨_, absent, rfl⟩))
    | argument there refused =>
        obtain ⟨supplied, hs⟩ := firstMissing?_eq_none_iff.mp there
        have failed := mapError_eq_error (f := CallFault.argument).mpr ⟨_, refused, rfl⟩
        exact bind_eq_error.mpr (.inr ⟨supplied, hs, bind_eq_error.mpr (.inl failed)⟩)
    | _ => cases early

/-- What is reported late is found where the inputs are there. -/
theorem given_of_fails {fault : CallFault} (h : m.Fails env target args s fault)
    (late : fault.isEarly = false) : ∃ values, m.Given env target args values := by
  cases h with
  | missing => cases late
  | argument => cases late
  | invocation given => exact ⟨_, given⟩
  | resultCount given => exact ⟨_, given⟩
  | result given => exact ⟨_, given⟩

theorem call_of_inputs_eq_error {fault : CallFault}
    (h : m.inputs env target args = .error fault) (s : σ) :
    m.call env target args s = (.error (.inMethod m.name fault), s) := by
  rw [call, h]

theorem call_of_given (h : m.Given env target args values) (s : σ) :
    m.call env target args s = m.finish env.converter (m.function ⟨values, env.converter⟩ s) := by
  rw [call, inputs_eq_ok_iff.mpr h]
  dsimp only
  rcases m.function ⟨values, env.converter⟩ s with ⟨_ | _, _⟩ <;> rfl

theorem fst_call_of_given (h : m.Given env target args values) (s : σ) :
    (m.call env target args s).1 =
      (((m.function ⟨values, env.converter⟩ s).1.mapError .invocation).bind
        (m.outputs env.converter)).mapError (.inMethod m.name) := by
  rw [call_of_given h]
  rcases m.function ⟨values, env.converter⟩ s with ⟨_ | _, _⟩ <;> rfl

/-! ### Errors -/

/-- What is wrong is reported. -/
theorem call_of_fails {fault : CallFault} (h : m.Fails env target args s fault) :
    (m.call env target args s).1 = .error (.inMethod m.name fault) := by
  -- Early faults end the call with its inputs.  Late ones are found once the function ran.
  cases h with
  | missing absent =>
      rw [call_of_inputs_eq_error ((inputs_eq_error_iff (s := s)).mpr ⟨.missing absent, rfl⟩)]
  | argument there refused =>
      rw [call_of_inputs_eq_error
        ((inputs_eq_error_iff (s := s)).mpr ⟨.argument there refused, rfl⟩)]
  | invocation given failed =>
      rw [fst_call_of_given given, failed]
      rfl
  | resultCount given returned miscounts =>
      rw [fst_call_of_given given, returned]
      show (m.outputs _ _).mapError _ = _
      rw [outputs_of_miscounts miscounts]
      rfl
  | result given returned counts first =>
      rw [fst_call_of_given given, returned]
      show (m.outputs _ _).mapError _ = _
      rw [outputs_of_not_miscounts counts, mapM_eq_error_iff.mpr first]
      rfl

/-- Nothing else is reported. -/
theorem fails_of_call {e : CallError} (h : (m.call env target args s).1 = .error e) :
    ∃ fault, e = .inMethod m.name fault ∧ m.Fails env target args s fault := by
  cases hi : m.inputs env target args with
  | error fault =>
      rw [call_of_inputs_eq_error hi] at h
      cases h
      exact ⟨fault, rfl, (inputs_eq_error_iff.mp hi).1⟩
  | ok values =>
      have given := inputs_eq_ok_iff.mp hi
      rw [fst_call_of_given given] at h
      obtain ⟨fault, hfault, rfl⟩ := mapError_eq_error.mp h
      refine ⟨fault, rfl, ?_⟩
      rcases bind_eq_error.mp hfault with stopped | ⟨result, ran, hfault⟩
      · obtain ⟨cause, failed, rfl⟩ := mapError_eq_error.mp stopped
        exact .invocation given failed
      · have returned := mapError_eq_ok.mp ran
        by_cases counts : m.Miscounts result
        · rw [outputs_of_miscounts counts] at hfault
          cases hfault
          exact .resultCount given returned counts
        · rw [outputs_of_not_miscounts counts, mapError_eq_error] at hfault
          obtain ⟨cause, failed, rfl⟩ := hfault
          exact .result given returned counts (mapM_eq_error_iff.mp failed)

/-! ### Runs -/

/-- The calls of the host function. -/
def runs (m : Method σ) (env : Environment) (target : Host.Value) (args : List Script.Value) :
    List Call :=
  match m.inputs env target args with
  | .error _ => []
  | .ok values => [⟨values, env.converter⟩]

/-- To note its calls changes nothing for the function. -/
theorem recorded_call (m : Method σ) (env : Environment) (target : Host.Value)
    (args : List Script.Value) (s : σ) (calls : List Call) :
    m.recorded.call env target args (s, calls) =
      ((m.call env target args s).1, (m.call env target args s).2,
        calls ++ m.runs env target args) := by
  have same : m.recorded.inputs env target args = m.inputs env target args := rfl
  cases hi : m.inputs env target args with
  | error fault =>
      rw [call_of_inputs_eq_error hi, call_of_inputs_eq_error (same.trans hi), runs, hi,
        List.append_nil]
      rfl
  | ok values =>
      have given := inputs_eq_ok_iff.mp hi
      have noted := call_of_given (inputs_eq_ok_iff.mp (same.trans hi)) (s, calls)
      rw [call_of_given given, runs, hi, noted]
      unfold recorded HostFunction.recorded
      dsimp only
      rcases m.function ⟨values, env.converter⟩ s with ⟨_ | _, _⟩ <;> rfl

/-- The call runs the host function only once its inputs are there, and reports the first
thing that is wrong. -/
structure Orderly (m : Method σ) (env : Environment) (target : Host.Value)
    (args : List Script.Value) (s : σ) (answer : Except CallError (List Script.Value)) (s' : σ)
    (runs : List Call) : Prop where
  /-- If all inputs are there, the function runs once, on these. -/
  runs_once : ∀ values, m.Given env target args values →
    runs = [⟨values, env.converter⟩] ∧ s' = (m.function ⟨values, env.converter⟩ s).2
  /-- If they are not, the function does not run, and the host is left as it was. -/
  untouched : (∀ values, ¬ m.Given env target args values) → runs = [] ∧ s' = s
  /-- The errors are those of the ways to fail, under the canonical name of the method. -/
  failed : ∀ e, answer = .error e ↔
    ∃ fault, e = .inMethod m.declaration.name fault ∧ m.Fails env target args s fault
  /-- Otherwise the parts of the result are returned. -/
  returned : ∀ answers, answer = .ok answers ↔ m.Returns env target args s answers
  /-- After an early error the host is as it was. -/
  early : ∀ e, answer = .error e → e.isEarly = true → runs = [] ∧ s' = s
  /-- Before a late error the function has run once. -/
  late : ∀ e, answer = .error e → e.isEarly = false → ∃ run, runs = [run]

/-- Calls are in order. -/
theorem orderly (m : Method σ) (env : Environment) (target : Host.Value)
    (args : List Script.Value) (s : σ) :
    m.Orderly env target args s (m.call env target args s).1 (m.call env target args s).2
      (m.runs env target args) := by
  have once : ∀ values, m.Given env target args values →
      m.runs env target args = [⟨values, env.converter⟩] := by
    intro values given
    rw [runs, inputs_eq_ok_iff.mpr given]
  have failed : ∀ e, (m.call env target args s).1 = .error e ↔
      ∃ fault, e = .inMethod m.name fault ∧ m.Fails env target args s fault := by
    intro e
    refine ⟨fails_of_call, ?_⟩
    rintro ⟨fault, rfl, fails⟩
    exact call_of_fails fails
  have refused : ∀ fault, m.inputs env target args = .error fault →
      m.runs env target args = [] ∧ (m.call env target args s).2 = s := by
    intro fault hi
    rw [runs, hi, call_of_inputs_eq_error hi]
    exact ⟨rfl, rfl⟩
  refine ⟨fun values given => ⟨once values given, ?_⟩, fun none_given => ?_, failed,
    fun answers => ?_, fun e he early => ?_, fun e he late => ?_⟩
  · rw [call_of_given given]
    rcases m.function ⟨values, env.converter⟩ s with ⟨_ | _, _⟩ <;> rfl
  · cases hi : m.inputs env target args with
    | error fault => exact refused fault hi
    | ok values => exact absurd (inputs_eq_ok_iff.mp hi) (none_given values)
  · rw [call_eq_ok_iff]
    simp only [inputs_eq_ok_iff, outputs_eq_ok_iff]
    rfl
  · obtain ⟨fault, rfl, fails⟩ := (failed e).mp he
    exact refused fault (inputs_eq_error_iff.mpr ⟨fails, early⟩)
  · obtain ⟨fault, rfl, fails⟩ := (failed e).mp he
    obtain ⟨values, given⟩ := given_of_fails fails late
    exact ⟨_, once values given⟩

end Method

end HostBridge

import HostBridge.Method
import HostBridge.Proofs.Declaration.Grammar

/-!
# The values a host function receives

A host function expects its values in the order of the parameters of its signature.  A
call gathers them in three lists and puts these together, without a look at the indices
of parameters.  The values are in their places all the same, since signatures with
parameters in another order are refused.

`Received` says what value belongs to a piece of a declaration, and
`exists_received` that the values stand where the pieces do.  Since the pieces stand
where the parameters do, `call_aligned` follows: a call fails before the host function
runs, or it runs the function on values that are `Aligned` with the signature.
-/

namespace HostBridge

/-! ## Script arguments -/

/-- An argument that is not variadic takes one value. -/
theorem Argument.snd_read {a : Argument} (h : a.isVariadic = false) (converter : Converter)
    (values : List Script.Value) : (a.read converter values).2 = values.drop 1 := by
  unfold read
  cases hp : a.presence with
  | required =>
      cases values with
      | nil => rfl
      | cons v rest => cases v <;> rfl
  | optional =>
      cases values with
      | nil => rfl
      | cons v rest => cases v <;> rfl
  | variadic nullable => exact absurd hp (Layout.isVariadic_eq_false_iff.mp h nullable)

namespace Declaration

/-- Each argument is read from the values that start at its own. -/
theorem readArguments_eq_ok {converter : Converter} {arguments : List Argument}
    {values : List Script.Value} {converted : List Host.Value}
    (hv : arguments.Pairwise fun a _ => a.isVariadic = false)
    (h : (readArguments converter arguments values).1 = .ok converted) :
    converted.length = arguments.length ∧
      ∀ (k : Nat) (a : Argument), arguments[k]? = some a →
        ∃ v, converted[k]? = some v ∧ (a.read converter (values.drop k)).1 = .ok v := by
  -- The induction is on the arguments, for whatever values are left to each.
  induction arguments generalizing values converted with
  | nil =>
      cases h
      refine ⟨rfl, ?_⟩
      intro k a ha
      cases ha
  | cons a rest ih =>
      obtain ⟨ha, hrest⟩ := List.pairwise_cons.mp hv
      rw [readArguments] at h
      cases hr : a.read converter values with
      | mk r left =>
          rw [hr] at h
          cases r with
          | error e => cases h
          | ok v =>
              obtain ⟨vs, hvs, rfl⟩ := map_eq_ok.mp h
              obtain ⟨hl, hread⟩ := ih hrest hvs
              refine ⟨congrArg Nat.succ hl, ?_⟩
              intro k b hb
              cases k with
              | zero =>
                  cases hb
                  exact ⟨v, rfl, by rw [List.drop_zero, hr]⟩
              | succ k =>
                  -- Another argument follows, so this one has taken one value.
                  have once := a.snd_read (ha b (List.mem_of_getElem? hb)) converter values
                  rw [hr] at once
                  obtain ⟨w, hw, hread⟩ := hread k b hb
                  refine ⟨w, hw, ?_⟩
                  dsimp only at once
                  rwa [once, List.drop_drop, Nat.add_comm] at hread

theorem readArguments_of_convertArguments {d : Declaration} {converter : Converter}
    {values : List Script.Value} {converted : List Host.Value}
    (h : d.convertArguments converter values = .ok converted) :
    (readArguments converter d.arguments values).1 = .ok converted := by
  rw [convertArguments] at h
  cases hr : readArguments converter d.arguments values with
  | mk r left =>
      rw [hr] at h
      cases r with
      | error e => cases h
      | ok vs =>
          cases left with
          | nil => exact h
          | cons v rest => cases h

end Declaration

namespace Method

variable {σ : Type}

/-! ## Gathering the values -/

/-- The values are gathered in three lists. -/
theorem inputs_eq_ok {m : Method σ} {env : Environment} {target : Host.Value}
    {args : List Script.Value} {values : List Host.Value}
    (h : m.inputs env target args = .ok values) :
    ∃ positional named converted,
      values = positional ++ named ++ converted ∧
      List.Forall₂ (fun i v => positionalInput env target i = .ok v)
        (List.range m.declaration.positional.length) positional ∧
      List.Forall₂ (fun e v => namedInput env e = .ok v) m.declaration.env named ∧
      m.declaration.convertArguments env.converter args = .ok converted := by
  obtain ⟨positional, hp, h⟩ := bind_eq_ok.mp h
  obtain ⟨named, hn, h⟩ := bind_eq_ok.mp h
  obtain ⟨converted, hc, h⟩ := bind_eq_ok.mp h
  cases h
  exact ⟨positional, named, converted, rfl, mapM_eq_ok_iff.mp hp, mapM_eq_ok_iff.mp hn, mapError_eq_ok.mp hc⟩

/-- The value is what a piece at a place of a declaration receives. -/
def Received (d : Declaration) (env : Environment) (target : Host.Value)
    (args : List Script.Value) (place : Nat) (v : Host.Value) : Piece → Prop
  | .positional _ => positionalInput env target place = .ok v
  | .env e => namedInput env e = .ok v
  | .argument a => ∃ k, place = d.positional.length + d.env.length + k ∧
      d.arguments[k]? = some a ∧ (a.read env.converter (args.drop k)).1 = .ok v

/-- Values stand where their pieces do. -/
theorem exists_received {m : Method σ} {env : Environment} {target : Host.Value}
    {args : List Script.Value} {values : List Host.Value}
    (h : m.inputs env target args = .ok values)
    (hv : m.declaration.arguments.Pairwise fun a _ => a.isVariadic = false) :
    values.length = m.declaration.pieces.length ∧
      ∀ i x, m.declaration.pieces[i]? = some x →
        ∃ v, values[i]? = some v ∧ Received m.declaration env target args i v x := by
  obtain ⟨positional, named, converted, rfl, hp, hn, hc⟩ := inputs_eq_ok h
  obtain ⟨hl, hread⟩ := Declaration.readArguments_eq_ok hv
    (Declaration.readArguments_of_convertArguments hc)
  have lp := hp.length_eq
  have ln := hn.length_eq
  rw [List.length_range] at lp
  refine ⟨by simp [Declaration.pieces, pieces, lp, ln, hl], ?_⟩
  intro i x hx
  rw [Declaration.pieces, pieces, List.append_assoc, List.getElem?_append, List.length_map] at hx
  rw [List.append_assoc]
  split at hx
  · rename_i hi
    rw [List.getElem?_map, Option.map_eq_some_iff] at hx
    obtain ⟨ty, -, rfl⟩ := hx
    obtain ⟨v, hv, hr⟩ := exists_getElem?_of_forall₂ hp (List.getElem?_range hi)
    exact ⟨v, by rw [List.getElem?_append_left (lp ▸ hi), hv], hr⟩
  · rename_i hi
    rw [List.getElem?_append, List.length_map] at hx
    rw [List.getElem?_append_right (lp ▸ Nat.le_of_not_lt hi), ← lp]
    split at hx
    · rename_i hj
      rw [List.getElem?_map, Option.map_eq_some_iff] at hx
      obtain ⟨e, he, rfl⟩ := hx
      obtain ⟨v, hv, hr⟩ := exists_getElem?_of_forall₂ hn he
      exact ⟨v, by rw [List.getElem?_append_left (ln ▸ hj), hv], hr⟩
    · rename_i hj
      rw [List.getElem?_map, Option.map_eq_some_iff] at hx
      obtain ⟨a, ha, rfl⟩ := hx
      obtain ⟨v, hv, hr⟩ := hread _ a ha
      rw [List.getElem?_append_right (ln ▸ Nat.le_of_not_lt hj), ← ln]
      exact ⟨v, hv, _, by omega, ha, hr⟩

/-! ## Values and signatures -/

/-- The value by position: the target first, and then what the environment has. -/
def byPosition? (env : Environment) (target : Host.Value) : Nat → Option Host.Value
  | 0 => some target
  | i + 1 => env.positional? i

/-- The value is what a parameter of a signature is to receive.  A parameter of the
script, at a place among those of the script, receives what is read from the script
arguments beginning at this place. -/
def Delivered (s : Signature) (d : Declaration) (env : Environment) (target : Host.Value)
    (args : List Script.Value) (p : Param) (index : Nat) (v : Host.Value) : Prop :=
  match p.role with
  | .positional => byPosition? env target index = some v
  | .env name => env.named? name = some v
  | .script .. => ∃ (k : Nat) (a : Argument), (suppliedBy .script s.params)[k]? = some (p, index) ∧
      d.arguments[k]? = some a ∧ (a.read env.converter (args.drop k)).1 = .ok v

/-- The values are those for the parameters of a signature, one by one. -/
structure Aligned (s : Signature) (d : Declaration) (env : Environment) (target : Host.Value)
    (args : List Script.Value) (values : List Host.Value) : Prop where
  /-- There are as many values as parameters. -/
  length_eq : values.length = s.params.length
  /-- Every parameter receives its value. -/
  delivered : ∀ i p, s.params[i]? = some p →
    ∃ v, values[i]? = some v ∧ Delivered s d env target args p i v
  /-- A value with a name arrives at the index of its parameter. -/
  named : ∀ e ∈ d.env, ∃ v, values[e.index]? = some v ∧ env.named? e.name = some v
  /-- A converted script argument arrives at the index of its parameter. -/
  converted : ∀ (k : Nat) (a : Argument), d.arguments[k]? = some a →
    ∃ v, values[a.index]? = some v ∧ (a.read env.converter (args.drop k)).1 = .ok v

theorem positionalInput_eq_ok {env : Environment} {target v : Host.Value} {index : Nat}
    (h : positionalInput env target index = .ok v) : byPosition? env target index = some v := by
  cases index with
  | zero =>
      cases h
      rfl
  | succ i =>
      rw [positionalInput] at h
      cases hp : env.positional? i with
      | none =>
          rw [hp] at h
          cases h
      | some w =>
          rw [hp] at h
          cases h
          exact hp

theorem namedInput_eq_ok {env : Environment} {e : EnvParam} {v : Host.Value}
    (h : namedInput env e = .ok v) : env.named? e.name = some v := by
  rw [namedInput] at h
  cases hn : env.named? e.name with
  | none =>
      rw [hn] at h
      cases h
  | some w =>
      rw [hn] at h
      cases h
      rfl

section Fits

variable {s : Signature} {bindings : Host.Bindings} {d : Declaration}

/-- Pieces stand where their parameters do. -/
theorem fits_getElem
    (h : List.Forall₂ (fun p x => Fits bindings p.1 p.2 x) s.params.zipIdx d.pieces) {i : Nat}
    {x : Piece} (hx : d.pieces[i]? = some x) :
    ∃ p, s.params[i]? = some p ∧ Fits bindings p i x := by
  obtain ⟨q, hq, hf⟩ := exists_getElem?_of_forall₂ h.flip hx
  rw [List.getElem?_zipIdx, Option.map_eq_some_iff] at hq
  obtain ⟨p, hp, rfl⟩ := hq
  rw [Nat.zero_add] at hf
  exact ⟨p, hp, hf⟩

/-- What a piece receives is what its parameter is to receive. -/
theorem delivered_of_received {source : String} (hd : d.Reflects s bindings source)
    {env : Environment} {target v : Host.Value} {args : List Script.Value} {i : Nat} {p : Param}
    {x : Piece} (hp : s.params[i]? = some p) (hf : Fits bindings p i x)
    (hr : Received d env target args i v x) : Delivered s d env target args p i v := by
  cases hf with
  | positional hrole =>
      unfold Delivered
      rw [hrole]
      exact positionalInput_eq_ok hr
  | env hrole =>
      unfold Delivered
      rw [hrole]
      exact namedInput_eq_ok hr
  | @argument a tag hrole ht hi =>
      unfold Delivered
      rw [hrole]
      obtain ⟨k, -, ha, hread⟩ := hr
      obtain ⟨⟨q, j⟩, hq, hfq⟩ := exists_getElem?_of_forall₂ hd.arguments.flip ha
      -- The argument has the index of one parameter only.
      have same : (q, j) = (p, i) := by
        have hmem := (List.mem_filter.mp (List.mem_of_getElem? hq)).1
        have hqj : s.params[j]? = some q := List.mk_mem_zipIdx_iff_getElem?.mp hmem
        cases hfq with
        | argument hrole' ht' hi' =>
            have hij : j = i := hi'.symm.trans hi
            rw [hij] at hqj ⊢
            rw [Option.some_inj.mp (hqj.symm.trans hp)]
      exact ⟨k, a, same ▸ hq, ha, hread⟩

end Fits

/-- Values that were gathered for a declaration are aligned with its signature. -/
theorem aligned_of_inputs {m : Method σ} {s : Signature} {bindings : Host.Bindings}
    {source : String} {c : Classification}
    (hp : ((Declaration.parse s bindings source).run c).1 = .ok m.declaration)
    {env : Environment} {target : Host.Value} {args : List Script.Value}
    {values : List Host.Value} (h : m.inputs env target args = .ok values) :
    Aligned s m.declaration env target args values := by
  have fits := Declaration.fits_of_parse hp
  obtain ⟨length, received⟩ := exists_received h (Declaration.not_variadic_of_parse hp)
  refine ⟨?_, ?_, ?_, ?_⟩
  · rw [length, ← fits.length_eq, List.length_zipIdx]
  · intro i p hi
    have hz : s.params.zipIdx[i]? = some (p, i) := by
      rw [List.getElem?_zipIdx, hi, Nat.zero_add]
      rfl
    obtain ⟨x, hx, hf⟩ := exists_getElem?_of_forall₂ fits hz
    obtain ⟨v, hv, hr⟩ := received i x hx
    exact ⟨v, hv, delivered_of_received (Declaration.reflects_of_parse hp) hi hf hr⟩
  · intro e he
    have mem : Piece.env e ∈ m.declaration.pieces :=
      List.mem_append_left _ (List.mem_append_right _ (List.mem_map_of_mem he))
    obtain ⟨i, hx⟩ := List.mem_iff_getElem?.mp mem
    obtain ⟨p, -, hf⟩ := fits_getElem fits hx
    obtain ⟨v, hv, hr⟩ := received i _ hx
    cases hf with
    | env hrole ht hi => exact ⟨v, hi ▸ hv, namedInput_eq_ok hr⟩
  · intro k a ha
    have hx : m.declaration.pieces[m.declaration.positional.length +
        m.declaration.env.length + k]? = some (.argument a) := by
      rw [Declaration.pieces, pieces, List.getElem?_append_right (by simp)]
      simp [ha]
    obtain ⟨p, -, hf⟩ := fits_getElem fits hx
    obtain ⟨v, hv, k', hk, ha', hr⟩ := received _ _ hx
    cases Nat.add_left_cancel hk
    cases hf with
    | argument hrole ht hi => exact ⟨v, hi ▸ hv, hr⟩

/-! ## Calls -/

/-- The method with another host function. -/
def withFunction (m : Method σ) (function : HostFunction σ) : Method σ := { m with function }

/-- The end of a call, once the host function has run. -/
def finish (m : Method σ) (converter : Converter) :
    Except FunctionError Host.Value × σ → Except CallError (List Script.Value) × σ
  | (.error e, s) => (.error (.inMethod m.name (.invocation e)), s)
  | (.ok result, s) => ((m.outputs converter result).mapError (.inMethod m.name), s)

/-- A call of a method that was understood either fails before any host function runs,
or the host function receives values that are aligned with the signature. -/
theorem call_aligned {m : Method σ} {s : Signature} {bindings : Host.Bindings}
    {source : String} {c : Classification}
    (hp : ((Declaration.parse s bindings source).run c).1 = .ok m.declaration)
    (env : Environment) (target : Host.Value) (args : List Script.Value) :
    (∃ fault, ∀ function state,
      (m.withFunction function).call env target args state =
        (.error (.inMethod m.name fault), state)) ∨
    ∃ values, Aligned s m.declaration env target args values ∧ ∀ function state,
      (m.withFunction function).call env target args state =
        m.finish env.converter (function ⟨values, env.converter⟩ state) := by
  have same (function : HostFunction σ) :
      (m.withFunction function).inputs env target args = m.inputs env target args := rfl
  cases h : m.inputs env target args with
  | error fault =>
      refine Or.inl ⟨fault, ?_⟩
      intro function state
      rw [call, same, h]
      rfl
  | ok values =>
      refine Or.inr ⟨values, aligned_of_inputs hp h, ?_⟩
      intro function state
      rw [call, same, h]
      show (match function ⟨values, env.converter⟩ state with
        | (.error e, s') => _
        | (.ok result, s') => _) = _
      rcases function ⟨values, env.converter⟩ state with ⟨_ | _, _⟩ <;> rfl

/-- A signature with a parameter from everyone. -/
def greeting : Signature where
  name := "greet"
  params := [
    { ty := .string, role := .positional },
    { ty := .string, role := .env "language" },
    .argument "name" .string]

/-- A method with the signature. -/
def greet : Method Unit where
  id := ⟨0, 0⟩
  declaration := {
    name := "greet", description := "", source := "hall", aliases := [],
    positional := [.string], env := [⟨"language", .string, 1⟩],
    arguments := [⟨"name", "", .tag .string, .string, 2, .required⟩],
    returns := .void, resultTags := [], multiple := false }
  function := .const .null

/-- An environment with a language. -/
def hall : Environment :=
  (Environment.new "computercraft" (.standard [])).setNamed "language" (.string "Latin")

/-- The call reaches the host function, and with values in their places. -/
theorem call_aligned_greet :
    ((Declaration.parse greeting .empty "hall").run .empty).1 = .ok greet.declaration ∧
    ∃ values, Aligned greeting greet.declaration hall (.string "door") [.string "Otto"] values := by
  have parsed : ((Declaration.parse greeting .empty "hall").run .empty).1 =
      .ok greet.declaration := rfl
  refine ⟨parsed, ?_⟩
  cases call_aligned parsed hall (.string "door") [.string "Otto"] with
  | inl fails =>
      obtain ⟨fault, h⟩ := fails
      have converted : Converter.Standard.toHost [] (.string "Otto") .string =
          some (.string "Otto") := by
        rw [Converter.Standard.toHost]
        rfl
      have gathered : greet.inputs hall (.string "door") [.string "Otto"] =
          .ok [.string "door", .string "Latin", .string "Otto"] := by
        have read : greet.declaration.convertArguments hall.converter [.string "Otto"] =
            .ok [.string "Otto"] := by
          simp [Declaration.convertArguments, Declaration.readArguments, Argument.read,
            Argument.convert, greet, hall, Environment.new, Environment.setNamed,
            Converter.standard, converted, Except.map]
        rw [inputs, read]
        rfl
      have succeeds : (greet.withFunction (.const .null)).call hall (.string "door")
          [.string "Otto"] () = (.ok [], ()) := by
        rw [call, show (greet.withFunction _).inputs .. = greet.inputs .. from rfl, gathered]
        rfl
      cases succeeds.symm.trans (h (.const .null) ())
  | inr runs =>
      obtain ⟨values, aligned, -⟩ := runs
      exact ⟨values, aligned⟩

end Method

end HostBridge

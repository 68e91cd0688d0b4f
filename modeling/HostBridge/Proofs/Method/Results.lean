import HostBridge.Method
import HostBridge.Proofs.Declaration.Grammar

/-!
# The values a script gets back

The tags of a declaration announce how many values a call returns.  The number is decided
twice.  When a signature is read, its tags are held against the type of the result, and
when a call returns, the result is split into as many values as there are tags, or is
turned into one.  Both agree on every type but `void`.  There a tag is admitted, since one
value need not be split, but nothing is returned.
-/

namespace HostBridge

open Signature (MultiValued ResultFits)

/-- Tags that fit are as many as the values announced. -/
theorem Declaration.Reflects.resultFits {d : Declaration} {s : Signature}
    {bindings : Host.Bindings} {source : String} (h : d.Reflects s bindings source)
    (hs : s.Grammatical bindings) : s.ResultFits d.returns := by
  obtain ⟨ty, resolved, fits⟩ := hs.result
  cases h.returns.symm.trans resolved
  exact fits

/-- A result that is not split has one tag at most. -/
theorem Declaration.length_resultTags_le {s : Signature} {bindings : Host.Bindings}
    {source : String} {c : Classification} {d : Declaration}
    (h : ((Declaration.parse s bindings source).run c).1 = .ok d) (hm : d.multiple = false) :
    d.resultTags.length ≤ 1 := by
  have reflects := reflects_of_parse h
  rcases reflects.resultFits ((exists_parse_iff s bindings source c).mp ⟨d, h⟩) with
    ⟨several, -⟩ | ⟨-, -, fits⟩
  · rw [reflects.multiple_iff.mpr several] at hm
    cases hm
  · rwa [reflects.resultTags_eq]

namespace Method

variable {σ : Type} {m : Method σ} {converter : Converter} {result : Host.Value}
  {values : List Script.Value}

/-- A result is split only if its type can carry several values. -/
theorem returns_ne_void_of_multiple {s : Signature} {bindings : Host.Bindings} {source : String}
    (h : m.declaration.Reflects s bindings source) (hm : m.declaration.multiple = true) :
    m.declaration.returns ≠ .void := by
  intro nothing
  have several := h.multiple_iff.mp hm
  rw [nothing] at several
  rcases several with several | ⟨-, ordered⟩
  · cases several
  · cases ordered

/-- A result that is split gives a value for each item, and there is an item for each tag. -/
theorem outputs_of_multiple (h : m.declaration.multiple = true)
    (ho : m.outputs converter result = .ok values) :
    (resultItems result).length = m.declaration.resultTags.length ∧
      List.Forall₂ (fun item v => converter.toScript item = .ok v) (resultItems result) values := by
  rw [outputs, if_pos h] at ho
  by_cases count : (resultItems result).length = m.declaration.resultTags.length
  · rw [if_neg (not_not_intro count), mapError_eq_ok] at ho
    exact ⟨count, mapM_eq_ok_iff.mp ho⟩
  · rw [if_pos count] at ho
    cases ho

/-- A result that is not split gives one value, unless the type is that of nothing. -/
theorem outputs_of_not_multiple (h : m.declaration.multiple = false)
    (ho : m.outputs converter result = .ok values) :
    m.declaration.returns = .void ∧ values = [] ∨
      m.declaration.returns ≠ .void ∧ ∃ v, converter.toScript result = .ok v ∧ values = [v] := by
  rw [outputs, if_neg (by rw [h]; exact Bool.false_ne_true)] at ho
  split at ho
  · rename_i nothing
    cases ho
    exact .inl ⟨nothing, rfl⟩
  · rename_i something
    obtain ⟨v, hv, rfl⟩ := map_eq_ok.mp (mapError_eq_ok.mp ho)
    exact .inr ⟨something, v, hv, rfl⟩

/-- A call succeeds if the inputs are there, the host function succeeds, and what it returns
becomes script values. -/
theorem call_eq_ok_iff {env : Environment} {target : Host.Value} {args : List Script.Value}
    {s : σ} :
    (m.call env target args s).1 = .ok values ↔
      ∃ inputs result, m.inputs env target args = .ok inputs ∧
        (m.function ⟨inputs, env.converter⟩ s).1 = .ok result ∧
        m.outputs env.converter result = .ok values := by
  rw [call]
  cases m.inputs env target args with
  | error fault => simp
  | ok inputs =>
      dsimp only
      rcases hf : m.function ⟨inputs, env.converter⟩ s with ⟨_ | result, s'⟩
      · simp [hf]
      · simp [hf, mapError_eq_ok]

/-- Only one type cannot carry the value that its tag announces.  A call of a method with
result tags that returns at all returns as many values as there are tags, exactly if the
type of the result is not `void`.  With that type there is one tag and no value. -/
theorem call_arity {s : Signature} {bindings : Host.Bindings} {source : String}
    {c : Classification}
    (parsed : ((Declaration.parse s bindings source).run c).1 = .ok m.declaration)
    (tags : m.declaration.resultTags ≠ []) (env : Environment) (target : Host.Value)
    (args : List Script.Value) (state : σ)
    (returned : (m.call env target args state).1 = .ok values) :
    (values.length = m.declaration.resultTags.length ↔ m.declaration.returns ≠ .void) ∧
    (m.declaration.returns = .void → m.declaration.resultTags.length = 1 ∧ values = []) := by
  obtain ⟨_, result, -, -, converted⟩ := call_eq_ok_iff.mp returned
  have some_tag : 0 < m.declaration.resultTags.length := List.length_pos_iff.mpr tags
  cases split : m.declaration.multiple with
  | true =>
      obtain ⟨count, each⟩ := outputs_of_multiple split converted
      have carries := returns_ne_void_of_multiple (Declaration.reflects_of_parse parsed) split
      refine ⟨⟨fun _ => carries, fun _ => ?_⟩, fun nothing => absurd nothing carries⟩
      rw [← each.length_eq, count]
  | false =>
      have one : m.declaration.resultTags.length = 1 :=
        Nat.le_antisymm (Declaration.length_resultTags_le parsed split) some_tag
      rcases outputs_of_not_multiple split converted with ⟨nothing, rfl⟩ | ⟨something, v, -, rfl⟩
      · refine ⟨⟨fun impossible => ?_, fun something => absurd nothing something⟩,
          fun _ => ⟨one, rfl⟩⟩
        rw [one] at impossible
        cases impossible
      · exact ⟨⟨fun _ => something, fun _ => one.symm⟩, fun nothing => absurd nothing something⟩

/-- A method that announces a number and returns nothing. -/
def ring : Method Unit where
  id := ⟨0, 0⟩
  declaration := {
    name := "ring", description := "", source := "bells", aliases := [], positional := [],
    env := [], arguments := [], returns := .void, resultTags := [.number], multiple := false }
  function := .const .null

/-- A method that announces two texts and returns them. -/
def chord : Method Unit where
  id := ⟨0, 1⟩
  declaration := {
    name := "chord", description := "", source := "bells", aliases := [], positional := [],
    env := [], arguments := [], returns := .list .string, resultTags := [.string, .string],
    multiple := true }
  function := .const (.list [.string "c", .string "e"])

/-- Both texts are returned. -/
theorem call_arity_chord :
    let signature : Signature := {
      name := "chord", returns := .list .string, resultTags := [.string, .string],
      splitsResult := true }
    let env := Environment.new "computercraft" (.standard [])
    ((Declaration.parse signature .empty "bells").run .empty).1 = .ok chord.declaration ∧
    chord.declaration.resultTags ≠ [] ∧
    ∃ values, (chord.call env .null [] ()).1 = .ok values ∧ values.length = 2 := by
  intro signature env
  have parsed : ((Declaration.parse signature .empty "bells").run .empty).1 =
      .ok chord.declaration := rfl
  have tags : chord.declaration.resultTags ≠ [] := by decide
  have returns : (chord.call env .null [] ()).1.isOk = true := by decide +kernel
  cases returned : (chord.call env .null [] ()).1 with
  | error e =>
      rw [returned] at returns
      cases returns
  | ok values =>
      have arity := call_arity parsed tags env .null [] () returned
      exact ⟨parsed, tags, values, rfl, arity.1.mpr (by intro void; cases void)⟩

/-- The number that is announced is not returned, and the call does not fail. -/
theorem not_call_arity :
    ¬ ∀ (s : Signature) (bindings : Host.Bindings) (source : String) (c : Classification)
        (m : Method Unit) (env : Environment) (target : Host.Value) (args : List Script.Value)
        (values : List Script.Value),
      ((Declaration.parse s bindings source).run c).1 = .ok m.declaration →
      m.declaration.resultTags ≠ [] →
      (m.call env target args ()).1 = .ok values →
      values.length = m.declaration.resultTags.length := by
  intro arity
  have parsed : ((Declaration.parse { name := "ring", resultTags := [.number] } .empty
      "bells").run .empty).1 = .ok ring.declaration := rfl
  have silent := arity _ _ _ _ ring (.new "computercraft" (.standard [])) .null [] [] parsed
    (by decide) rfl
  cases silent

end Method

end HostBridge

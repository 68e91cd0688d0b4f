import HostBridge.Proofs.Method.CallOrder
import HostBridge.Proofs.MethodTable.Exactness

/-!
# Calls through a table

A script calls a method of a table by one of its names or by the place of a name.  Both
ways look the method up and call it.  If there is none, the call ends there, and no host
function runs.  If there is one, its calls are in order, whatever name it was found under,
and its errors carry the canonical name.
-/

namespace HostBridge

namespace MethodTable

variable {σ : Type}

/-! ## References -/

/-- What a call says about the method it is for. -/
inductive Reference where
  /-- One of the names. -/
  | name (n : String)
  /-- The place of a name. -/
  | place (index : Nat)

/-- The reference in messages. -/
def Reference.text : Reference → String
  | .name n => n
  | .place index => "#" ++ toString index

/-- The method that is meant. -/
def resolve? (t : MethodTable σ) : Reference → Option (Method σ)
  | .name n => t.find? n
  | .place index => t.method? index

/-- Call the method that is meant. -/
def callBy (t : MethodTable σ) : Reference → Environment → Host.Value → List Script.Value → σ →
    Except CallError (List Script.Value) × σ
  | .name n => t.call n
  | .place index => t.callAt index

theorem callBy_eq (t : MethodTable σ) (r : Reference) (env : Environment) (target : Host.Value)
    (args : List Script.Value) (s : σ) :
    t.callBy r env target args s = callMethod (t.resolve? r) r.text env target args s := by
  cases r <;> rfl

/-- The table has the name, or a name at the place. -/
def Exposes (t : MethodTable σ) : Reference → Prop
  | .name n => n ∈ t.names
  | .place index => index < t.size

/-- A method is meant by whatever the table exposes. -/
theorem Aligned.resolve?_eq_none_iff {t : MethodTable σ} {xs : List (Exposure σ)}
    (h : t.Aligned xs) {r : Reference} : t.resolve? r = none ↔ ¬ t.Exposes r := by
  cases r with
  | place index =>
      show t.methods[index]? = none ↔ ¬ index < t.names.length
      rw [List.getElem?_eq_none_iff, h.length_eq, Nat.not_lt]
  | name n =>
      show t.find? n = none ↔ n ∉ t.names
      rw [h.find?_eq_map, Option.map_eq_none_iff, Exposure.find?_eq_none, h.names_eq]

/-! ## Records of calls -/

/-- The table whose methods note their calls. -/
def recorded (t : MethodTable σ) : MethodTable (σ × List Call) where
  id := t.id
  target := t.target
  architecture := t.architecture
  names := t.names
  methods := t.methods.map Method.recorded
  index := t.index
  sources := t.sources

theorem method?_recorded (t : MethodTable σ) (index : Nat) :
    t.recorded.method? index = (t.method? index).map Method.recorded :=
  List.getElem?_map

/-- The same methods are found. -/
theorem resolve?_recorded (t : MethodTable σ) (r : Reference) :
    t.recorded.resolve? r = (t.resolve? r).map Method.recorded := by
  cases r with
  | place index => exact t.method?_recorded index
  | name n =>
      show (t.indexOf? n).bind t.recorded.method? = ((t.indexOf? n).bind t.method?).map _
      rw [Option.map_bind]
      exact congrArg _ (funext t.method?_recorded)

/-! ## Calls -/

/-- The table was made by building. -/
def Built (t : MethodTable σ) : Prop :=
  ∃ (id : Nat) (cls : Host.Class) (architecture : String) (adapters : List (Adapter σ))
    (setup : Setup), ((build id cls architecture adapters).run setup).1 = .ok t

/-- What a call through a table gives and does.  The calls that are noted are exactly those
of the method that is meant, and the answer and the host are as if none were noted.  A table
that was built has a method for exactly what it exposes. -/
theorem call_orderly (t : MethodTable σ) (r : Reference) (env : Environment)
    (target : Host.Value) (args : List Script.Value) (s : σ) (calls : List Call) :
    ∃ answer s' runs,
      t.callBy r env target args s = (answer, s') ∧
      t.recorded.callBy r env target args (s, calls) = (answer, s', calls ++ runs) ∧
      (∀ e, answer = .error e → e.method? = (t.resolve? r).map fun m => m.declaration.name) ∧
      (t.Built → (t.resolve? r = none ↔ ¬ t.Exposes r)) ∧
      match t.resolve? r with
      | none => answer = .error (.noSuchMethod r.text) ∧ runs = [] ∧ s' = s
      | some m => m.Orderly env target args s answer s' runs := by
  have meant : t.Built → (t.resolve? r = none ↔ ¬ t.Exposes r) := by
    rintro ⟨id, cls, architecture, adapters, setup, built⟩
    exact (coherent_and_aligned_of_build built).2.resolve?_eq_none_iff
  rw [callBy_eq, callBy_eq, resolve?_recorded]
  cases hr : t.resolve? r with
  | none =>
      rw [hr] at meant
      refine ⟨_, _, [], rfl, ?_, ?_, meant, rfl, rfl, rfl⟩
      · rw [List.append_nil]
        rfl
      · rintro e ⟨⟩
        rfl
  | some m =>
      rw [hr] at meant
      have orderly := m.orderly env target args s
      refine ⟨_, _, m.runs env target args, rfl, m.recorded_call env target args s calls, ?_,
        meant, orderly⟩
      intro e he
      obtain ⟨fault, rfl, -⟩ := (orderly.failed e).mp he
      rfl

/-- A method that counts its calls. -/
def drain : Method Nat where
  id := ⟨0, 0⟩
  declaration := {
    name := "drain", description := "", source := "well", aliases := ["empty"],
    positional := [.string], env := [⟨"valve", .string, 1⟩], arguments := [],
    returns := .void, resultTags := [], multiple := false }
  function := fun _ count => (.ok .null, count + 1)

/-- An adapter with the method, which has two names. -/
def cistern : Adapter Nat where
  id := 0
  name := "Cistern"
  source := "well"
  target := .root "Cistern"
  kind := .composed
  methods := [drain]

/-- The table of the adapter leads from the alias to the method. -/
theorem resolve?_cistern {t : MethodTable Nat}
    (built : ((build 1 cistern.target "computercraft" [cistern]).run .initial).1 = .ok t) :
    t.resolve? (.name "empty") = some drain := by
  have shows := shows_of_build built
  have visible : drain.visible "computercraft" Setup.initial.gating = true := by decide
  obtain ⟨m, found, same⟩ := shows.complete drain
    (shown_of_visible (List.mem_singleton_self cistern) (List.mem_singleton_self drain) visible)
    "empty" (by decide)
  rcases visible_of_shown (shows.sound "empty" m found).1 with ⟨a, ha, hm, -⟩ | ⟨_, describes⟩
  · cases List.mem_singleton.mp ha
    cases List.mem_singleton.mp hm
    exact found
  · have listing := Listing.adapter_of_mem_methods describes
    rw [same] at listing
    cases listing

/-- Without a valve the method is not called, which is reported under its canonical name.
With a valve it is called once. -/
theorem call_orderly_cistern :
    let env := Environment.new "computercraft" (.standard [])
    let ready := env.setNamed "valve" (.string "lower")
    ∃ t, ((build 1 cistern.target "computercraft" [cistern]).run .initial).1 = .ok t ∧
      t.Exposes (.name "empty") ∧
      t.recorded.callBy (.name "empty") env .null [] (0, []) =
        (.error (.inMethod "drain" (.missingEnvironment "valve")), 0, []) ∧
      t.recorded.callBy (.name "empty") ready .null [] (0, []) =
        (.ok [], 1, [⟨[.null, .string "lower"], .standard []⟩]) := by
  intro env ready
  cases built : ((build 1 cistern.target "computercraft" [cistern]).run .initial).1 with
  | error e =>
      have fine : ((build 1 cistern.target "computercraft" [cistern]).run .initial).1.isOk =
          true := by
        decide +kernel
      rw [built] at fine
      cases fine
  | ok t =>
      have meant := resolve?_cistern built
      obtain ⟨answer, s', runs, -, noted, -, exposed, orderly⟩ :=
        t.call_orderly (.name "empty") env .null [] 0 []
      rw [meant] at exposed orderly
      refine ⟨t, rfl, ?_, ?_, ?_⟩
      · by_contra hidden
        cases (exposed ⟨_, _, _, _, _, built⟩).mpr hidden
      · have absent : Method.firstMissing? (drain.supplies env .null) = some "valve" := by decide
        have failed := (orderly.failed _).mpr ⟨_, rfl, .missing absent⟩
        obtain ⟨rfl, rfl⟩ := orderly.early _ failed rfl
        rw [noted, failed]
        rfl
      · obtain ⟨answer, s', runs, -, noted, -, -, orderly⟩ :=
          t.call_orderly (.name "empty") ready .null [] 0 []
        rw [meant] at orderly
        have given : drain.Given ready .null [] [.null, .string "lower"] :=
          ⟨[.null, .string "lower"], [], .cons rfl (.cons rfl .nil), rfl, rfl⟩
        obtain ⟨rfl, rfl⟩ := orderly.runs_once _ given
        have returned := (orderly.returned []).mpr
          ⟨_, .null, given, rfl, fun several => Bool.false_ne_true several.1, .nil⟩
        rw [noted, returned]
        rfl

end MethodTable

end HostBridge

import HostBridge.Proofs.Bridge.Invocation
import HostBridge.Proofs.MethodTable.SelfDescription

/-!
# Hosts whose tables describe themselves

At every moment of a run, the table of an object is right about itself, whether it was
kept or is new.  The environment is the one the bridge gives for the architecture.  The
host may add named values, as long as it leaves the converter alone.
-/

namespace HostBridge

variable {σ : Type}

/-! ## Environments with more named values -/

/-- The environment with more named values, set one after the other. -/
def Environment.setAll (e : Environment) (extra : List (String × Host.Value)) : Environment :=
  extra.foldl (fun e p => e.setNamed p.1 p.2) e

@[simp] theorem Environment.architecture_setAll (e : Environment)
    (extra : List (String × Host.Value)) : (e.setAll extra).architecture = e.architecture := by
  induction extra generalizing e with
  | nil => rfl
  | cons p extra ih => exact ih _

@[simp] theorem Environment.converter_setAll (e : Environment)
    (extra : List (String × Host.Value)) : (e.setAll extra).converter = e.converter := by
  induction extra generalizing e with
  | nil => rfl
  | cons p extra ih => exact ih _

theorem Environment.named?_setAll (e : Environment) {name : String}
    {extra : List (String × Host.Value)} (h : name ∉ extra.map Prod.fst) :
    (e.setAll extra).named? name = e.named? name := by
  induction extra generalizing e with
  | nil => rfl
  | cons p extra ih =>
      rw [List.map_cons, List.mem_cons, not_or] at h
      have set : (e.setNamed p.1 p.2).named? name = e.named? name := by
        simp [Environment.named?, Environment.setNamed, Dict.find?_insert, Ne.symm h.1]
      exact (ih _ h.2).trans set

theorem Environment.named?_new (architecture : String) (converter : Converter) :
    (Environment.new architecture converter).named? Key.converter =
      some (.object Converter.token) := by
  simp [Environment.named?, Environment.new, Dict.find?_insert, Key.converter, Key.architecture]

namespace Bridge

/-- If tables are to describe themselves and the converter has no rules, every table an
object is answered with does. -/
theorem run_describesItself (setup : Setup) (host : σ) (ops : List (Operation σ))
    (o : Host.Object) (architecture : String) (lists : setup.lists = true)
    (plain : setup.converter? architecture = some (.standard []))
    (extra : List (String × Host.Value)) (kept : Environment.Key.converter ∉ extra.map Prod.fst) :
    let b := ((Session.start setup host).run ops).bridge
    ∃ env, b.environment architecture = .ok env ∧
      ∀ t, ((methodTable o architecture).run b).1 = .ok t →
        t.listed.map Prod.fst = t.names.filter (fun n => n ∉ MethodTable.Listing.names) ∧
        t.DescribesItself (env.setAll extra) ∧
        ∀ name args s, ∃ b', b.callWith (env.setAll extra) o name args s =
          ((t.call name (env.setAll extra) (.object o) args s).1.mapError .call, b',
            (t.call name (env.setAll extra) (.object o) args s).2) := by
  intro b
  have faithful : Faithful setup ((Session.start setup host).run ops).history b :=
    (faithful_new setup).run ops
  have known : b.setup.converter? architecture = some (.standard []) :=
    (congrArg (Dict.find? · architecture) faithful.agrees.converters).trans plain
  refine ⟨.new architecture (.standard []), ?_, ?_⟩
  · rw [environment, Setup.environment?, known]
    rfl
  intro t ht
  obtain ⟨cls, id, unused, built⟩ := faithful.exists_build_of_methodTable ht
  have listing : (setupAfter setup ((Session.start setup host).run ops).history).lists = true := lists
  have described := MethodTable.describesItself_of_build listing
    (fun a ha => unused a (mem_of_mem_serving ha)) built
    (Environment.converter_setAll (.new architecture (.standard [])) extra)
    ((Environment.named?_setAll _ kept).trans (Environment.named?_new ..))
  refine ⟨described.1, described.2, exists_callWith_eq ?_⟩
  rw [Environment.architecture_setAll]
  exact ht

/-- A definition whose only method has two names and two arguments. -/
def carillon : Adapter.Definition Unit where
  name := "Carillon"
  target := bell.cls
  kind := .composed
  methods := [{
    signature := {
      name := "play"
      params := [.argument "tune" .string, { Param.argument "speed" .float with optional := true }]
      returns := .boolean
      resultTags := [.boolean]
      aliases := ["repeat"] }
    function := .const (.boolean true) }]

/-- The table is looked up, dropped, and looked up again. -/
def carillonOperations : List (Operation Unit) :=
  [.register carillon, .methodTable bell "computercraft", .invalidate,
    .methodTable bell "computercraft"]

/-- The table speaks of both names, and its methods can be counted. -/
theorem run_describesItself_carillon :
    let b := ((Session.start Setup.initial ()).run carillonOperations).bridge
    let extra := [("speaker", Host.Value.boolean true)]
    Setup.initial.lists = true ∧
    Setup.initial.converter? "computercraft" = some (.standard []) ∧
    Environment.Key.converter ∉ extra.map Prod.fst ∧
    ∃ env t, b.environment "computercraft" = .ok env ∧
      ((methodTable bell "computercraft").run b).1 = .ok t ∧
      t.listed.map Prod.fst = ["play", "repeat"] ∧
      (∀ p ∈ t.listed, p.2.declaration.Countable) ∧
      t.DescribesItself (env.setAll extra) ∧
      ∃ b', b.callWith (env.setAll extra) bell MethodTable.Listing.listMethods [] () =
        (.ok [.string "play(tune,speed?), repeat(tune,speed?)"], b', ()) := by
  intro b extra
  have plain : Setup.initial.converter? "computercraft" = some (.standard []) := by
    simp [Setup.initial, Setup.converter?, Setup.builtInArchitectures, Dict.ofList,
      Dict.find?_insert]
  have kept : Environment.Key.converter ∉ extra.map Prod.fst := by decide
  obtain ⟨env, he, described⟩ :=
    run_describesItself Setup.initial () carillonOperations bell "computercraft" rfl plain extra kept
  have seen : (((methodTable bell "computercraft").run b).1.toOption.map fun t =>
      (t.listed.map Prod.fst, t.listed.map fun p => p.1 ++ p.2.declaration.signature,
        decide (∀ p ∈ t.listed, p.2.declaration.Countable))) =
      some (["play", "repeat"], ["play(tune,speed?)", "repeat(tune,speed?)"], true) := by
    decide +kernel
  cases ht : ((methodTable bell "computercraft").run b).1 with
  | error e =>
      rw [ht] at seen
      cases seen
  | ok t =>
      obtain ⟨-, describes, calls⟩ := described t ht
      rw [ht] at seen
      simp only [Except.toOption, Option.map_some, Option.some.injEq, Prod.mk.injEq,
        decide_eq_true_eq] at seen
      obtain ⟨b', called⟩ := calls MethodTable.Listing.listMethods [] ()
      refine ⟨rfl, plain, kept, env, t, he, rfl, seen.1, seen.2.2, describes, b', ?_⟩
      rw [called, describes.names, seen.2.1]
      rfl

end Bridge

end HostBridge

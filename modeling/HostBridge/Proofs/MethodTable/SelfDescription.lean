import HostBridge.Proofs.Converter.RoundTrip
import HostBridge.Proofs.Declaration.Grammar
import HostBridge.Proofs.MethodTable.Exactness
import HostBridge.Proofs.MethodTable.Relabelling

/-!
# What a table says about itself

The describing methods are made before the table is finished, from the entries it has
without them.  These entries stay in front, so what the methods say is right about the
finished table: they speak of all its names but their own.

Two answers are made for the script at once.  The descriptions of all methods make a
detour: the converter of the call makes a host value of them, and this is converted back.
Descriptions are records of texts, truth values and sequences of such, so they survive.
-/

namespace HostBridge

open Converter.Standard (Survives survives_boolean survives_string survives_sequence
  survives_record toScript toScript_record toScript_string toHost_any)
open Script (record)

/-! ## Descriptions -/

theorem Argument.survives_describe (a : Argument) : Survives (.table a.describe) := by
  show Survives (.table (record [("name", .string a.name), ("type", .string a.shape.display),
    ("description", .string a.description), ("optional", .boolean a.isOptional),
    ("variadic", .boolean a.isVariadic)]))
  refine survives_record (by simp) ?_
  simp [survives_string, survives_boolean]

/-- The sequences in the description of a method have keys that count exactly.  Beyond that
two places would share a key.  No memory holds lists of this length. -/
def Declaration.Countable (d : Declaration) : Prop :=
  d.arguments.length ≤ Script.Table.places ∧ d.resultTags.length ≤ Script.Table.places

instance (d : Declaration) : Decidable d.Countable :=
  inferInstanceAs (Decidable (_ ∧ _))

theorem Declaration.survives_describe {d : Declaration} (h : d.Countable) :
    Survives (.table d.describe) := by
  have tags : Survives (.table (Script.Table.ofSequence
      (d.resultTags.map fun tag => .string tag.name))) := by
    refine survives_sequence (by rw [List.length_map]; exact h.2) ?_
    simp [survives_string]
  have arguments : Survives (.table (Script.Table.ofSequence
      (d.arguments.map fun a => .table a.describe))) := by
    refine survives_sequence (by rw [List.length_map]; exact h.1) ?_
    simp [Argument.survives_describe]
  show Survives (.table (record [("name", .string d.name), ("description", .string d.description),
    ("source", .string d.source), ("returnTypes", _), ("args", _),
    ("signature", .string d.signature)]))
  refine survives_record (by simp) ?_
  simp [survives_string, tags, arguments]

namespace MethodTable

variable {σ : Type}

open Exposure (exposed)

/-! ## The contents of a table that describes itself -/

/-- The exposures of the describing methods. -/
def Listing.exposures (id : Nat) (target : Host.Class) (own : List (Entry σ))
    (sources : List String) : List (Exposure σ) :=
  (methods id own sources).map fun m =>
    ⟨m.name, m, Builder.originOf (adapter id target own sources) m⟩

theorem Listing.pairwise_exposures (id : Nat) (target : Host.Class) (own : List (Entry σ))
    (sources : List String) :
    (Listing.exposures id target own sources).Pairwise fun x y => x.method.id ≠ y.method.id := by
  simp [Listing.exposures, methods, method]

theorem Listing.adapter_of_mem_exposures {id : Nat} {target : Host.Class} {own : List (Entry σ)}
    {sources : List String} {x : Exposure σ} (h : x ∈ Listing.exposures id target own sources) :
    x.method.id.adapter = id := by
  obtain ⟨m, hm, rfl⟩ := List.mem_map.mp h
  exact adapter_of_mem_methods hm

theorem Listing.exposed_adapter (id : Nat) (target : Host.Class) (own : List (Entry σ))
    (sources : List String) (architecture : String) (g : Gating) :
    exposed architecture g [adapter id target own sources] =
      Listing.exposures id target own sources := rfl

/-- A table that describes itself has the describing methods at its end, and they speak of
the entries before. -/
theorem exists_own_of_build {s : Setup} {id : Nat} {target : Host.Class} {architecture : String}
    {adapters : List (Adapter σ)} {t : MethodTable σ} (lists : s.lists = true)
    (unused : Unused id adapters)
    (h : ((build id target architecture adapters).run s).1 = .ok t) :
    ∃ own : List (Exposure σ),
      t.Aligned (own ++ Listing.exposures id target (own.map Exposure.entry) t.sources) := by
  have fits : s.lists = true → Listing.lack s = none := lack_of_build h
  rw [fst_run_build, contents_of_fits fits, contributors, if_pos lists,
    Exposure.exposed_append, Builder.addAll_append, map_eq_ok] at h
  obtain ⟨all, made, rfl⟩ := h
  obtain ⟨own, first, added⟩ := bind_eq_ok.mp made
  rw [Listing.exposed_adapter] at added
  refine ⟨_, ((Builder.aligned_of_addAll first).append added ?_
    (Listing.pairwise_exposures ..)).table ..⟩
  intro e he x hx same
  have shown := Exposure.visible_of_mem_exposed (Exposure.mem_of_mem_firstOfEach he)
  obtain ⟨a, ha, hm⟩ := List.mem_flatMap.mp shown.1
  refine unused a ha e.method (List.mem_filter.mp hm).1 ?_
  exact same ▸ Listing.adapter_of_mem_exposures hx

/-! ## Names and what is found under them -/

/-- The names besides those of the describing methods, in order, each with the method found
under it. -/
def listed (t : MethodTable σ) : List (String × Method σ) :=
  (t.names.filter fun n => n ∉ Listing.names).filterMap fun n => (t.find? n).map (n, ·)

section Own

variable {t : MethodTable σ} {id : Nat} {target : Host.Class} {own : List (Exposure σ)}
  {sources : List String}

theorem listed_eq
    (h : t.Aligned (own ++ Listing.exposures id target (own.map Exposure.entry) sources)) :
    t.names.filter (fun n => n ∉ Listing.names) = own.map Exposure.name ∧
      t.listed = own.map fun x => (x.name, x.method) := by
  have names : t.names = own.map Exposure.name ++ Listing.names := by
    rw [h.names_eq, List.map_append]
    rfl
  have apart := h.places.nodup
  rw [names, List.nodup_append] at apart
  have kept : t.names.filter (fun n => n ∉ Listing.names) = own.map Exposure.name := by
    rw [names, List.filter_append, List.filter_eq_self.mpr, List.filter_eq_nil_iff.mpr,
      List.append_nil]
    · simp
    · intro n hn
      simpa using fun hl => apart.2.2 n hn n hl rfl
  refine ⟨kept, ?_⟩
  rw [listed, kept, List.filterMap_map, ← List.filterMap_eq_map]
  refine List.filterMap_congr fun x hx => ?_
  simp [h.find?_of_mem (List.mem_append_left _ hx)]

/-- A describing method is found under its name. -/
theorem call_of_mem_methods
    (h : t.Aligned (own ++ Listing.exposures id target (own.map Exposure.entry) sources))
    {m : Method σ} (hm : m ∈ Listing.methods id (own.map Exposure.entry) sources)
    {env : Environment} {v : Host.Value} {args : List Script.Value} {s : σ} :
    t.call m.name env v args s = m.call env v args s := by
  have found : t.find? m.name = some m :=
    h.find?_of_mem (List.mem_append_right _ (List.mem_map_of_mem hm))
  rw [call, found]
  rfl

end Own

/-! ## What the describing methods answer -/

namespace Listing

variable {env : Environment} {target : Host.Value} {s : σ}

/-- A call of a describing method: it gives the script value for what its code gives. -/
theorem call_method {id place : Nat} {spec : MethodSpec σ} {params : List EnvParam}
    {values : List Host.Value} {result : Host.Value} {answer : Script.Value}
    (hi : (method id place spec params).inputs env target [] = .ok values)
    (hf : spec.function ⟨values, env.converter⟩ s = (.ok result, s))
    (hr : spec.signature.returns ≠ .void) (ho : env.converter.toScript result = .ok answer) :
    (method id place spec params).call env target [] s = (.ok [answer], s) := by
  have outputs : (method id place spec params).outputs env.converter result = .ok [answer] := by
    unfold Method.outputs
    rw [if_neg (show ¬ (method id place spec params).declaration.multiple = true from
      Bool.false_ne_true)]
    split
    · exact absurd ‹_› hr
    · rw [ho]
      rfl
  have code : (method id place spec params).function ⟨values, env.converter⟩ s =
      (.ok result, s) := hf
  rw [Method.call, hi]
  dsimp only
  rw [code]
  dsimp only
  rw [outputs]
  rfl

theorem call_names (hc : env.converter = .standard []) (id : Nat) (own : List (Entry σ)) :
    (method id 0 (namesSpec own) []).call env target [] s = (.ok [.string (overview own)], s) := by
  have inputs : (method id 0 (namesSpec own) []).inputs env target [] = .ok [] := rfl
  refine call_method inputs rfl (by simp [namesSpec]) ?_
  rw [hc]
  exact toScript_string _

theorem toScript_sourceMap {sources : List String} (hd : sources.Nodup) :
    toScript [] (sourceMap sources) =
      .ok (.table (sources.map fun source => (.string source, .boolean true))) := by
  have shape : (sources.map fun source => (Script.Value.string source, Script.Value.boolean true)) =
      record (sources.map fun source => (source, .boolean true)) := by
    rw [record, List.map_map]
    rfl
  rw [shape]
  refine toScript_record (by simpa [Function.comp_def] using hd) ?_
  simp [List.forall₂_map_left_iff, List.forall₂_map_right_iff, List.forall₂_same]

theorem call_sources (hc : env.converter = .standard []) (id : Nat) {sources : List String}
    (hd : sources.Nodup) :
    (method id 1 (sourcesSpec sources) []).call env target [] s =
      (.ok [.table (sources.map fun source => (.string source, .boolean true))], s) := by
  have inputs : (method (σ := σ) id 1 (sourcesSpec sources) []).inputs env target [] = .ok [] := rfl
  refine call_method inputs rfl (by simp [sourcesSpec]) ?_
  rw [hc]
  exact toScript_sourceMap hd

theorem descriptions_eq_record (own : List (Entry σ)) : descriptions own =
    record (own.map fun e => (e.name, .table e.method.declaration.describe)) := by
  rw [record, List.map_map]
  rfl

theorem survives_descriptions {own : List (Entry σ)} (hd : (own.map Entry.name).Nodup)
    (countable : ∀ e ∈ own, e.method.declaration.Countable) :
    Survives (.table (descriptions own)) := by
  rw [descriptions_eq_record]
  refine survives_record (by rwa [List.map_map]) ?_
  simpa using fun e he => Declaration.survives_describe (countable e he)

theorem inputs_descriptions
    (hn : env.named? Environment.Key.converter = some (.object Converter.token)) (id : Nat)
    (own : List (Entry σ)) :
    (method id 2 (descriptionsSpec own) [converterParam]).inputs env target [] =
      .ok [.object Converter.token] := by
  have named : Method.namedInput env converterParam = .ok (.object Converter.token) := by
    rw [Method.namedInput, show env.named? converterParam.name = _ from hn]
  show ([converterParam].mapM (Method.namedInput env)).bind _ = _
  rw [List.mapM_cons, named]
  rfl

theorem convertDescriptions_eq {own : List (Entry σ)} {c : Converter} {r : Host.Value}
    (h : c.toHost (.table (descriptions own)) .any = some r) :
    convertDescriptions own ⟨[.object Converter.token], c⟩ = .ok r := by
  have supplied : (Call.mk [.object Converter.token] c).converterAt 0 = .ok c := rfl
  rw [convertDescriptions, supplied]
  dsimp only [bind, Except.bind]
  rw [h]
  rfl

/-- The descriptions are converted for the code of the method, and back for the script. -/
theorem call_descriptions (hc : env.converter = .standard [])
    (hn : env.named? Environment.Key.converter = some (.object Converter.token)) (id : Nat)
    {own : List (Entry σ)} (hd : (own.map Entry.name).Nodup)
    (countable : ∀ e ∈ own, e.method.declaration.Countable) :
    (method id 2 (descriptionsSpec own) [converterParam]).call env target [] s =
      (.ok [.table (descriptions own)], s) := by
  obtain ⟨r, there, back⟩ := survives_descriptions hd countable
  have converted : env.converter.toHost (.table (descriptions own)) .any = some r := by
    rw [hc]
    exact (toHost_any ..).trans there
  have code : (descriptionsSpec own).function ⟨[.object Converter.token], env.converter⟩ s =
      (.ok r, s) := congrArg (·, s) (convertDescriptions_eq converted)
  refine call_method (inputs_descriptions hn id own) code (by simp [descriptionsSpec]) ?_
  rw [hc]
  exact back

end Listing

/-! ## Tables that describe themselves -/

/-- In the environment, the describing methods are right about the table. -/
structure DescribesItself (t : MethodTable σ) (env : Environment) : Prop where
  names : ∀ target s, t.call Listing.listMethods env target [] s =
    (.ok [.string (", ".intercalate (t.listed.map fun p => p.1 ++ p.2.declaration.signature))], s)
  sources : ∀ target s, t.call Listing.listSources env target [] s =
    (.ok [.table (t.sources.map fun source => (.string source, .boolean true))], s)
  descriptions : (∀ p ∈ t.listed, p.2.declaration.Countable) →
    ∀ target s, t.call Listing.describeMethods env target [] s =
      (.ok [.table (t.listed.map fun p => (.string p.1, .table p.2.declaration.describe))], s)

theorem nodup_sourcesOf (adapters : List (Adapter σ)) : (sourcesOf adapters).Nodup :=
  (List.mergeSort_perm ..).nodup_iff.mpr (nodup_eraseDups _)

theorem sources_of_build {s : Setup} {id : Nat} {target : Host.Class} {architecture : String}
    {adapters : List (Adapter σ)} {t : MethodTable σ}
    (h : ((build id target architecture adapters).run s).1 = .ok t) :
    t.sources = sourcesOf adapters := by
  rw [fst_run_build, map_eq_ok] at h
  obtain ⟨b, -, rfl⟩ := h
  rfl

theorem describesItself_of_build {s : Setup} {id : Nat} {target : Host.Class}
    {architecture : String} {adapters : List (Adapter σ)} {t : MethodTable σ}
    (lists : s.lists = true) (unused : Unused id adapters)
    (h : ((build id target architecture adapters).run s).1 = .ok t) {env : Environment}
    (hc : env.converter = .standard [])
    (hn : env.named? Environment.Key.converter = some (.object Converter.token)) :
    t.listed.map Prod.fst = t.names.filter (fun n => n ∉ Listing.names) ∧
      t.DescribesItself env := by
  obtain ⟨own, aligned⟩ := exists_own_of_build lists unused h
  have sources : t.sources.Nodup := by
    rw [sources_of_build h]
    exact nodup_sourcesOf adapters
  obtain ⟨names, listed⟩ := listed_eq aligned
  refine ⟨by rw [listed, names, List.map_map]; rfl, ?_, ?_, ?_⟩
  · intro v s
    refine (call_of_mem_methods aligned
      (m := Listing.method id 0 (Listing.namesSpec (own.map Exposure.entry)) [])
      (by simp [Listing.methods])).trans ?_
    rw [Listing.call_names hc, Listing.overview, listed, List.map_map, List.map_map]
    rfl
  · intro v s
    refine (call_of_mem_methods aligned
      (m := Listing.method id 1 (Listing.sourcesSpec t.sources) [])
      (by simp [Listing.methods])).trans ?_
    exact Listing.call_sources hc id sources
  · intro countable v s
    rw [listed] at countable
    refine (call_of_mem_methods aligned
      (m := Listing.method id 2 (Listing.descriptionsSpec (own.map Exposure.entry))
        [Listing.converterParam])
      (by simp [Listing.methods])).trans ?_
    rw [Listing.call_descriptions hc hn, Listing.descriptions, listed, List.map_map, List.map_map]
    · rfl
    · rw [List.map_map]
      exact names ▸ aligned.places.nodup.filter _
    · simpa [Exposure.entry] using countable

end MethodTable

end HostBridge

import HostBridge.Proofs.MethodTable.SelfDescription

/-!
# Where the methods of a table come from

A table names the sources of its adapters, in order and each once.  The source of a method
is that of its adapter, so every source that a method of the table comes from is named.  But
an adapter is named also if none of its methods is visible, or if it has none.

`sources_exact` says when the two agree: every adapter must share its source with one that
has a visible method.
-/

namespace HostBridge

open Adapter (Definition)

variable {σ : Type}

/-- The methods of an adapter have the source of the adapter. -/
theorem Adapter.Definition.source_of_mem_build {d : Definition σ} {id : Nat} {s : Setup}
    {a : Adapter σ} (h : ((d.build id).run s).1 = .ok a) :
    ∀ m ∈ a.methods, m.declaration.source = a.source := by
  intro m hm
  obtain ⟨spec, -, place, c, declaration, parsed, rfl⟩ :=
    exists_mem_of_forall₂ (understands_of_build h) hm
  have source : a.source = d.sourceTag := by
    rw [fst_run_build, map_eq_ok] at h
    obtain ⟨methods, -, rfl⟩ := h
    rfl
  rw [source]
  exact (Declaration.reflects_of_parse parsed).source_eq

namespace MethodTable

/-! ## Adapters that make up a table -/

/-- The adapters were built, under identities of their own that the table does not have. -/
structure Supplied (id : Nat) (adapters : List (Adapter σ)) : Prop where
  built : ∀ a ∈ adapters, ∃ (d : Definition σ) (s : Setup), ((d.build a.id).run s).1 = .ok a
  apart : ∀ a ∈ adapters, ∀ a' ∈ adapters, a.id = a'.id → a = a'
  fresh : ∀ a ∈ adapters, a.id ≠ id

namespace Supplied

variable {id : Nat} {adapters : List (Adapter σ)} {a : Adapter σ} {m : Method σ}

theorem adapter_eq (h : Supplied id adapters) (ha : a ∈ adapters) (hm : m ∈ a.methods) :
    m.id.adapter = a.id := by
  obtain ⟨d, s, built⟩ := h.built a ha
  exact Definition.adapter_of_mem_build built m hm

theorem source_eq (h : Supplied id adapters) (ha : a ∈ adapters) (hm : m ∈ a.methods) :
    m.declaration.source = a.source := by
  obtain ⟨d, s, built⟩ := h.built a ha
  exact Definition.source_of_mem_build built m hm

theorem unused (h : Supplied id adapters) : Unused id adapters := by
  intro a ha m hm
  rw [h.adapter_eq ha hm]
  exact h.fresh a ha

end Supplied

/-! ## Sources in order -/

theorem mem_sourcesOf {adapters : List (Adapter σ)} {source : String} :
    source ∈ sourcesOf adapters ↔ ∃ a ∈ adapters, a.source = source := by
  rw [sourcesOf, List.mem_mergeSort, List.mem_eraseDups, List.mem_map]

theorem pairwise_sourcesOf (adapters : List (Adapter σ)) :
    (sourcesOf adapters).Pairwise (· < ·) := by
  have sorted : (sourcesOf adapters).Pairwise fun a b => decide (a ≤ b) = true := by
    refine List.pairwise_mergeSort (fun a b c => ?_) (fun a b => ?_) _
    · simpa using String.le_trans
    · simpa using String.le_total a b
  refine (sorted.and (nodup_sourcesOf adapters)).imp fun ⟨le, ne⟩ => ?_
  exact Std.lt_of_le_of_ne (of_decide_eq_true le) ne

/-! ## Contributions -/

/-- A name leads to a method from the source, other than those that describe the table. -/
def Contributes (t : MethodTable σ) (source : String) : Prop :=
  ∃ name m, t.find? name = some m ∧ m.id.adapter ≠ t.id ∧ m.declaration.source = source

variable {s : Setup} {id : Nat} {target : Host.Class} {architecture : String}
  {adapters : List (Adapter σ)} {t : MethodTable σ}

theorem id_of_build (h : ((build id target architecture adapters).run s).1 = .ok t) :
    t.id = id := by
  rw [fst_run_build, map_eq_ok] at h
  obtain ⟨b, -, rfl⟩ := h
  rfl

/-- A source contributes exactly if an adapter with the source has a visible method. -/
theorem contributes_iff (supplied : Supplied id adapters)
    (h : ((build id target architecture adapters).run s).1 = .ok t) (source : String) :
    t.Contributes source ↔ ∃ a ∈ adapters, a.source = source ∧
      ∃ m ∈ a.methods, m.visible architecture s.gating = true := by
  have shows := shows_of_build h
  constructor
  · rintro ⟨name, m, found, other, rfl⟩
    rcases visible_of_shown (shows.sound name m found).1 with ⟨a, ha, hm, visible⟩ | ⟨_, describes⟩
    · exact ⟨a, ha, (supplied.source_eq ha hm).symm, m, hm, visible⟩
    · rw [id_of_build h] at other
      exact absurd (Listing.adapter_of_mem_methods describes) other
  · rintro ⟨a, ha, rfl, m, hm, visible⟩
    -- What is found under its name has its identity, so it is of the same adapter.
    obtain ⟨m', found, same⟩ := shows.complete m (shown_of_visible ha hm visible)
      m.declaration.name (List.mem_cons_self ..)
    have identity : m'.id.adapter = a.id := by rw [same, supplied.adapter_eq ha hm]
    refine ⟨m.declaration.name, m', found, ?_, ?_⟩
    · rw [identity, id_of_build h]
      exact supplied.fresh a ha
    · rcases visible_of_shown (shows.sound _ m' found).1 with ⟨a', ha', hm', -⟩ | ⟨_, describes⟩
      · have one := supplied.apart a' ha' a ha ((supplied.adapter_eq ha' hm').symm.trans identity)
        rw [supplied.source_eq ha' hm', one]
      · have listing := Listing.adapter_of_mem_methods describes
        exact absurd (identity.symm.trans listing) (supplied.fresh a ha)

/-- What the method that lists sources answers. -/
theorem call_listSources (lists : s.lists = true) (unused : Unused id adapters)
    (h : ((build id target architecture adapters).run s).1 = .ok t) {env : Environment}
    (hc : env.converter = .standard []) (v : Host.Value) (host : σ) :
    t.call Listing.listSources env v [] host =
      (.ok [.table (t.sources.map fun source => (.string source, .boolean true))], host) := by
  obtain ⟨own, aligned⟩ := exists_own_of_build lists unused h
  have nodup : t.sources.Nodup := by
    rw [sources_of_build h]
    exact nodup_sourcesOf adapters
  refine (call_of_mem_methods aligned
    (m := Listing.method id 1 (Listing.sourcesSpec t.sources) [])
    (by simp [Listing.methods])).trans ?_
  exact Listing.call_sources hc id nodup

/-- The sources of a table are in strict order, and they are those of its adapters.  They are
those that methods come from exactly if every adapter shares its source with one that has a
visible method.  Scripts are told the sources if the table describes itself. -/
theorem sources_exact (supplied : Supplied id adapters)
    (h : ((build id target architecture adapters).run s).1 = .ok t) :
    t.sources.Pairwise (· < ·) ∧
    (∀ source, source ∈ t.sources ↔ ∃ a ∈ adapters, a.source = source) ∧
    (∀ source, t.Contributes source ↔ ∃ a ∈ adapters, a.source = source ∧
      ∃ m ∈ a.methods, m.visible architecture s.gating = true) ∧
    ((∀ source, source ∈ t.sources ↔ t.Contributes source) ↔
      ∀ a ∈ adapters, ∃ a' ∈ adapters, a'.source = a.source ∧
        ∃ m ∈ a'.methods, m.visible architecture s.gating = true) ∧
    (s.lists = true → ∀ env : Environment, env.converter = .standard [] → ∀ v host,
      t.call Listing.listSources env v [] host =
        (.ok [.table (t.sources.map fun source => (.string source, .boolean true))], host)) := by
  have contributes := contributes_iff supplied h
  have named (source : String) : source ∈ t.sources ↔ ∃ a ∈ adapters, a.source = source := by
    rw [sources_of_build h]
    exact mem_sourcesOf
  refine ⟨?_, named, contributes, ?_, fun lists env hc v host =>
    call_listSources lists supplied.unused h hc v host⟩
  · rw [sources_of_build h]
    exact pairwise_sourcesOf adapters
  · constructor
    · intro agree a ha
      exact (contributes a.source).mp ((agree a.source).mp ((named a.source).mpr ⟨a, ha, rfl⟩))
    · intro shared source
      rw [named, contributes]
      constructor
      · rintro ⟨a, ha, rfl⟩
        exact shared a ha
      · rintro ⟨a, ha, same, -⟩
        exact ⟨a, ha, same⟩

/-! ### A band -/

/-- A definition with one method, which scripts see everywhere. -/
def trumpet : Definition Unit where
  name := "Trumpet"
  target := .root "Band"
  kind := .composed
  methods := [{ signature := { name := "signal" }, function := .const .null }]

/-- A definition with one method, which scripts do not see on one architecture. -/
def tuba : Definition Unit where
  name := "Tuba"
  target := .root "Band"
  kind := .composed
  excluded := ["computercraft"]
  methods := [{ signature := { name := "rumble" }, function := .const .null }]

/-- An adapter with one method, which needs nothing and gives nothing. -/
def player (id : Nat) (name method : String) (excluded : List String) : Adapter Unit where
  id
  name
  source := name
  target := .root "Band"
  kind := .composed
  methods := [{
    id := ⟨id, 0⟩
    declaration := {
      name := method, description := "", source := name, aliases := [], positional := [],
      env := [], arguments := [], returns := .void, resultTags := [], multiple := false }
    function := .const .null
    composed := true
    excluded }]

/-- The adapters of the two definitions. -/
def band : List (Adapter Unit) :=
  [player 0 "Trumpet" "signal" [], player 1 "Tuba" "rumble" ["computercraft"]]

theorem supplied_band : Supplied 2 band := by
  refine ⟨?_, by simp [band, player], by decide +kernel⟩
  refine List.forall_mem_cons.mpr ⟨⟨trumpet, .initial, rfl⟩, ?_⟩
  exact List.forall_mem_singleton.mpr ⟨tuba, .initial, rfl⟩

/-- Where scripts see both methods, they come from both sources. -/
theorem sources_exact_band : Supplied 2 band ∧
    ∃ t, ((build 2 (.root "Band") "opencomputers" band).run .initial).1 = .ok t ∧
      t.sources.Pairwise (· < ·) ∧ (∀ source, source ∈ t.sources ↔ t.Contributes source) ∧
      t.Contributes "Tuba" := by
  cases answer : ((build 2 (.root "Band") "opencomputers" band).run .initial).1 with
  | error e =>
      have built : ((build 2 (.root "Band") "opencomputers" band).run .initial).1.isOk = true := by
        decide +kernel
      rw [answer] at built
      cases built
  | ok t =>
      have visible : ∀ a ∈ band, ∃ m ∈ a.methods,
          m.visible "opencomputers" Setup.initial.gating = true := by decide +kernel
      obtain ⟨sorted, -, contributes, agree, -⟩ := sources_exact supplied_band answer
      have agree := agree.mpr fun a ha => ⟨a, ha, rfl, visible a ha⟩
      refine ⟨supplied_band, t, rfl, sorted, agree, (contributes "Tuba").mpr ?_⟩
      have tuba : player 1 "Tuba" "rumble" ["computercraft"] ∈ band := by simp [band]
      exact ⟨_, tuba, rfl, visible _ tuba⟩

/-- Where scripts do not see the method of the tuba, its source is named all the same. -/
theorem not_sources_contribute :
    (∃ t, ((build 2 (.root "Band") "computercraft" band).run .initial).1 = .ok t ∧
      "Tuba" ∈ t.sources ∧ ¬ t.Contributes "Tuba") ∧
    ¬ ∀ (s : Setup) (id : Nat) (target : Host.Class) (architecture : String)
        (adapters : List (Adapter Unit)) (t : MethodTable Unit), Supplied id adapters →
      ((build id target architecture adapters).run s).1 = .ok t →
      ∀ source, source ∈ t.sources ↔ t.Contributes source := by
  cases answer : ((build 2 (.root "Band") "computercraft" band).run .initial).1 with
  | error e =>
      have built : ((build 2 (.root "Band") "computercraft" band).run .initial).1.isOk = true := by
        decide +kernel
      rw [answer] at built
      cases built
  | ok t =>
      have named : "Tuba" ∈ t.sources := by
        rw [sources_of_build answer]
        exact mem_sourcesOf.mpr ⟨_, List.mem_cons_of_mem _ (List.mem_singleton_self _), rfl⟩
      have hidden : ∀ a ∈ band, a.source = "Tuba" →
          ∀ m ∈ a.methods, ¬ m.visible "computercraft" Setup.initial.gating = true := by
        decide +kernel
      have silent : ¬ t.Contributes "Tuba" := by
        rw [contributes_iff supplied_band answer]
        rintro ⟨a, ha, source, m, hm, visible⟩
        exact hidden a ha source m hm visible
      refine ⟨⟨t, rfl, named, silent⟩, fun claim => silent ?_⟩
      exact (claim .initial 2 (.root "Band") "computercraft" band t supplied_band answer "Tuba").mp
        named

end MethodTable

end HostBridge

import HostBridge.Proofs.MethodTable.Contents

/-!
# What a built table shows

A table built from adapters shows the visible methods of all its contributors, each
under all its names, and nothing else.  It is refused exactly if two of these methods
have a name in common, and then with the first clash in the order of the table.

Methods are told apart by identity.  The same adapter may be given several times, and
its methods are then the same methods.
-/

namespace HostBridge.MethodTable

variable {σ : Type}

open Exposure (Coherent FirstClash exposed firstOfEach)

/-! ## Look-ups in a table -/

/-- What the table keeps side by side is in step: the names and the methods are those of the
exposures, and the index gives the places of the names. -/
structure Aligned (t : MethodTable σ) (xs : List (Exposure σ)) : Prop where
  names_eq : t.names = xs.map Exposure.name
  methods_eq : t.methods = xs.map Exposure.method
  places : Places t.index t.names

/-- A finished table is in step if the builder was. -/
theorem Builder.Aligned.table {b : Builder σ} {xs : List (Exposure σ)} (h : b.Aligned xs)
    (id : Nat) (target : Host.Class) (architecture : String) (sources : List String) :
    (b.table id target architecture sources).Aligned xs := by
  have names : b.entries.map Entry.name = xs.map Exposure.name := by
    rw [h.entries_eq, List.map_map]
    rfl
  refine ⟨names, ?_, ?_⟩
  · show b.entries.map Entry.method = _
    rw [h.entries_eq, List.map_map]
    rfl
  · show Places b.index (b.entries.map Entry.name)
    rw [names]
    exact h.places

namespace Aligned

variable {t : MethodTable σ} {xs : List (Exposure σ)}

theorem length_eq (h : t.Aligned xs) : t.methods.length = t.names.length := by
  rw [h.methods_eq, h.names_eq, List.length_map, List.length_map]

/-- The place of a name is where it stands. -/
theorem indexOf?_eq_some_iff (h : t.Aligned xs) (n : String) (i : Nat) :
    t.indexOf? n = some i ↔ t.names[i]? = some n :=
  h.places n i

theorem nodup (h : t.Aligned xs) : (xs.map Exposure.name).Nodup :=
  h.names_eq ▸ h.places.nodup

/-- The method under a name is that of the exposure of the name. -/
theorem find?_eq_map (h : t.Aligned xs) (n : String) :
    t.find? n = (Exposure.find? xs n).map Exposure.method := by
  rw [find?]
  cases place : t.indexOf? n with
  | none =>
      have absent := (h.places.find?_eq_none n).mp place
      rw [h.names_eq] at absent
      rw [Exposure.find?_eq_none.mpr absent]
      rfl
  | some i =>
      have name := (h.indexOf?_eq_some_iff n i).mp place
      rw [h.names_eq, List.getElem?_map, Option.map_eq_some_iff] at name
      obtain ⟨x, here, rfl⟩ := name
      rw [Exposure.find?_of_mem h.nodup (List.mem_of_getElem? here), Option.bind_some, method?,
        h.methods_eq, List.getElem?_map, here]

/-- Every exposure is found under its name. -/
theorem find?_of_mem (h : t.Aligned xs) {x : Exposure σ} (hx : x ∈ xs) :
    t.find? x.name = some x.method := by
  rw [h.find?_eq_map, Exposure.find?_of_mem h.nodup hx, Option.map_some]

/-- To call a method by a name is to call it by the place of the name. -/
theorem call_eq_callAt (h : t.Aligned xs) {n : String} {i : Nat} (place : t.indexOf? n = some i)
    (env : Environment) (target : Host.Value) (args : List Script.Value) (s : σ) :
    t.call n env target args s = t.callAt i env target args s := by
  have name := (h.indexOf?_eq_some_iff n i).mp place
  have inside : i < t.methods.length := by
    rw [h.length_eq]
    exact (List.getElem?_eq_some_iff.mp name).1
  have found : t.method? i = some t.methods[i] := List.getElem?_eq_getElem inside
  rw [call, callAt, find?, place, Option.bind_some, found]
  rfl

end Aligned

/-! ## Clashes of methods -/

/-- The exposures of visible methods are coherent unless two methods have a name in
common. -/
theorem not_coherent_exposed_iff (architecture : String) (g : Gating)
    (adapters : List (Adapter σ)) :
    ¬ Coherent (exposed architecture g adapters) ↔
      ∃ m ∈ visibleMethods architecture g adapters,
        ∃ m' ∈ visibleMethods architecture g adapters,
          m.id ≠ m'.id ∧ ∃ n ∈ m.declaration.names, n ∈ m'.declaration.names := by
  constructor
  · intro h
    rw [Coherent] at h
    push Not at h
    obtain ⟨e, he, f, hf, hn, hid⟩ := h
    obtain ⟨hem, hen⟩ := Exposure.visible_of_mem_exposed he
    obtain ⟨hfm, hfn⟩ := Exposure.visible_of_mem_exposed hf
    exact ⟨e.method, hem, f.method, hfm, hid, e.name, hen, hn ▸ hfn⟩
  · rintro ⟨m, hm, m', hm', hid, n, hn, hn'⟩ h
    obtain ⟨e, he, hen, rfl⟩ := Exposure.exists_mem_exposed hm hn
    obtain ⟨f, hf, hfn, rfl⟩ := Exposure.exists_mem_exposed hm' hn'
    exact hid (h e he f hf (hen.trans hfn.symm))

/-! ## The table of coherent exposures -/

/-- The table offers methods under all their names and nothing else. -/
structure Shows (t : MethodTable σ) (shown : List (Method σ)) : Prop where
  /-- The names are those of the methods in order, repeats dropped. -/
  names_eq : t.names = (shown.flatMap fun m => m.declaration.names).eraseDups
  /-- No name stands twice. -/
  nodup : t.names.Nodup
  /-- There is a method for each name. -/
  length_eq : t.methods.length = t.names.length
  /-- To look up the place of a name is the inverse of reading the names. -/
  place : ∀ n i, t.indexOf? n = some i ↔ t.names[i]? = some n
  /-- What is found under a name is one of the methods and has the name. -/
  sound : ∀ n m, t.find? n = some m → m ∈ shown ∧ n ∈ m.declaration.names
  /-- Every method is found under each of its names. -/
  complete : ∀ m ∈ shown, ∀ n ∈ m.declaration.names, ∃ m', t.find? n = some m' ∧ m'.id = m.id
  /-- An alias leads to the method its canonical name leads to. -/
  alias_eq : ∀ m ∈ shown, ∀ n ∈ m.declaration.aliases,
    (t.find? n).map Method.id = (t.find? m.declaration.name).map Method.id
  /-- A call by name is a call by place. -/
  call_eq : ∀ n i, t.indexOf? n = some i → ∀ env target args s,
    t.call n env target args s = t.callAt i env target args s

/-- A table of the first exposure of each name shows the visible methods. -/
theorem shows_of_coherent {t : MethodTable σ} {architecture : String} {g : Gating}
    {adapters : List (Adapter σ)} (ht : t.Aligned (firstOfEach (exposed architecture g adapters)))
    (hc : Coherent (exposed architecture g adapters)) :
    t.Shows (visibleMethods architecture g adapters) := by
  have found (n : String) : t.find? n =
      (Exposure.find? (exposed architecture g adapters) n).map Exposure.method := by
    rw [ht.find?_eq_map, Exposure.find?_firstOfEach]
  -- Under each of its names a method is found, by its identity.
  have reached : ∀ m ∈ visibleMethods architecture g adapters, ∀ n ∈ m.declaration.names,
      (t.find? n).map Method.id = some m.id := by
    intro m hm n hn
    obtain ⟨e, he, hen, rfl⟩ := Exposure.exists_mem_exposed hm hn
    cases hf : Exposure.find? (exposed architecture g adapters) n with
    | none => exact absurd (hen ▸ List.mem_map_of_mem he) (Exposure.find?_eq_none.mp hf)
    | some f =>
        have same :=
          hc f (Exposure.mem_of_find? hf) e he ((Exposure.name_of_find? hf).trans hen.symm)
        rw [found, hf]
        exact congrArg some same
  refine ⟨?_, ht.places.nodup, ht.length_eq, ht.indexOf?_eq_some_iff, ?_, ?_, ?_,
    fun n i h => ht.call_eq_callAt h⟩
  · rw [ht.names_eq, Exposure.map_name_firstOfEach, Exposure.map_name_exposed]
  · intro n m hm
    rw [found, Option.map_eq_some_iff] at hm
    obtain ⟨e, he, rfl⟩ := hm
    obtain ⟨hem, hen⟩ := Exposure.visible_of_mem_exposed (Exposure.mem_of_find? he)
    exact ⟨hem, Exposure.name_of_find? he ▸ hen⟩
  · intro m hm n hn
    exact Option.map_eq_some_iff.mp (reached m hm n hn)
  · intro m hm n hn
    rw [reached m hm n (List.mem_cons_of_mem _ hn),
      reached m hm m.declaration.name (List.mem_cons_self ..)]

/-! ## Building a table -/

/-- If the describing methods fit the host, building either gives a table of the first exposure
of each name, all in step, or is refused with the first clash. -/
theorem build_cases {s : Setup} (h : s.lists = true → Listing.lack s = none) (id : Nat)
    (target : Host.Class) (architecture : String) (adapters : List (Adapter σ)) :
    (Coherent (exposed architecture s.gating (contributors s id target architecture adapters)) ∧
      ∃ t, ((build id target architecture adapters).run s).1 = .ok t ∧
        t.Aligned (firstOfEach (exposed architecture s.gating
          (contributors s id target architecture adapters)))) ∨
    ∃ e x, FirstClash (exposed architecture s.gating
        (contributors s id target architecture adapters)) e x ∧
      ((build id target architecture adapters).run s).1 =
        .error (.duplicate x.name e.origin x.origin) := by
  have all := Builder.addAll_cases
    (exposed architecture s.gating (contributors s id target architecture adapters))
    Builder.aligned_empty Exposure.coherent_nil
  rw [List.nil_append] at all
  rw [fst_run_build, contents_of_fits h]
  rcases all with ⟨coherent, b, added, aligned⟩ | ⟨e, x, clash, refused⟩
  · rw [added]
    exact .inl ⟨coherent, _, rfl, aligned.table ..⟩
  · rw [refused]
    exact .inr ⟨e, x, clash, rfl⟩

/-- A table that was built is made from coherent exposures and is in step. -/
theorem coherent_and_aligned_of_build {s : Setup} {id : Nat} {target : Host.Class}
    {architecture : String} {adapters : List (Adapter σ)} {t : MethodTable σ}
    (h : ((build id target architecture adapters).run s).1 = .ok t) :
    let all := exposed architecture s.gating (contributors s id target architecture adapters)
    Coherent all ∧ t.Aligned (firstOfEach all) := by
  rcases build_cases (lack_of_build h) id target architecture adapters with
    ⟨coherent, t', built, aligned⟩ | ⟨e, x, -, refused⟩
  · cases h.symm.trans built
    exact ⟨coherent, aligned⟩
  · cases h.symm.trans refused

/-- A table that was built shows the visible methods of all its contributors. -/
theorem shows_of_build {s : Setup} {id : Nat} {target : Host.Class} {architecture : String}
    {adapters : List (Adapter σ)} {t : MethodTable σ}
    (h : ((build id target architecture adapters).run s).1 = .ok t) :
    t.Shows (visibleMethods architecture s.gating
      (contributors s id target architecture adapters)) := by
  obtain ⟨coherent, aligned⟩ := coherent_and_aligned_of_build h
  exact shows_of_coherent aligned coherent

/-- Building is refused for a duplicate name exactly if two visible methods have a name
in common, and then the error is that of the first clash.  Otherwise the table shows
the visible methods. -/
theorem build_exact (s : Setup) (id : Nat) (target : Host.Class) (architecture : String)
    (adapters : List (Adapter σ))
    (fits : s.lists = true → ∀ m ∈ Listing.methods id
        ((firstOfEach (exposed architecture s.gating adapters)).map Exposure.entry)
        (sourcesOf adapters),
      Adapter.Kind.composed.verify m.declaration target (s.envTypes .composed) = .ok ()) :
    let all := contributors s id target architecture adapters
    let shown := visibleMethods architecture s.gating all
    let answer := ((build id target architecture adapters).run s).1
    ((∃ n f g, answer = .error (.duplicate n f g)) ↔
      ∃ m ∈ shown, ∃ m' ∈ shown,
        m.id ≠ m'.id ∧ ∃ n ∈ m.declaration.names, n ∈ m'.declaration.names) ∧
    (∀ n f g, answer = .error (.duplicate n f g) →
      ∃ e x, FirstClash (exposed architecture s.gating all) e x ∧
        n = x.name ∧ f = e.origin ∧ g = x.origin) ∧
    ((¬ ∃ n f g, answer = .error (.duplicate n f g)) →
      ∃ t, answer = .ok t ∧ t.Shows shown) := by
  intro all shown answer
  have lacks : s.lists = true → Listing.lack s = none :=
    fun hl => (Listing.verify_methods_iff ..).mp (fits hl)
  rw [← not_coherent_exposed_iff]
  cases build_cases lacks id target architecture adapters with
  | inl own =>
      obtain ⟨hc, t, ht, hes⟩ := own
      have answered : answer = .ok t := ht
      refine ⟨⟨?_, fun h => absurd hc h⟩, ?_, fun _ => ⟨t, answered, shows_of_coherent hes hc⟩⟩
      · rintro ⟨n, f, g, h⟩
        rw [answered] at h
        cases h
      · intro n f g h
        rw [answered] at h
        cases h
  | inr clash =>
      obtain ⟨e, x, hx, he⟩ := clash
      have answered : answer = .error (.duplicate x.name e.origin x.origin) := he
      refine ⟨⟨fun _ => hx.not_coherent, fun _ => ⟨_, _, _, answered⟩⟩, ?_, ?_⟩
      · intro n f g h
        rw [answered] at h
        cases h
        exact ⟨e, x, hx, rfl, rfl, rfl⟩
      · intro h
        exact absurd ⟨_, _, _, answered⟩ h

/-- A method of a drum, at a place of its adapter. -/
def beat (place : Nat) (name : String) (aliases : List String) : Method Unit where
  id := ⟨0, place⟩
  declaration := {
    name, description := "", source := "drum", aliases, positional := [], env := [],
    arguments := [], returns := .void, resultTags := [], multiple := false }
  function := .const .null

/-- An adapter that has a name for two of its methods. -/
def drum : Adapter Unit where
  id := 0
  name := "drum"
  source := "drum"
  target := .root "Drum"
  kind := .composed
  methods := [beat 0 "play" [], beat 1 "strike" ["play"]]

/-- The adapter is refused, and would be also if it applied once. -/
theorem build_exact_drum :
    (Setup.initial.lists = true → ∀ m ∈ Listing.methods 1
        ((firstOfEach (exposed "computercraft" Setup.initial.gating [drum, drum])).map
          Exposure.entry)
        (sourcesOf [drum, drum]),
      Adapter.Kind.composed.verify m.declaration drum.target (Setup.initial.envTypes .composed) =
        .ok ()) ∧
    ∃ n f g, ((build 1 drum.target "computercraft" [drum, drum]).run Setup.initial).1 =
      .error (.duplicate n f g) := by
  have fits := fun (_ : Setup.initial.lists = true) =>
    (Listing.verify_methods_iff 1 drum.target
      ((firstOfEach (exposed "computercraft" Setup.initial.gating [drum, drum])).map Exposure.entry)
      (sourcesOf [drum, drum]) Setup.initial).mpr Listing.lack_initial
  have exact := build_exact Setup.initial 1 drum.target "computercraft" [drum, drum] fits
  refine ⟨fits, exact.1.mpr ⟨beat 0 "play" [], ?_, beat 1 "strike" ["play"], ?_, ?_⟩⟩
  · simp [visibleMethods, contributors, drum, Setup.initial, Method.visible, beat]
  · simp [visibleMethods, contributors, drum, Setup.initial, Method.visible, beat]
  · exact ⟨by decide, "play", List.mem_cons_self .., by simp [beat, Declaration.names]⟩

end HostBridge.MethodTable

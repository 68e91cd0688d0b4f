import Mathlib.Logic.Equiv.Basic
import HostBridge.Proofs.MethodTable.Exactness

/-!
# Tables that differ in identities only

Building the same table twice gives two tables, since each is built under an identity
of its own and its describing methods carry it on.  The two are alike for scripts.

Identities are only ever compared.  So to exchange them along an injective function
goes through every stage of building (`addAll_relabel`).  To exchange the identities of
two tables leaves the methods of adapters alone if none of them has either identity,
and then the contents of the one table are those of the other, relabelled
(`contents_swap`).

`Alike` is what scripts and hosts can tell about two tables without looking at the
identities of describing methods.
-/

namespace HostBridge

variable {σ : Type}

/-! ## Other identities -/

/-- The method under another identity. -/
def Method.relabel (f : MethodId → MethodId) (m : Method σ) : Method σ := { m with id := f m.id }

theorem Method.relabel_of_fixed {f : MethodId → MethodId} {m : Method σ} (h : f m.id = m.id) :
    m.relabel f = m := by
  rw [relabel, h]

theorem Method.relabel_injective {f : MethodId → MethodId} (hf : f.Injective) :
    Function.Injective (Method.relabel f : Method σ → Method σ) := by
  intro m m' h
  cases m
  cases m'
  simp only [relabel, mk.injEq] at h
  simpa [hf.eq_iff] using h

namespace MethodTable

/-- The entry with the method under another identity. -/
def Entry.relabel (f : MethodId → MethodId) (e : Entry σ) : Entry σ :=
  { e with method := e.method.relabel f }

/-- The exposure of the method under another identity. -/
def Exposure.relabel (f : MethodId → MethodId) (x : Exposure σ) : Exposure σ :=
  { x with method := x.method.relabel f }

/-- The builder with all methods under other identities. -/
def Builder.relabel (f : MethodId → MethodId) (b : Builder σ) : Builder σ :=
  { b with entries := b.entries.map (Entry.relabel f) }

variable {f : MethodId → MethodId}

namespace Builder

theorem add_relabel (hf : f.Injective) (b : Builder σ) (x : Exposure σ) :
    (b.relabel f).add (x.relabel f) = (b.add x).map (Builder.relabel f) := by
  show addName (x.method.relabel f) x.origin (b.relabel f) x.name = _
  rw [add, addName, addName]
  cases place : b.index.find? x.name with
  | none =>
      rw [show (b.relabel f).index.find? x.name = none from place]
      simp [Except.map, Builder.relabel, Entry.relabel]
  | some i =>
      rw [show (b.relabel f).index.find? x.name = some i from place]
      -- Identities are compared, and different ones stay different.
      have same : ((b.relabel f).entries[i]?.any fun e => e.method.id = (x.method.relabel f).id) =
          (b.entries[i]?.any fun e => e.method.id = x.method.id) := by
        rw [Builder.relabel, List.getElem?_map, Option.any_map]
        simp only [Entry.relabel, Method.relabel, hf.eq_iff]
      dsimp only
      rw [same]
      split <;> rfl

/-- To relabel what is added is to add it and relabel the result. -/
theorem addAll_relabel (hf : f.Injective) (xs : List (Exposure σ)) (b : Builder σ) :
    (b.relabel f).addAll (xs.map (Exposure.relabel f)) =
      (b.addAll xs).map (Builder.relabel f) := by
  induction xs generalizing b with
  | nil => rfl
  | cons x xs ih =>
      rw [addAll, addAll, List.map_cons, List.foldlM_cons, List.foldlM_cons, add_relabel hf]
      cases b.add x with
      | error e => rfl
      | ok b' => exact ih b'

theorem map_name_relabel (f : MethodId → MethodId) (b : Builder σ) :
    (b.relabel f).entries.map Entry.name = b.entries.map Entry.name := by
  rw [relabel, List.map_map]
  rfl

theorem map_method_relabel (f : MethodId → MethodId) (b : Builder σ) :
    (b.relabel f).entries.map Entry.method =
      (b.entries.map Entry.method).map (Method.relabel f) := by
  rw [relabel, List.map_map, List.map_map]
  rfl

end Builder

/-- Exposures of methods that keep their identities stay. -/
theorem Exposure.map_relabel_exposed {architecture : String} {g : Gating}
    {adapters : List (Adapter σ)} (h : ∀ a ∈ adapters, ∀ m ∈ a.methods, f m.id = m.id) :
    (exposed architecture g adapters).map (relabel f) = exposed architecture g adapters := by
  refine (List.map_congr_left fun x hx => ?_).trans (List.map_id _)
  obtain ⟨a, ha, hm⟩ := List.mem_flatMap.mp (visible_of_mem_exposed hx).1
  rw [relabel, Method.relabel_of_fixed (h a ha _ (List.mem_filter.mp hm).1)]
  rfl

/-! ## The identity of a table -/

/-- Exchange two identities of adapters. -/
def swapId (i j : Nat) (m : MethodId) : MethodId := ⟨Equiv.swap i j m.adapter, m.place⟩

theorem swapId_injective (i j : Nat) : (swapId i j).Injective := by
  rintro ⟨a, p⟩ ⟨b, q⟩ h
  simp only [swapId, MethodId.mk.injEq, EmbeddingLike.apply_eq_iff_eq] at h
  rw [h.1, h.2]

theorem swapId_of_ne {i j : Nat} {m : MethodId} (hi : m.adapter ≠ i) (hj : m.adapter ≠ j) :
    swapId i j m = m := by
  rw [swapId, Equiv.swap_apply_of_ne_of_ne hi hj]

/-- No method of the adapters is of the adapter with the identity. -/
def Unused (id : Nat) (adapters : List (Adapter σ)) : Prop :=
  ∀ a ∈ adapters, ∀ m ∈ a.methods, m.id.adapter ≠ id

theorem exposed_listing (architecture : String) (g : Gating) (i j : Nat)
    (target target' : Host.Class) (entries : List (Entry σ)) (sources : List String) :
    Exposure.exposed architecture g [Listing.adapter j target' entries sources] =
      (Exposure.exposed architecture g [Listing.adapter i target entries sources]).map
        (Exposure.relabel (swapId i j)) := by
  have swapped (place : Nat) : swapId i j ⟨i, place⟩ = ⟨j, place⟩ := by
    rw [swapId, Equiv.swap_apply_left]
  simp [Exposure.exposed, Listing.adapter, Listing.methods, Listing.method, Method.visible,
    Exposure.ofMethod, Exposure.relabel, Method.relabel, swapped, Builder.originOf, Method.name,
    Function.comp_def]

/-- Under another identity and for another description of the class, a table is made from
the same contents, with the identities exchanged. -/
theorem contents_swap (s : Setup) {i j : Nat} (target target' : Host.Class) (architecture : String)
    {adapters : List (Adapter σ)} (hi : Unused i adapters) (hj : Unused j adapters) :
    contents s j target' architecture adapters =
      (contents s i target architecture adapters).map (Builder.relabel (swapId i j)) := by
  have kept : (Exposure.exposed architecture s.gating adapters).map
      (Exposure.relabel (swapId i j)) = _ :=
    Exposure.map_relabel_exposed fun a ha m hm => swapId_of_ne (hi a ha m hm) (hj a ha m hm)
  have own := Builder.addAll_relabel (swapId_injective i j)
    (Exposure.exposed architecture s.gating adapters) .empty
  rw [show Builder.empty.relabel (swapId i j) = .empty from rfl, kept] at own
  rw [contents, contents]
  cases hown : Builder.empty.addAll (Exposure.exposed architecture s.gating adapters) with
  | error e => rfl
  | ok b =>
      rw [hown] at own
      have stay : b.relabel (swapId i j) = b := by
        injection own with h
        exact h.symm
      show withListing .. = Except.map _ (withListing ..)
      rw [withListing, withListing]
      cases s.lists with
      | false => exact congrArg Except.ok stay.symm
      | true =>
          cases Listing.lack s with
          | some fault => rfl
          | none =>
              show Builder.addAll .. = Except.map _ (Builder.addAll ..)
              rw [exposed_listing architecture s.gating i j target target',
                ← Builder.addAll_relabel (swapId_injective i j), stay]

/-! ## Alike tables -/

/-- The tables are the same to scripts, and the methods of the given adapters are the
same ones in both.  Their describing methods may differ in identity. -/
structure Alike (adapters : List (Adapter σ)) (t u : MethodTable σ) : Prop where
  architecture_eq : u.architecture = t.architecture
  /-- The names are the same, in the same order. -/
  names_eq : u.names = t.names
  sources_eq : u.sources = t.sources
  /-- A method of an adapter is found under the same names. -/
  find?_iff : ∀ a ∈ adapters, ∀ m ∈ a.methods, ∀ n, u.find? n = some m ↔ t.find? n = some m
  /-- A call by name has the same outcome. -/
  call_eq : ∀ n env target args s, u.call n env target args s = t.call n env target args s
  /-- A call by place has the same outcome. -/
  callAt_eq : ∀ i env target args s, u.callAt i env target args s = t.callAt i env target args s

theorem Alike.refl (adapters : List (Adapter σ)) (t : MethodTable σ) : Alike adapters t t :=
  ⟨rfl, rfl, rfl, fun _ _ _ _ _ => Iff.rfl, fun _ _ _ _ _ => rfl, fun _ _ _ _ _ => rfl⟩

/-- To call a method does not read its identity. -/
theorem callMethod_relabel (f : MethodId → MethodId) (m : Option (Method σ)) (name : String)
    (env : Environment) (target : Host.Value) (args : List Script.Value) (s : σ) :
    callMethod (m.map (Method.relabel f)) name env target args s =
      callMethod m name env target args s := by
  cases m <;> rfl

/-- Tables with relabelled methods are alike, if the methods of the adapters keep their
identities. -/
theorem alike_of_relabel (hf : f.Injective) {adapters : List (Adapter σ)}
    (hkept : ∀ a ∈ adapters, ∀ m ∈ a.methods, f m.id = m.id) {t u : MethodTable σ}
    (ha : u.architecture = t.architecture) (hs : u.sources = t.sources) (hn : u.names = t.names)
    (hi : u.index = t.index) (hm : u.methods = t.methods.map (Method.relabel f)) :
    Alike adapters t u := by
  have placed (i : Nat) : u.method? i = (t.method? i).map (Method.relabel f) := by
    rw [method?, method?, hm, List.getElem?_map]
  have found (n : String) : u.find? n = (t.find? n).map (Method.relabel f) := by
    rw [find?, find?, indexOf?, indexOf?, hi, Option.map_bind]
    exact congrArg _ (funext placed)
  refine ⟨ha, hn, hs, ?_, ?_, ?_⟩
  · intro a ha m hm n
    have fixed := Method.relabel_of_fixed (hkept a ha m hm)
    rw [found, Option.map_eq_some_iff]
    constructor
    · rintro ⟨m', hm', h⟩
      rwa [Method.relabel_injective hf (h.trans fixed.symm)] at hm'
    · exact fun h => ⟨m, h, fixed⟩
  · intro n env target args s
    rw [call, call, found, callMethod_relabel]
  · intro i env target args s
    rw [callAt, callAt, placed, callMethod_relabel]

/-! ## The same outcome -/

/-- Both are refused for the same reason, or the tables are alike. -/
inductive SameOutcome {ε : Type} (adapters : List (Adapter σ)) :
    Except ε (MethodTable σ) → Except ε (MethodTable σ) → Prop where
  | refused (e : ε) : SameOutcome adapters (.error e) (.error e)
  | alike {t u : MethodTable σ} (h : Alike adapters t u) : SameOutcome adapters (.ok t) (.ok u)

theorem SameOutcome.refl {ε : Type} (adapters : List (Adapter σ)) (r : Except ε (MethodTable σ)) :
    SameOutcome adapters r r := by
  cases r with
  | error e => exact .refused e
  | ok t => exact .alike (.refl adapters t)

/-- Building under one identity or another has the same outcome, if no registered adapter
has either identity. -/
theorem build_swap (s : Setup) {i j : Nat} (target target' : Host.Class) (architecture : String)
    {registered adapters : List (Adapter σ)} (hr : ∀ a ∈ adapters, a ∈ registered)
    (hi : Unused i registered) (hj : Unused j registered) :
    SameOutcome registered ((build i target architecture adapters).run s).1
      ((build j target' architecture adapters).run s).1 := by
  have swapped := contents_swap s target target' architecture (fun a ha => hi a (hr a ha))
    fun a ha => hj a (hr a ha)
  rw [fst_run_build, fst_run_build, swapped]
  cases contents s i target architecture adapters with
  | error e => exact .refused e
  | ok b =>
      refine .alike (alike_of_relabel (swapId_injective i j) ?_ rfl rfl (b.map_name_relabel _) rfl
        (b.map_method_relabel _))
      exact fun a ha m hm => swapId_of_ne (hi a ha m hm) (hj a ha m hm)

end MethodTable

end HostBridge

import HostBridge.Proofs.Bridge.LookupOrder
import HostBridge.Proofs.Bridge.Registration

/-!
# The adapters found for a class

A catalogue finds adapters by their positions, and keeps these by target.  The positions
kept for a target are all those of adapters for it, in ascending order (`Numbered`), after
any requests to register: one for an adapter that cannot be built changes nothing.  The same
holds after any run of a host (`Faithful`).

So the adapters for a class are those that serve it.  They come in the order of their
targets in the lineage of the class, and for one target in the order of registration.  As
the lineage lists no class twice, each adapter is found once.
-/

namespace HostBridge

variable {σ : Type}

namespace Catalogue

/-! ## The order of adapters -/

/-- An adapter at a position comes before another one: its target is met earlier in the
lineage, or is the same and the position is earlier. -/
def Precedes (cls : Host.Class) (x y : Adapter σ × Nat) : Prop :=
  cls.lineage.idxOf x.1.target.id < cls.lineage.idxOf y.1.target.id ∨
    x.1.target.id = y.1.target.id ∧ x.2 < y.2

/-- The adapters for a class with their positions, as their targets are met. -/
def found (adapters : List (Adapter σ)) (cls : Host.Class) : List (Adapter σ × Nat) :=
  cls.lineage.flatMap (numbered adapters)

theorem mem_found_iff {adapters : List (Adapter σ)} {cls : Host.Class} {x : Adapter σ × Nat} :
    x ∈ found adapters cls ↔ x ∈ adapters.zipIdx ∧ x.1.serves cls = true := by
  rw [found, List.mem_flatMap, Adapter.serves, Host.Class.isA_iff]
  constructor
  · rintro ⟨id, hid, hx⟩
    obtain ⟨here, rfl⟩ := mem_numbered.mp hx
    exact ⟨here, hid⟩
  · rintro ⟨here, target⟩
    exact ⟨_, target, mem_numbered.mpr ⟨here, rfl⟩⟩

/-- Positions ascend. -/
theorem pairwise_snd_zipIdx {α : Type} (xs : List α) :
    xs.zipIdx.Pairwise fun x y => x.2 < y.2 := by
  rw [← List.pairwise_map (f := Prod.snd), List.zipIdx_map_snd]
  exact List.pairwise_lt_range'

/-- Without repetition, places ascend. -/
theorem pairwise_idxOf {α : Type} [DecidableEq α] {xs : List α} (h : xs.Nodup) :
    xs.Pairwise fun x y => xs.idxOf x < xs.idxOf y := by
  rw [List.pairwise_iff_getElem]
  intro i j hi hj less
  rwa [h.idxOf_getElem, h.idxOf_getElem]

theorem pairwise_found {cls : Host.Class} (h : cls.lineage.Nodup) (adapters : List (Adapter σ)) :
    (found adapters cls).Pairwise (Precedes cls) := by
  rw [found, List.pairwise_flatMap]
  constructor
  · intro id _
    refine ((pairwise_snd_zipIdx adapters).filter _).imp_of_mem fun hx hy less => .inr ⟨?_, less⟩
    exact (mem_numbered.mp hx).2.trans (mem_numbered.mp hy).2.symm
  · refine (pairwise_idxOf h).imp fun less x hx y hy => .inl ?_
    rwa [(mem_numbered.mp hx).2, (mem_numbered.mp hy).2]

theorem Precedes.ne {cls : Host.Class} {x y : Adapter σ × Nat} (h : Precedes cls x y) : x ≠ y := by
  rintro rfl
  rcases h with less | ⟨-, less⟩
  · exact Nat.lt_irrefl _ less
  · exact Nat.lt_irrefl _ less

theorem Numbered.positionsFor {c : Catalogue σ} (h : c.Numbered) (cls : Host.Class) :
    c.positionsFor cls = (found c.adapters cls).map Prod.snd := by
  rw [Catalogue.positionsFor, found, List.map_flatMap]
  exact congrArg (List.flatMap · _) (funext h)

theorem map_fst_found (adapters : List (Adapter σ)) (cls : Host.Class) :
    (found adapters cls).map Prod.fst = serving adapters cls := by
  rw [found, List.map_flatMap, serving]
  exact congrArg (List.flatMap · _) (funext (map_fst_numbered adapters))

/-! ## What look-ups give -/

/-- The look-up for a class is complete, exact and in order. -/
structure Serves (c : Catalogue σ) (cls : Host.Class) : Prop where
  /-- Every position kept is one of an adapter, so none is out of bounds. -/
  valid : ∀ id positions, c.byTarget.find? id = some positions →
    ∀ i ∈ positions, i < c.adapters.length
  /-- The adapters found, with their positions, are those that serve the class.  Each is
  found once, after all that precede it. -/
  exact : ∃ xs : List (Adapter σ × Nat),
    c.positionsFor cls = xs.map Prod.snd ∧ c.adaptersFor cls = xs.map Prod.fst ∧
    (∀ x, x ∈ xs ↔ x ∈ c.adapters.zipIdx ∧ x.1.serves cls = true) ∧
    xs.Nodup ∧ xs.Pairwise (Precedes cls)

theorem Numbered.serves {c : Catalogue σ} (h : c.Numbered) {cls : Host.Class}
    (nodup : cls.lineage.Nodup) : c.Serves cls := by
  constructor
  · intro id positions kept i hi
    have listed : i ∈ c.positionsOf id := by rwa [positionsOf, kept]
    rw [h id] at listed
    obtain ⟨x, hx, rfl⟩ := List.mem_map.mp listed
    exact List.snd_lt_of_mem_zipIdx (mem_numbered.mp hx).1
  · have order := pairwise_found nodup c.adapters
    exact ⟨found c.adapters cls, h.positionsFor cls,
      (h.adaptersFor cls).trans (map_fst_found _ _).symm, fun _ => mem_found_iff,
      order.imp Precedes.ne, order⟩

/-! ## Registrations that may fail -/

/-- What a catalogue may be asked to register: an adapter, or a definition from which the
adapter is built first, under an identity and with the setup of the moment. -/
inductive Request (σ : Type) where
  | adapter (a : Adapter σ)
  | definition (d : Adapter.Definition σ) (id : Nat) (setup : Setup)

/-- The adapter to register, unless it cannot be built. -/
def Request.adapter? : Request σ → Option (Adapter σ)
  | .adapter a => some a
  | .definition d id setup => ((d.build id).run setup).1.toOption

/-- The catalogue after a request. -/
def request (c : Catalogue σ) (r : Request σ) : Catalogue σ :=
  match r.adapter? with
  | some a => c.register a
  | none => c

theorem Numbered.request {c : Catalogue σ} (h : c.Numbered) (r : Request σ) :
    (c.request r).Numbered := by
  unfold Catalogue.request
  split
  · exact h.register _
  · exact h

theorem adapters_request (c : Catalogue σ) (r : Request σ) :
    (c.request r).adapters = c.adapters ++ r.adapter?.toList := by
  unfold request
  cases r.adapter? with
  | some a => rfl
  | none => exact (List.append_nil _).symm

theorem Numbered.requests {c : Catalogue σ} (h : c.Numbered) (rs : List (Request σ)) :
    (rs.foldl Catalogue.request c).Numbered := by
  induction rs generalizing c with
  | nil => exact h
  | cons r rs ih => exact ih (h.request r)

theorem adapters_requests (c : Catalogue σ) (rs : List (Request σ)) :
    (rs.foldl request c).adapters = c.adapters ++ rs.filterMap Request.adapter? := by
  induction rs generalizing c with
  | nil => exact (List.append_nil _).symm
  | cons r rs ih =>
      rw [List.foldl_cons, ih, adapters_request, List.filterMap_cons, List.append_assoc]
      cases r.adapter? <;> rfl

end Catalogue

namespace Bridge

open Catalogue (Request Numbered)

/-- After any requests, of which some may fail, the adapters found for a class are exactly
those registered that serve it.  Each is found once.  They come in the order of their
targets in the lineage of the class, and those for one target in the order of registration.
The same holds after any run of a host. -/
theorem lookup_exact {cls : Host.Class} (assembled : cls.Assembled)
    (proper : cls.id ∉ cls.ancestors) :
    (∀ requests : List (Request σ),
      let c := requests.foldl Catalogue.request .empty
      c.adapters = requests.filterMap Request.adapter? ∧ c.Serves cls) ∧
    ∀ (setup : Setup) (host : σ) (ops : List (Operation σ)),
      let w := (Session.start setup host).run ops
      w.bridge.catalogue.adapters = registered w.history ∧ w.bridge.catalogue.Serves cls := by
  have nodup : cls.lineage.Nodup := List.nodup_cons.mpr ⟨proper, assembled.nodup_ancestors⟩
  constructor
  · intro requests c
    refine ⟨Catalogue.adapters_requests _ _, Numbered.serves ?_ nodup⟩
    exact Catalogue.numbered_empty.requests requests
  · intro setup host ops w
    have faithful : Faithful setup w.history w.bridge := (faithful_new setup).run ops
    exact ⟨faithful.adapters, faithful.numbered.serves nodup⟩

/-- Adapters for pianos and other instruments, and one that cannot be built. -/
def instrumentRequests : List (Request Unit) :=
  [.definition { name := "Tuner", target := instrument, kind := .composed } 0 .initial,
    .definition bells 1 .initial,
    .definition { name := "Keys", target := keyboard, kind := .composed } 2 .initial,
    .definition { name := "Reeds", target := wind, kind := .composed } 3 .initial,
    .definition { name := "Pedals", target := keyboard, kind := .composed } 4 .initial]

/-- For a piano the adapters for keyboards are found first, in the order of registration. -/
theorem lookup_exact_piano :
    let c := instrumentRequests.foldl Catalogue.request .empty
    piano.Assembled ∧ piano.id ∉ piano.ancestors ∧
    c.adapters.map Adapter.name = ["Tuner", "Keys", "Reeds", "Pedals"] ∧
    (c.adaptersFor piano).map Adapter.name = ["Keys", "Pedals", "Tuner"] ∧ c.Serves piano := by
  have root (name : String) : (Host.Class.root name).Assembled := .root name
  have keys : keyboard.Assembled := .derive (root _) (List.forall_mem_singleton.mpr (root _))
  have assembled : piano.Assembled := by
    refine .derive (root _) (List.forall_mem_cons.mpr ⟨keys, ?_⟩)
    exact List.forall_mem_cons.mpr ⟨root _, List.forall_mem_singleton.mpr (root _)⟩
  have proper : piano.id ∉ piano.ancestors := by decide +kernel
  have exact := (lookup_exact (σ := Unit) assembled proper).1 instrumentRequests
  exact ⟨assembled, proper, by decide +kernel, by decide +kernel, exact.2⟩

end Bridge

end HostBridge

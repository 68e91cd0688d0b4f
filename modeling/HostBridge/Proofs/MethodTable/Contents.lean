import HostBridge.Proofs.MethodTable.Listing

/-!
# The entries of a built table

`contents` says what a table is made from, or why it is refused, as a function of the
setup and the adapters.  `fst_run_build` says that `build` answers with the table made
from it.  The setup matters only through what is enabled and what the host supplies
(`contents_congr`).

If the describing methods fit the host, their adapter is one more adapter at the end.
`contents_of_fits` says that what is added are then the exposures of all `contributors`,
in order.
-/

namespace HostBridge.MethodTable

variable {σ : Type}

open Exposure (exposed firstOfEach)

/-- The builder with the describing methods added, if the setup asks for these. -/
def withListing (s : Setup) (id : Nat) (target : Host.Class) (architecture : String)
    (sources : List String) (b : Builder σ) : Except RegistrationError (Builder σ) :=
  if s.lists then
    match Listing.lack s with
    | some fault => .error (Listing.refusal fault)
    | none => b.addAll (exposed architecture s.gating [Listing.adapter id target b.entries sources])
  else .ok b

/-- What the table of a class on an architecture is made from, or why there is none. -/
def contents (s : Setup) (id : Nat) (target : Host.Class) (architecture : String)
    (adapters : List (Adapter σ)) : Except RegistrationError (Builder σ) :=
  (Builder.empty.addAll (exposed architecture s.gating adapters)).bind
    (withListing s id target architecture (sourcesOf adapters))

theorem withListing_congr {s s' : Setup} (h : s.Agrees s') (id : Nat) (target : Host.Class)
    (architecture : String) (sources : List String) (b : Builder σ) :
    withListing s' id target architecture sources b =
      withListing s id target architecture sources b := by
  rw [withListing, withListing, h.lists, Listing.lack_congr h, Exposure.exposed_congr h.enabled]

/-- The contents depend on decisions of the setup only. -/
theorem contents_congr {s s' : Setup} (h : s.Agrees s') (id : Nat) (target : Host.Class)
    (architecture : String) (adapters : List (Adapter σ)) :
    contents s' id target architecture adapters = contents s id target architecture adapters := by
  rw [contents, contents, Exposure.exposed_congr h.enabled]
  congr 1
  funext b
  exact withListing_congr h ..

/-! ## What building answers -/

theorem fst_run_addListing (id : Nat) (target : Host.Class) (architecture : String)
    (sources : List String) (b : Builder σ) (s : Setup) :
    ((addListing id target architecture sources b).run s).1 =
      withListing s id target architecture sources b := by
  rw [addListing, fst_run_bind, run_get, withListing]
  show ((if s.lists = true then _ else pure b :
    ExceptT RegistrationError (StateM Setup) _).run s).1 = _
  cases s.lists with
  | false => rfl
  | true =>
      have built := (Listing.definition target b.entries sources).moves_build id s
      rw [if_pos rfl, if_pos rfl, fst_run_bind, Listing.fst_run_build]
      cases Listing.lack s with
      | some fault => rfl
      | none =>
          show ((Builder.addAdapter _ _ _).run _).1 = _
          rw [Builder.fst_run_addAdapter, Exposure.exposed_congr built.enabled]

/-- Building answers with the table made from the contents. -/
theorem fst_run_build (id : Nat) (target : Host.Class) (architecture : String)
    (adapters : List (Adapter σ)) (s : Setup) :
    ((build id target architecture adapters).run s).1 =
      (contents s id target architecture adapters).map fun b =>
        b.table id target architecture (sourcesOf adapters) := by
  have own := moves_foldlM (Builder.moves_addAdapter architecture) adapters .empty s
  rw [build, fst_run_bind, Builder.fst_run_addAdapters, contents]
  cases Builder.empty.addAll (exposed architecture s.gating adapters) with
  | error e => rfl
  | ok b =>
      show ((_ >>= _ : ExceptT _ (StateM Setup) _).run _).1 = Except.map _ (withListing ..)
      rw [fst_run_bind, fst_run_addListing, withListing_congr own]
      cases withListing s id target architecture (sourcesOf adapters) b <;> rfl

/-- Building answers the same from setups that agree. -/
theorem fst_run_build_congr {s s' : Setup} (h : s.Agrees s') (id : Nat) (target : Host.Class)
    (architecture : String) (adapters : List (Adapter σ)) :
    ((build id target architecture adapters).run s').1 =
      ((build id target architecture adapters).run s).1 := by
  rw [fst_run_build, fst_run_build, contents_congr h]

/-- If a table was built, nothing was lacking that it asked for. -/
theorem lack_of_build {s : Setup} {id : Nat} {target : Host.Class} {architecture : String}
    {adapters : List (Adapter σ)} {t : MethodTable σ}
    (h : ((build id target architecture adapters).run s).1 = .ok t) (lists : s.lists = true) :
    Listing.lack s = none := by
  rw [fst_run_build, contents, map_eq_ok] at h
  obtain ⟨all, made, -⟩ := h
  obtain ⟨own, -, added⟩ := bind_eq_ok.mp made
  rw [withListing, if_pos lists] at added
  cases hl : Listing.lack s with
  | none => rfl
  | some fault =>
      rw [hl] at added
      cases added

/-! ## All contributors -/

/-- The adapters a table is put together from: those given, and the one of the
describing methods if the setup asks for it. -/
def contributors (s : Setup) (id : Nat) (target : Host.Class) (architecture : String)
    (adapters : List (Adapter σ)) : List (Adapter σ) :=
  if s.lists then
    adapters ++ [Listing.adapter id target
      ((firstOfEach (exposed architecture s.gating adapters)).map Exposure.entry)
      (sourcesOf adapters)]
  else adapters

/-- A method a table shows is a visible method of an adapter or describes the table. -/
theorem visible_of_shown {s : Setup} {id : Nat} {target : Host.Class} {architecture : String}
    {adapters : List (Adapter σ)} {m : Method σ}
    (h : m ∈ visibleMethods architecture s.gating (contributors s id target architecture adapters)) :
    (∃ a ∈ adapters, m ∈ a.methods ∧ m.visible architecture s.gating = true) ∨
      ∃ entries, m ∈ Listing.methods id entries (sourcesOf adapters) := by
  obtain ⟨a, ha, hm⟩ := List.mem_flatMap.mp h
  obtain ⟨hm, hv⟩ := List.mem_filter.mp hm
  rw [contributors] at ha
  split at ha
  · rcases List.mem_append.mp ha with ha | ha
    · exact .inl ⟨a, ha, hm, hv⟩
    · cases List.mem_singleton.mp ha
      exact .inr ⟨_, hm⟩
  · exact .inl ⟨a, ha, hm, hv⟩

/-- Every visible method of an adapter is shown. -/
theorem shown_of_visible {s : Setup} {id : Nat} {target : Host.Class} {architecture : String}
    {adapters : List (Adapter σ)} {a : Adapter σ} (ha : a ∈ adapters) {m : Method σ}
    (hm : m ∈ a.methods) (hv : m.visible architecture s.gating = true) :
    m ∈ visibleMethods architecture s.gating
      (contributors s id target architecture adapters) := by
  refine List.mem_flatMap.mpr ⟨a, ?_, List.mem_filter.mpr ⟨hm, hv⟩⟩
  rw [contributors]
  split
  · exact List.mem_append_left _ ha
  · exact ha

theorem Builder.addAll_append (b : Builder σ) (xs ys : List (Exposure σ)) :
    b.addAll (xs ++ ys) = (b.addAll xs).bind fun b' => b'.addAll ys :=
  List.foldlM_append

/-- If the describing methods fit the host, the contents are the exposures of all
contributors. -/
theorem contents_of_fits {s : Setup} (h : s.lists = true → Listing.lack s = none) (id : Nat)
    (target : Host.Class) (architecture : String) (adapters : List (Adapter σ)) :
    contents s id target architecture adapters =
      Builder.empty.addAll (exposed architecture s.gating
        (contributors s id target architecture adapters)) := by
  rw [contents, contributors]
  cases hl : s.lists with
  | false =>
      rw [if_neg Bool.false_ne_true]
      cases Builder.empty.addAll (exposed architecture s.gating adapters) with
      | error e => rfl
      | ok own => exact if_neg (by rw [hl]; exact Bool.false_ne_true)
  | true =>
      rw [if_pos rfl, Exposure.exposed_append, Builder.addAll_append]
      cases added : Builder.empty.addAll (exposed architecture s.gating adapters) with
      | error e => rfl
      | ok own =>
          show withListing .. = Builder.addAll ..
          rw [withListing, if_pos hl, h hl, (Builder.aligned_of_addAll added).entries_eq]

end HostBridge.MethodTable

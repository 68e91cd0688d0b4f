import Mathlib.Data.Finset.Card
import HostBridge.Proofs.Bridge.Run
import HostBridge.Proofs.MethodTable.Relabelling

/-!
# The tables kept

A bridge keeps the tables it has built until something changes that they were built
from.  Scripts and hosts cannot tell: a look-up answers as if the table were built on
the spot from the adapters registered so far, under the gating of the moment.

`Faithful` is the invariant.  It relates a bridge to the events that led to it.  Every
kept table would be built from the present adapters and gating, for some class that
was looked up and has the identity the table is kept under.  The keys are those of the
look-ups that succeeded since tables were last made invalid.

A table is kept under the identity of a class, while the adapters come from all its
ancestors.  So two descriptions of a class must list the same ancestors, or the one
would be answered with the table of the other.
-/

namespace HostBridge.Bridge

variable {σ : Type}

open MethodTable (SameOutcome Unused)

/-- Descriptions of one class list the same ancestors. -/
def Consistent (classes : List Host.Class) : Prop :=
  ∀ c ∈ classes, ∀ c' ∈ classes, c.id = c'.id → c.ancestors = c'.ancestors

instance (classes : List Host.Class) : Decidable (Consistent classes) :=
  inferInstanceAs (Decidable
    (∀ c ∈ classes, ∀ c' ∈ classes, c.id = c'.id → c.ancestors = c'.ancestors))

/-! ## The invariant -/

/-- A table kept under a key would be built from the present adapters and gating, under
an identity that no adapter has. -/
def Current (setup : Setup) (history : List (Event σ)) (key : TypeId × String)
    (t : MethodTable σ) : Prop :=
  ∃ cls ∈ lookedUp history, cls.id = key.1 ∧ ∃ id, Unused id (registered history) ∧
    ((MethodTable.build id cls key.2 (serving (registered history) cls)).run
      (setupAfter setup history)).1 = .ok t

/-- The bridge holds what events say, and keeps tables that are current. -/
structure Faithful (setup : Setup) (history : List (Event σ)) (b : Bridge σ) : Prop where
  /-- The setup is the one of the start but for the groups that were toggled. -/
  agrees : (setupAfter setup history).Agrees b.setup
  /-- The adapters are those that were registered. -/
  adapters : b.catalogue.adapters = registered history
  /-- The index of the catalogue is right. -/
  numbered : b.catalogue.Numbered
  /-- Identities of adapters are not handed out again. -/
  spent : ∀ a ∈ b.catalogue.adapters, ∀ m ∈ a.methods, m.id.adapter < b.supply
  /-- A table is kept for every look-up that succeeded since tables became invalid. -/
  keys : ∀ k, k ∈ b.catalogue.tables.keys ↔ k ∈ foundSince history
  /-- Every table kept is current. -/
  current : ∀ k t, b.catalogue.tables.find? k = some t → Current setup history k t

theorem faithful_new (setup : Setup) : Faithful setup [] (new setup : Bridge σ) := by
  refine ⟨.refl setup, rfl, Catalogue.numbered_empty, List.forall_mem_nil _, fun _ => Iff.rfl, ?_⟩
  intro k t ht
  cases ht

/-- The next identity is not that of an adapter. -/
theorem Faithful.unused {setup : Setup} {history : List (Event σ)} {b : Bridge σ}
    (h : Faithful setup history b) : Unused b.supply (registered history) := by
  intro a ha m hm
  rw [← h.adapters] at ha
  have := h.spent a ha m hm
  omega

/-! ## Events that drop tables -/

/-- A bridge without tables needs only the right setup and adapters. -/
theorem Faithful.of_dropped {setup : Setup} {history : List (Event σ)} {e : Event σ} {b : Bridge σ}
    (hd : e.drops = true) (ht : b.catalogue.tables = .empty)
    (hs : (setupAfter setup (history ++ [e])).Agrees b.setup)
    (ha : b.catalogue.adapters = registered (history ++ [e])) (hi : b.catalogue.Numbered)
    (hm : ∀ a ∈ b.catalogue.adapters, ∀ m ∈ a.methods, m.id.adapter < b.supply) :
    Faithful setup (history ++ [e]) b := by
  refine ⟨hs, ha, hi, hm, ?_, ?_⟩
  · intro k
    rw [ht, foundSince_concat, if_pos hd]
    exact Iff.rfl
  · intro k t hk
    rw [ht, Dict.find?_empty] at hk
    cases hk

theorem Faithful.registered {setup : Setup} {history : List (Event σ)} {b : Bridge σ}
    (h : Faithful setup history b) {a : Adapter σ} {s : Setup}
    (hm : ∀ m ∈ a.methods, m.id.adapter = b.supply) (hs : b.setup.Agrees s) :
    Faithful setup (history ++ [.registered a])
      ⟨s, b.catalogue.register a, b.supply + 1⟩ := by
  refine .of_dropped rfl rfl ?_ ?_ (h.numbered.register a) ?_
  · rw [setupAfter_concat]
    exact h.agrees.trans hs
  · rw [registered_concat, ← h.adapters]
    rfl
  · intro a' ha' m hm'
    cases List.mem_append.mp ha' with
    | inl old => exact Nat.lt_succ_of_lt (h.spent a' old m hm')
    | inr new =>
        cases List.mem_singleton.mp new
        rw [hm m hm']
        exact Nat.lt_succ_self b.supply

/-- An event that changes gating at most, and drops the tables. -/
theorem Faithful.toggled {setup : Setup} {history : List (Event σ)} {b : Bridge σ}
    (h : Faithful setup history b) {e : Event σ} (hd : e.drops = true) (ha : e.adapter? = none)
    {s : Setup} (hs : (setupAfter setup (history ++ [e])).Agrees s) :
    Faithful setup (history ++ [e]) ⟨s, b.catalogue.forgetTables, b.supply⟩ := by
  refine .of_dropped hd rfl hs ?_ h.numbered h.spent
  rw [registered_concat_of_none history ha]
  exact h.adapters

theorem agrees_disable {s s' : Setup} (h : s.Agrees s') (group architecture : String) :
    Setup.Agrees { s with gating := s.gating.disable group architecture }
      (Setup.disableGroup group architecture s').2 := by
  refine ⟨?_, h.converters, h.envTypes, h.lists⟩
  intro g a
  show (s'.gating.disable group architecture).isEnabled g a = _
  rw [Gating.isEnabled_disable, Gating.isEnabled_disable, h.enabled]

theorem agrees_enable {s s' : Setup} (h : s.Agrees s') (group architecture : String) :
    Setup.Agrees { s with gating := s.gating.enable group architecture }
      (Setup.enableGroup group architecture s').2 := by
  refine ⟨?_, h.converters, h.envTypes, h.lists⟩
  intro g a
  show (s'.gating.enable group architecture).isEnabled g a = _
  rw [Gating.isEnabled_enable, Gating.isEnabled_enable, h.enabled]

/-! ## Events that keep tables -/

/-- Traces do not matter. -/
theorem Faithful.trace {setup : Setup} {history : List (Event σ)} {b b' : Bridge σ}
    (h : Faithful setup history b) (ht : b.Traced b') : Faithful setup history b' := by
  obtain ⟨agrees, catalogue, supply⟩ := ht
  refine ⟨h.agrees.trans agrees, ?_, ?_, ?_, ?_, ?_⟩
  · rw [catalogue]
    exact h.adapters
  · rw [catalogue]
    exact h.numbered
  · rw [catalogue]
    intro a ha m hm
    exact Nat.lt_of_lt_of_le (h.spent a ha m hm) supply
  · rw [catalogue]
    exact h.keys
  · rw [catalogue]
    exact h.current

/-- A table that is current stays so after events that neither register nor toggle. -/
theorem Current.concat {setup : Setup} {history : List (Event σ)} {key : TypeId × String}
    {t : MethodTable σ} (h : Current setup history key t) {e : Event σ} (ha : e.adapter? = none)
    (hg : ∀ g, e.toggle g = g) : Current setup (history ++ [e]) key t := by
  obtain ⟨cls, hcls, hid, id, hu, ht⟩ := h
  refine ⟨cls, ?_, hid, id, ?_⟩
  · rw [lookedUp_concat]
    exact List.mem_append_left _ hcls
  · rw [registered_concat_of_none history ha, setupAfter_concat_of_toggle setup history hg]
    exact ⟨hu, ht⟩

/-- An event that neither drops nor keeps a table. -/
theorem Faithful.quiet {setup : Setup} {history : List (Event σ)} {b : Bridge σ}
    (h : Faithful setup history b) {e : Event σ} (ha : e.adapter? = none)
    (hg : ∀ g, e.toggle g = g) (hd : e.drops = false)
    (hk : ∀ k ∈ e.key?, k ∈ b.catalogue.tables.keys) : Faithful setup (history ++ [e]) b := by
  refine ⟨?_, ?_, h.numbered, h.spent, ?_, ?_⟩
  · rw [setupAfter_concat_of_toggle setup history hg]
    exact h.agrees
  · rw [registered_concat_of_none history ha]
    exact h.adapters
  · intro k
    rw [foundSince_concat, hd, if_neg Bool.false_ne_true, List.mem_append, Option.mem_toList,
      ← h.keys k]
    constructor
    · exact Or.inr
    · rintro (new | old)
      · exact hk k new
      · exact old
  · intro k t ht
    exact (h.current k t ht).concat ha hg

/-! ## Look-ups -/

/-- What a bridge would build is what events say should be built. -/
theorem Faithful.fst_run_build {setup : Setup} {history : List (Event σ)} {b : Bridge σ}
    (h : Faithful setup history b) (id : Nat) (cls : Host.Class) (architecture : String) :
    ((MethodTable.build id cls architecture (b.catalogue.adaptersFor cls)).run b.setup).1 =
      ((MethodTable.build id cls architecture (serving (Bridge.registered history) cls)).run
        (setupAfter setup history)).1 := by
  rw [h.numbered.adaptersFor, h.adapters, MethodTable.fst_run_build_congr h.agrees]

/-- A table that was built is kept, and is current. -/
theorem Faithful.keep {setup : Setup} {history : List (Event σ)} {b : Bridge σ}
    (h : Faithful setup history b) {cls : Host.Class} {architecture : String} {t : MethodTable σ}
    (ht : ((MethodTable.build b.supply cls architecture (b.catalogue.adaptersFor cls)).run
      b.setup).1 = .ok t) :
    Faithful setup (history ++ [.lookedUp cls architecture true])
      { b with catalogue := b.catalogue.keep cls architecture t } := by
  have same := registered_concat_of_none history (e := .lookedUp cls architecture true) rfl
  have setups := setupAfter_concat_of_toggle setup history
    (e := .lookedUp cls architecture true) fun _ => rfl
  refine ⟨?_, ?_, h.numbered, h.spent, ?_, ?_⟩
  · rw [setups]
    exact h.agrees
  · rw [same]
    exact h.adapters
  · intro k
    show k ∈ (b.catalogue.tables.insert _ _).keys ↔ _
    rw [foundSince_concat, Dict.mem_keys_insert, h.keys]
    exact List.mem_cons.symm
  · intro k t' hk
    replace hk : (b.catalogue.tables.insert (cls.id, architecture) t).find? k = some t' := hk
    rw [Dict.find?_insert] at hk
    by_cases hkey : (cls.id, architecture) = k
    · rw [if_pos hkey] at hk
      cases hk
      cases hkey
      refine ⟨cls, ?_, rfl, b.supply, ?_⟩
      · rw [lookedUp_concat]
        exact List.mem_append_right _ (List.mem_singleton_self cls)
      · rw [same, setups]
        exact ⟨h.unused, (h.fst_run_build ..).symm.trans ht⟩
    · rw [if_neg hkey] at hk
      exact (h.current k t' hk).concat rfl fun _ => rfl

/-- A look-up keeps the table it answers with. -/
theorem Faithful.lookup {setup : Setup} {history : List (Event σ)} {b b' : Bridge σ}
    (h : Faithful setup history b) {cls : Host.Class} {architecture : String}
    {r : Except BridgeError (MethodTable σ)} (hl : Lookup b cls architecture r b') :
    Faithful setup (history ++ [.lookedUp cls architecture r.isOk]) b' := by
  cases hl with
  | kept hk =>
      refine h.quiet rfl (fun _ => rfl) rfl ?_
      intro k hkey
      cases hkey
      rw [← Dict.contains_iff, Dict.contains]
      exact Option.isSome_of_eq_some hk
  | built hn hb hs => exact (h.keep hb).trace ⟨hs, rfl, Nat.le_succ _⟩
  | refused hn hb hs =>
      refine (h.quiet rfl (fun _ => rfl) rfl ?_).trace ⟨hs, rfl, Nat.le_succ _⟩
      intro k hkey
      cases hkey

/-! ## Runs -/

/-- Every operation keeps the bridge faithful to the events. -/
theorem Faithful.change {setup : Setup} {history : List (Event σ)} {b b' : Bridge σ}
    (h : Faithful setup history b) {e : Event σ} (hc : Change b e b') :
    Faithful setup (history ++ [e]) b' := by
  cases hc with
  | registered hm hs => exact h.registered hm hs
  | disabled group architecture =>
      refine h.toggled rfl rfl ?_
      rw [setupAfter_concat]
      exact agrees_disable h.agrees group architecture
  | enabled group architecture =>
      refine h.toggled rfl rfl ?_
      rw [setupAfter_concat]
      exact agrees_enable h.agrees group architecture
  | dropped =>
      refine h.toggled rfl rfl ?_
      rw [setupAfter_concat_of_toggle setup history fun _ => rfl]
      exact h.agrees
  | lookedUp hl ht => exact (h.lookup hl).trace ht
  | refused ht =>
      refine (h.quiet rfl (fun _ => rfl) rfl ?_).trace ht
      intro k hkey
      cases hkey

theorem Faithful.step {setup : Setup} {w : Session σ} (h : Faithful setup w.history w.bridge)
    (op : Operation σ) : Faithful setup (w.step op).history (w.step op).bridge :=
  h.change (change_perform op w.bridge w.host)

/-- A run keeps the bridge faithful, since every step does. -/
theorem Faithful.run {setup : Setup} (ops : List (Operation σ)) {w : Session σ}
    (h : Faithful setup w.history w.bridge) :
    Faithful setup (w.run ops).history (w.run ops).bridge := by
  induction ops generalizing w with
  | nil => exact h
  | cons op ops ih => exact ih (h.step op)

/-! ## Transparency -/

/-- A look-up answers as if the table were built on the spot. -/
theorem Faithful.sameOutcome {setup : Setup} {history : List (Event σ)} {b b' : Bridge σ}
    (h : Faithful setup history b) {cls : Host.Class} {architecture : String}
    (hc : Consistent (cls :: Bridge.lookedUp history)) {r : Except BridgeError (MethodTable σ)}
    (hl : Lookup b cls architecture r b') :
    SameOutcome (Bridge.registered history)
      (((MethodTable.build b.supply cls architecture
        (serving (Bridge.registered history) cls)).run
          (setupAfter setup history)).1.mapError .registration) r := by
  cases hl with
  | kept hk =>
      obtain ⟨cls', hcls, hid, id, hu, ht⟩ := h.current _ _ hk
      have anc := hc cls' (List.mem_cons_of_mem _ hcls) cls (List.mem_cons_self ..) hid
      rw [serving_congr _ hid anc] at ht
      have swapped := MethodTable.build_swap (setupAfter setup history) cls cls' architecture
        (fun a (ha : a ∈ serving _ cls) => mem_of_mem_serving ha) h.unused hu
      rw [ht] at swapped
      generalize ((MethodTable.build b.supply cls architecture _).run _).1 = answer at swapped ⊢
      cases swapped with
      | alike alike => exact .alike alike
  | built hn hb hs =>
      rw [← h.fst_run_build, hb]
      exact .refl ..
  | refused hn hb hs =>
      rw [← h.fst_run_build, hb]
      exact .refl ..

/-- The number of tables kept. -/
theorem Faithful.keptCount_eq {setup : Setup} {history : List (Event σ)} {b : Bridge σ}
    (h : Faithful setup history b) :
    b.catalogue.keptCount = (foundSince history).toFinset.card := by
  have same : b.catalogue.tables.keys.toFinset = (foundSince history).toFinset := by
    ext k
    rw [List.mem_toFinset, List.mem_toFinset, h.keys k]
  rw [← same, List.toFinset_card_of_nodup b.catalogue.tables.nodup_keys, Dict.length_keys]
  rfl

/-- To keep tables cannot be noticed.  At every moment of a run, the table of an object is
refused or has the contents as if it were built on the spot, from the adapters registered
so far and under the gating of the moment.  The tables kept are as many as look-ups
succeeded since tables were last made invalid, each class and architecture counted once. -/
theorem run_transparent (setup : Setup) (host : σ) (ops : List (Operation σ)) :
    let w := (Session.start setup host).run ops
    let adapters := Bridge.registered w.history
    (∀ o architecture, (setup.converter? architecture).isSome →
      Consistent (o.cls :: Bridge.lookedUp w.history) →
        SameOutcome adapters
          (((MethodTable.build w.bridge.supply o.cls architecture (serving adapters o.cls)).run
            (setupAfter setup w.history)).1.mapError .registration)
          ((methodTable o architecture).run w.bridge).1) ∧
    w.bridge.catalogue.keptCount = (foundSince w.history).toFinset.card := by
  intro w adapters
  have faithful : Faithful setup w.history w.bridge := (faithful_new setup).run ops
  refine ⟨fun o architecture known consistent => ?_, faithful.keptCount_eq⟩
  have same : w.bridge.setup.converter? architecture = setup.converter? architecture :=
    congrArg (Dict.find? · architecture) faithful.agrees.converters
  obtain ⟨converter, hc⟩ := Option.isSome_iff_exists.mp known
  rw [run_methodTable, same, hc]
  exact faithful.sameOutcome consistent (lookup_classTable w.bridge o.cls architecture)

/-- An object whose class has an adapter. -/
def bell : Host.Object := ⟨.root "Bell", .store, 1⟩

/-- Register an adapter, look the table up, hide the only method and look again. -/
def bellOperations : List (Operation Unit) := [
  .register {
    name := "bell"
    target := bell.cls
    kind := .composed
    methods := [{
      signature := { name := "ring" }
      function := .const .null
      group := some "loud" }] },
  .methodTable bell "computercraft",
  .disableGroup "loud" "computercraft",
  .methodTable bell "computercraft"]

/-- The second table is kept, and there is no third. -/
theorem run_transparent_bell :
    let w := (Session.start Setup.initial ()).run bellOperations
    let adapters := Bridge.registered w.history
    (Setup.initial.converter? "computercraft").isSome ∧
    Consistent (bell.cls :: Bridge.lookedUp w.history) ∧
    SameOutcome adapters
      (((MethodTable.build w.bridge.supply bell.cls "computercraft"
        (serving adapters bell.cls)).run
          (setupAfter Setup.initial w.history)).1.mapError .registration)
      ((methodTable bell "computercraft").run w.bridge).1 ∧
    w.bridge.catalogue.keptCount = 1 := by
  have transparent := run_transparent Setup.initial () bellOperations
  have known : (Setup.initial.converter? "computercraft").isSome := by decide +kernel
  have consistent : Consistent (bell.cls :: Bridge.lookedUp
      ((Session.start Setup.initial ()).run bellOperations).history) := by decide +kernel
  exact ⟨known, consistent, transparent.1 bell "computercraft" known consistent,
    transparent.2.trans (by decide +kernel)⟩

end HostBridge.Bridge

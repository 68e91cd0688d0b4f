import HostBridge.Proofs.Adapter.Verification
import HostBridge.Proofs.Bridge.Invocation

/-!
# Methods of ancestors

An adapter is checked against its own target when it is built, and later its methods are
offered for objects of every class that has the target as an ancestor.  They can be
called on these objects too.  A parameter that accepts the target is of a class the
target has in its lineage, and the lineage of an object holds that of the target.

The second step needs a class that lists the ancestors of its ancestors
(`ClosedOver`), and a table that was built for this list of ancestors.  A kept table is
found by the identity of the class, so it may have been built for another list.
-/

namespace HostBridge

variable {σ : Type}

/-- An object may stand where objects of classes in its lineage may. -/
theorem Host.Ty.accepts_object_of_subset {ty : Ty} {c d : Class}
    (h : ty.accepts (.object d) = true) (hs : d.lineage ⊆ c.lineage) :
    ty.accepts (.object c) = true := by
  cases ty with
  | any => rfl
  | object e =>
      rw [accepts, Class.isA_iff] at h ⊢
      exact hs h
  | _ => simp [accepts, equal] at h

theorem Declaration.CallableOn.of_subset {d : Declaration} {c target : Host.Class}
    {kind : Adapter.Kind} (h : d.CallableOn target kind) (hs : target.lineage ⊆ c.lineage) :
    d.CallableOn c kind := by
  cases kind with
  | composed => exact h
  | peripheral => exact h.imp fun ty => And.imp_right (Host.Ty.accepts_object_of_subset · hs)
  | property => exact h.imp fun ty => And.imp_right (Host.Ty.accepts_object_of_subset · hs)

/-- A class that has the target of an adapter in its lineage has all ancestors of the
target there. -/
def Host.Class.ClosedOver (c : Class) (adapters : List (Adapter σ)) : Prop :=
  ∀ a ∈ adapters, a.target.id ∈ c.lineage → ∀ x ∈ a.target.ancestors, x ∈ c.lineage

instance (c : Host.Class) (adapters : List (Adapter σ)) : Decidable (c.ClosedOver adapters) :=
  inferInstanceAs (Decidable
    (∀ a ∈ adapters, a.target.id ∈ c.lineage → ∀ x ∈ a.target.ancestors, x ∈ c.lineage))

theorem Host.Class.ClosedOver.lineage_subset {c : Class} {adapters : List (Adapter σ)}
    (h : c.ClosedOver adapters) {a : Adapter σ} (ha : a ∈ adapters) (hid : a.target.id ∈ c.lineage) :
    a.target.lineage ⊆ c.lineage :=
  List.cons_subset.mpr ⟨hid, h a ha hid⟩

theorem target_of_mem_serving {adapters : List (Adapter σ)} {c : Host.Class} {a : Adapter σ}
    (h : a ∈ serving adapters c) : a.target.id ∈ c.lineage := by
  obtain ⟨id, hid, ha⟩ := List.mem_flatMap.mp h
  rw [of_decide_eq_true (List.mem_filter.mp ha).2]
  exact hid

namespace Bridge

/-- Methods of a registered adapter can be called on objects of its target. -/
theorem callableOn_of_registered {setup : Setup} {host : σ} {ops : List (Operation σ)}
    {a : Adapter σ} (h : a ∈ registered ((Session.start setup host).run ops).history) :
    ∀ m ∈ a.methods, m.composed = decide (a.kind = .composed) ∧
      m.declaration.CallableOn a.target a.kind := by
  intro m hm
  rcases exists_definition_of_registered h with none | ⟨d, id, s, -, built⟩
  · cases none
  · obtain ⟨composed, verified⟩ := Adapter.Definition.verified_of_mem_build built m hm
    exact ⟨composed, (Adapter.Kind.verify_eq_ok_iff.mp verified).1⟩

/-- So they can be called on objects of classes that have the lineage of the target. -/
theorem callableOn_of_serving {setup : Setup} {host : σ} {ops : List (Operation σ)}
    {c c' : Host.Class} {a : Adapter σ}
    (closed : c.ClosedOver (registered ((Session.start setup host).run ops).history))
    (hs : c'.lineage ⊆ c.lineage)
    (ha : a ∈ serving (registered ((Session.start setup host).run ops).history) c') :
    ∀ m ∈ a.methods, m.composed = decide (a.kind = .composed) ∧ m.declaration.CallableOn c a.kind := by
  have here := mem_of_mem_serving ha
  have lineage := closed.lineage_subset here (hs (target_of_mem_serving ha))
  intro m hm
  exact (callableOn_of_registered here m hm).imp_right fun callable => callable.of_subset lineage

/-- Every method for objects of a class can be called on them, at every moment of a run, if
the class has all ancestors of the targets in its lineage.  This holds of the adapters for
the class.  It also holds of what a table shows, if no class of the same identity was looked
up with ancestors that this one does not have. -/
theorem dispatch_callable (setup : Setup) (host : σ) (ops : List (Operation σ)) (c : Host.Class) :
    let w := (Session.start setup host).run ops
    c.ClosedOver (Bridge.registered w.history) →
    (∀ a ∈ w.bridge.catalogue.adaptersFor c, ∀ m ∈ a.methods,
      m.declaration.CallableOn c a.kind) ∧
    ((∀ c' ∈ lookedUp w.history, c'.id = c.id → c'.ancestors ⊆ c.ancestors) →
      ∀ o architecture t, o.cls = c → ((methodTable o architecture).run w.bridge).1 = .ok t →
        ∀ name m, t.find? name = some m →
          ∃ kind, m.composed = decide (kind = .composed) ∧ m.declaration.CallableOn c kind) := by
  intro w closed
  have faithful : Faithful setup w.history w.bridge := (faithful_new setup).run ops
  constructor
  · intro a ha m hm
    rw [faithful.numbered.adaptersFor, faithful.adapters] at ha
    exact (callableOn_of_serving closed (List.Subset.refl _) ha m hm).2
  · rintro known o architecture t rfl ht name m hm
    obtain ⟨cls, looked, same, id, -, built⟩ := faithful.exists_class_of_methodTable ht
    -- The table may have been kept for another description of the class.
    have lineage : cls.lineage ⊆ o.cls.lineage := by
      rcases List.mem_cons.mp looked with rfl | looked
      · exact List.Subset.refl _
      · rw [Host.Class.lineage, Host.Class.lineage, same]
        exact List.cons_subset_cons _ (known cls looked same)
    have shown := ((MethodTable.shows_of_build built).sound name m hm).1
    rcases MethodTable.visible_of_shown shown with ⟨a, ha, hm, -⟩ | ⟨entries, describes⟩
    · exact ⟨a.kind, callableOn_of_serving closed lineage ha m hm⟩
    · refine ⟨.composed, ?_⟩
      simp only [MethodTable.Listing.methods, List.mem_cons, List.not_mem_nil, or_false] at describes
      rcases describes with rfl | rfl | rfl <;> exact ⟨rfl, rfl⟩

/-- A definition with one method, which is called on machines. -/
def machine : Adapter.Definition Unit where
  name := "Machine"
  target := .root "Machine"
  kind := .peripheral
  methods := [{
    signature := {
      name := "start"
      params := [{ ty := .object (.root "Machine"), role := .positional }] }
    function := .const .null }]

/-- A class of machines. -/
def pump : Host.Class := (Host.Class.root "Pump").deriveFrom (.root "Machine")

/-- The table of a pump is looked up. -/
def pumpOperations : List (Operation Unit) :=
  [.register machine, .methodTable ⟨pump, .store, 1⟩ "computercraft"]

/-- The method of the machine can be called on another pump. -/
theorem dispatch_callable_pump :
    let w := (Session.start Setup.initial ()).run pumpOperations
    pump.ClosedOver (Bridge.registered w.history) ∧
    (∀ c' ∈ lookedUp w.history, c'.id = pump.id → c'.ancestors ⊆ pump.ancestors) ∧
    (w.bridge.catalogue.adaptersFor pump).map Adapter.name = ["Machine"] ∧
    (∀ a ∈ w.bridge.catalogue.adaptersFor pump, ∀ m ∈ a.methods,
      m.declaration.CallableOn pump a.kind) ∧
    ∃ t m kind, ((methodTable ⟨pump, .store, 2⟩ "computercraft").run w.bridge).1 = .ok t ∧
      t.find? "start" = some m ∧ m.composed = decide (kind = .composed) ∧
      m.declaration.CallableOn pump kind := by
  intro w
  have closed : pump.ClosedOver (Bridge.registered w.history) := by decide +kernel
  have known : ∀ c' ∈ lookedUp w.history, c'.id = pump.id → c'.ancestors ⊆ pump.ancestors := by
    decide +kernel
  have callable := dispatch_callable Setup.initial () pumpOperations pump closed
  refine ⟨closed, known, by decide +kernel, by simpa only [w] using callable.1, ?_⟩
  have found : (((methodTable ⟨pump, .store, 2⟩ "computercraft").run w.bridge).1.toOption.bind
      (MethodTable.find? · "start")).isSome = true := by decide +kernel
  obtain ⟨m, hm⟩ := Option.isSome_iff_exists.mp found
  obtain ⟨t, ht, hm⟩ := Option.bind_eq_some_iff.mp hm
  cases answer : ((methodTable ⟨pump, .store, 2⟩ "computercraft").run w.bridge).1 with
  | error e =>
      rw [answer] at ht
      cases ht
  | ok t' =>
      rw [answer] at ht
      cases ht
      obtain ⟨kind, composed, callable⟩ :=
        callable.2 known ⟨pump, .store, 2⟩ "computercraft" t rfl answer "start" m hm
      exact ⟨t, m, kind, rfl, hm, composed, callable⟩

/-- A table kept for pumps that are machines answers for pumps that are not, since their
classes have the same name. -/
theorem not_tables_callable :
    ¬ ∀ (setup : Setup) (host : Unit) (ops : List (Operation Unit)) (o : Host.Object)
        (architecture : String) (t : MethodTable Unit),
      let w := (Session.start setup host).run ops
      o.cls.ClosedOver (Bridge.registered w.history) →
      ((methodTable o architecture).run w.bridge).1 = .ok t →
      ∀ name m, t.find? name = some m →
        ∀ ty ∈ m.declaration.positional, ty.accepts (.object o.cls) = true := by
  intro callable
  let w := (Session.start Setup.initial ()).run pumpOperations
  let o : Host.Object := ⟨.root "Pump", .store, 2⟩
  have closed : o.cls.ClosedOver (Bridge.registered w.history) := by decide +kernel
  have refused : (((methodTable o "computercraft").run w.bridge).1.toOption.bind
      (MethodTable.find? · "start")).map
        (fun m => m.declaration.positional.all fun ty => ty.accepts (.object o.cls)) =
      some false := by decide +kernel
  obtain ⟨m, hm, no⟩ := Option.map_eq_some_iff.mp refused
  obtain ⟨t, ht, hm⟩ := Option.bind_eq_some_iff.mp hm
  cases answer : ((methodTable o "computercraft").run w.bridge).1 with
  | error e =>
      rw [answer] at ht
      cases ht
  | ok t' =>
      rw [answer] at ht
      cases ht
      have yes := callable .initial () pumpOperations o "computercraft" t closed answer "start" m hm
      rw [List.all_eq_true.mpr yes] at no
      cases no

end Bridge

end HostBridge

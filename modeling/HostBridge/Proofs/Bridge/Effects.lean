import HostBridge.Bridge
import HostBridge.Proofs.Agreement
import HostBridge.Proofs.Catalogue

/-!
# What operations of a bridge change

Most operations of a bridge leave traces only: the setup afterwards agrees with the
one before, and identities were handed out.  `Traced` says that nothing else happened.

A look-up is the one operation that may change the tables kept.  `Lookup` lists its
three outcomes.  The table was kept before, or it was built and is kept now, or it was
refused and nothing but traces is left.
-/

namespace HostBridge.Bridge

variable {σ α β ε : Type}

/-! ## Runs of operations -/

theorem run_fresh_bind (f : Nat → ExceptT ε (StateM (Bridge σ)) β) (b : Bridge σ) :
    (ExceptT.lift fresh >>= f).run b = (f b.supply).run { b with supply := b.supply + 1 } := rfl

theorem run_building (x : ExceptT RegistrationError (StateM Setup) α) (b : Bridge σ) :
    (building x).run b =
      ((x.run b.setup).1.mapError .registration, { b with setup := (x.run b.setup).2 }) := rfl

theorem run_register (d : Adapter.Definition σ) (b : Bridge σ) :
    (register d).run b =
      match (d.build b.supply).run b.setup with
      | (.ok a, s) =>
          (.ok a, ⟨(Setup.write .debug ("registered " ++ a.describe) s).2, b.catalogue.register a,
            b.supply + 1⟩)
      | (.error e, s) => (.error (.registration e), ⟨s, b.catalogue, b.supply + 1⟩) := by
  rw [register, run_fresh_bind, run_bind, run_building]
  rcases (d.build b.supply).run b.setup with ⟨_ | _, s⟩ <;> rfl

theorem run_revalidate (setup : Setup) (b : Bridge σ) :
    (revalidate setup).run b =
      match b.catalogue.revalidate setup with
      | .ok () => (.ok (), { b with catalogue := b.catalogue.forgetTables })
      | .error e => (.error e, b) := by
  rw [revalidate, run_bind, run_get]
  dsimp only
  rw [run_bind, run_ofExcept]
  cases b.catalogue.revalidate setup <;> rfl

theorem run_classTable (cls : Host.Class) (architecture : String) (b : Bridge σ) :
    (classTable cls architecture).run b =
      match b.catalogue.table? cls architecture with
      | some t => (.ok t, b)
      | none =>
          match (MethodTable.build b.supply cls architecture (b.catalogue.adaptersFor cls)).run
            b.setup with
          | (.ok t, s) => (.ok t, ⟨s, b.catalogue.keep cls architecture t, b.supply + 1⟩)
          | (.error e, s) => (.error (.registration e), ⟨s, b.catalogue, b.supply + 1⟩) := by
  rw [classTable, run_bind, run_get]
  dsimp only
  cases b.catalogue.table? cls architecture with
  | some t => rfl
  | none =>
      dsimp only
      rw [run_fresh_bind, run_bind, run_building]
      rcases (MethodTable.build b.supply cls architecture (b.catalogue.adaptersFor cls)).run
        b.setup with ⟨_ | _, s⟩ <;> rfl

theorem run_methodTable (o : Host.Object) (architecture : String) (b : Bridge σ) :
    (methodTable o architecture).run b =
      match b.setup.converter? architecture with
      | some _ => (classTable o.cls architecture).run b
      | none => (.error (.unknownArchitecture architecture), b) := by
  rw [methodTable, run_bind, run_get]
  dsimp only
  cases b.setup.converter? architecture <;> rfl

/-! ## Traces -/

/-- Nothing changed but what the setup notes down and which identities are free. -/
structure Traced (b b' : Bridge σ) : Prop where
  /-- The setups agree. -/
  agrees : b.setup.Agrees b'.setup
  /-- The adapters and the tables kept are the same. -/
  catalogue : b'.catalogue = b.catalogue
  /-- No identity handed out is free again. -/
  supply : b.supply ≤ b'.supply

theorem Traced.refl (b : Bridge σ) : b.Traced b := ⟨.refl _, rfl, Nat.le_refl _⟩

theorem Traced.trans {b b' b'' : Bridge σ} (h : b.Traced b') (h' : b'.Traced b'') : b.Traced b'' :=
  ⟨h.agrees.trans h'.agrees, h'.catalogue.trans h.catalogue, Nat.le_trans h.supply h'.supply⟩

/-- The end of a call leaves traces, and the answer is that of the method. -/
theorem settle_cases (b : Bridge σ) (r : Except CallError (List Script.Value) × σ) :
    ∃ b', b.Traced b' ∧ b.settle r = (r.1.mapError .call, b', r.2) := by
  obtain ⟨e | values, s⟩ := r
  · exact ⟨((onSetup (Setup.addLog e.logLines)).run b).2,
      ⟨Setup.agrees_addLog e.logLines b.setup, rfl, Nat.le_refl _⟩, rfl⟩
  · exact ⟨b, .refl b, rfl⟩

/-- To call a method of an object is to call it in the table of the object. -/
theorem exists_callWith_eq {b : Bridge σ} {env : Environment} {o : Host.Object}
    {t : MethodTable σ} (ht : ((methodTable o env.architecture).run b).1 = .ok t) (name : String)
    (args : List Script.Value) (s : σ) :
    ∃ b', b.callWith env o name args s =
      ((t.call name env (.object o) args s).1.mapError .call, b',
        (t.call name env (.object o) args s).2) := by
  rw [callWith]
  rcases hr : (methodTable o env.architecture).run b with ⟨r, b'⟩
  rw [hr] at ht
  cases ht
  obtain ⟨b'', -, settled⟩ := settle_cases b' (t.call name env (.object o) args s)
  exact ⟨b'', settled⟩

/-! ## Look-ups -/

/-- The outcomes of looking up the table of a class on an architecture. -/
inductive Lookup (b : Bridge σ) (cls : Host.Class) (architecture : String) :
    Except BridgeError (MethodTable σ) → Bridge σ → Prop where
  /-- The table was kept. -/
  | kept {t : MethodTable σ} (h : b.catalogue.table? cls architecture = some t) :
      Lookup b cls architecture (.ok t) b
  /-- The table was built and is kept from now on. -/
  | built {t : MethodTable σ} {s : Setup} (hn : b.catalogue.table? cls architecture = none)
      (h : ((MethodTable.build b.supply cls architecture (b.catalogue.adaptersFor cls)).run
        b.setup).1 = .ok t)
      (hs : b.setup.Agrees s) :
      Lookup b cls architecture (.ok t)
        ⟨s, b.catalogue.keep cls architecture t, b.supply + 1⟩
  /-- The table cannot be built. -/
  | refused {e : RegistrationError} {s : Setup}
      (hn : b.catalogue.table? cls architecture = none)
      (h : ((MethodTable.build b.supply cls architecture (b.catalogue.adaptersFor cls)).run
        b.setup).1 = .error e)
      (hs : b.setup.Agrees s) :
      Lookup b cls architecture (.error (.registration e)) ⟨s, b.catalogue, b.supply + 1⟩

theorem lookup_classTable (b : Bridge σ) (cls : Host.Class) (architecture : String) :
    Lookup b cls architecture ((classTable cls architecture).run b).1
      ((classTable cls architecture).run b).2 := by
  have moved := MethodTable.moves_build b.supply cls architecture (b.catalogue.adaptersFor cls)
    b.setup
  rw [run_classTable]
  cases hk : b.catalogue.table? cls architecture with
  | some t => exact .kept hk
  | none =>
      dsimp only
      cases hb : (MethodTable.build b.supply cls architecture (b.catalogue.adaptersFor cls)).run
        b.setup with
      | mk r s =>
          rw [hb] at moved
          cases r with
          | ok t => exact .built hk (by rw [hb]) moved
          | error e => exact .refused hk (by rw [hb]) moved

end HostBridge.Bridge

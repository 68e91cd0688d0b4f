import HostBridge.Proofs.Adapter.Building
import HostBridge.Proofs.Bridge.Effects

/-!
# Runs of a host

A host starts with a setup and without adapters.  Then it registers, toggles groups,
looks tables up, calls methods and drops tables, in any order.  A `Session` is where
this has led so far, together with the events on the way.

Events are what can be seen from outside.  They do not mention which tables are kept.
So what is registered, which groups are disabled and which look-ups succeeded can be
read off them, and compared with what the bridge holds.

`Change` lists what each kind of event may do to a bridge, and `change_perform` says
that operations do nothing else.
-/

namespace HostBridge.Bridge

variable {σ : Type}

/-! ## Operations and events -/

/-- What a host can ask of its bridge. -/
inductive Operation (σ : Type) where
  | register (d : Adapter.Definition σ)
  | disableGroup (group architecture : String)
  | enableGroup (group architecture : String)
  | methodTable (o : Host.Object) (architecture : String)
  | call (o : Host.Object) (architecture name : String) (args : List Script.Value)
  | callWith (env : Environment) (o : Host.Object) (name : String) (args : List Script.Value)
  | invalidate
  /-- Check every adapter again with the setup of the bridge. -/
  | revalidate

/-- What came of an operation. -/
inductive Event (σ : Type) where
  | registered (a : Adapter σ)
  | disabled (group architecture : String)
  | enabled (group architecture : String)
  /-- Tables were dropped, on request or because all adapters passed the check. -/
  | dropped
  /-- The table of a class was looked up, and there was one or not. -/
  | lookedUp (cls : Host.Class) (architecture : String) (found : Bool)
  /-- The operation was refused before any look-up. -/
  | refused

/-- What an answer tells about the look-up behind it.  A call that fails in a method
has found a table. -/
def Event.ofAnswer {α : Type} (cls : Host.Class) (architecture : String) :
    Except BridgeError α → Event σ
  | .ok _ => .lookedUp cls architecture true
  | .error (.call _) => .lookedUp cls architecture true
  | .error (.registration _) => .lookedUp cls architecture false
  | .error (.unknownArchitecture _) => .refused

/-- Perform an operation.  The answer is the event, the bridge and the state of the
host afterwards. -/
def Operation.perform : Operation σ → Bridge σ → σ → Event σ × Bridge σ × σ
  | .register d, b, s =>
      match (Bridge.register d).run b with
      | (.ok a, b') => (.registered a, b', s)
      | (.error _, b') => (.refused, b', s)
  | .disableGroup group architecture, b, s =>
      (.disabled group architecture, (Bridge.disableGroup group architecture b).2, s)
  | .enableGroup group architecture, b, s =>
      (.enabled group architecture, (Bridge.enableGroup group architecture b).2, s)
  | .methodTable o architecture, b, s =>
      let (r, b') := (Bridge.methodTable o architecture).run b
      (.ofAnswer o.cls architecture r, b', s)
  | .call o architecture name args, b, s =>
      let (r, b', s') := b.call o architecture name args s
      (.ofAnswer o.cls architecture r, b', s')
  | .callWith env o name args, b, s =>
      let (r, b', s') := b.callWith env o name args s
      (.ofAnswer o.cls env.architecture r, b', s')
  | .invalidate, b, s => (.dropped, (Bridge.invalidate b).2, s)
  | .revalidate, b, s =>
      match (Bridge.revalidate b.setup).run b with
      | (.ok (), b') => (.dropped, b', s)
      | (.error _, b') => (.refused, b', s)

/-! ## Sessions -/

/-- Where a run has led, and what happened on the way. -/
structure Session (σ : Type) where
  bridge : Bridge σ
  host : σ
  /-- The events, oldest first. -/
  history : List (Event σ)

namespace Session

/-- The session of a host that has done nothing yet. -/
def start (setup : Setup) (host : σ) : Session σ := ⟨.new setup, host, []⟩

/-- The session after one more operation. -/
def step (w : Session σ) (op : Operation σ) : Session σ :=
  let (e, bridge, host) := op.perform w.bridge w.host
  ⟨bridge, host, w.history ++ [e]⟩

/-- The session after operations. -/
def run (w : Session σ) (ops : List (Operation σ)) : Session σ := ops.foldl step w

theorem run_concat (w : Session σ) (ops : List (Operation σ)) (op : Operation σ) :
    w.run (ops ++ [op]) = (w.run ops).step op :=
  List.foldl_append

end Session

/-! ## What events tell -/

def Event.adapter? : Event σ → Option (Adapter σ)
  | .registered a => some a
  | _ => none

/-- The gating after the event. -/
def Event.toggle (g : Gating) : Event σ → Gating
  | .disabled group architecture => g.disable group architecture
  | .enabled group architecture => g.enable group architecture
  | _ => g

def Event.class? : Event σ → Option Host.Class
  | .lookedUp cls _ _ => some cls
  | _ => none

/-- The identity of the class and the architecture of a look-up that succeeded. -/
def Event.key? : Event σ → Option (TypeId × String)
  | .lookedUp cls architecture true => some (cls.id, architecture)
  | _ => none

/-- Whether the event makes tables invalid that were built before. -/
def Event.drops : Event σ → Bool
  | .registered _ => true
  | .disabled .. => true
  | .enabled .. => true
  | .dropped => true
  | .lookedUp .. => false
  | .refused => false

/-- The adapters registered so far. -/
def registered (history : List (Event σ)) : List (Adapter σ) := history.filterMap Event.adapter?

/-- The setup a host started with, with the groups that are disabled by now. -/
def setupAfter (setup : Setup) (history : List (Event σ)) : Setup :=
  { setup with gating := history.foldl Event.toggle setup.gating }

/-- The classes looked up so far. -/
def lookedUp (history : List (Event σ)) : List Host.Class := history.filterMap Event.class?

/-- The look-ups that succeeded since tables were last made invalid. -/
def foundSince (history : List (Event σ)) : List (TypeId × String) :=
  (history.reverse.takeWhile fun e => !e.drops).filterMap Event.key?

theorem registered_concat (history : List (Event σ)) (e : Event σ) :
    registered (history ++ [e]) = registered history ++ e.adapter?.toList := by
  rw [registered, List.filterMap_append]
  cases h : e.adapter? <;> simp [registered, h]

theorem setupAfter_concat (setup : Setup) (history : List (Event σ)) (e : Event σ) :
    setupAfter setup (history ++ [e]) =
      { setup with gating := e.toggle (setupAfter setup history).gating } := by
  rw [setupAfter, List.foldl_append]
  rfl

theorem registered_concat_of_none (history : List (Event σ)) {e : Event σ}
    (h : e.adapter? = none) : registered (history ++ [e]) = registered history := by
  rw [registered_concat, h, Option.toList_none, List.append_nil]

theorem setupAfter_concat_of_toggle (setup : Setup) (history : List (Event σ)) {e : Event σ}
    (h : ∀ g, e.toggle g = g) : setupAfter setup (history ++ [e]) = setupAfter setup history := by
  rw [setupAfter_concat, h]
  rfl

theorem lookedUp_concat (history : List (Event σ)) (e : Event σ) :
    lookedUp (history ++ [e]) = lookedUp history ++ e.class?.toList := by
  rw [lookedUp, List.filterMap_append]
  cases h : e.class? <;> simp [lookedUp, h]

theorem foundSince_concat (history : List (Event σ)) (e : Event σ) :
    foundSince (history ++ [e]) = if e.drops then [] else e.key?.toList ++ foundSince history := by
  rw [foundSince, List.reverse_append, List.reverse_singleton, List.singleton_append,
    List.takeWhile_cons]
  cases e.drops with
  | true => rfl
  | false =>
      rw [Bool.not_false, if_pos rfl, if_neg Bool.false_ne_true, List.filterMap_cons, foundSince]
      cases e.key? <;> rfl

/-! ## What events change -/

/-- What each event may do to a bridge. -/
inductive Change (b : Bridge σ) : Event σ → Bridge σ → Prop where
  /-- An adapter is registered under an identity of its own. -/
  | registered {a : Adapter σ} {s : Setup} (hm : ∀ m ∈ a.methods, m.id.adapter = b.supply)
      (hs : b.setup.Agrees s) :
      Change b (.registered a) ⟨s, b.catalogue.register a, b.supply + 1⟩
  | disabled (group architecture : String) :
      Change b (.disabled group architecture)
        ⟨(Setup.disableGroup group architecture b.setup).2, b.catalogue.forgetTables, b.supply⟩
  | enabled (group architecture : String) :
      Change b (.enabled group architecture)
        ⟨(Setup.enableGroup group architecture b.setup).2, b.catalogue.forgetTables, b.supply⟩
  | dropped : Change b .dropped { b with catalogue := b.catalogue.forgetTables }
  /-- A table is looked up, and what follows leaves traces. -/
  | lookedUp {cls : Host.Class} {architecture : String}
      {r : Except BridgeError (MethodTable σ)} {b' b'' : Bridge σ}
      (h : Lookup b cls architecture r b') (ht : b'.Traced b'') :
      Change b (.lookedUp cls architecture r.isOk) b''
  | refused {b' : Bridge σ} (ht : b.Traced b') : Change b .refused b'

theorem change_register (b : Bridge σ) (s : σ) (d : Adapter.Definition σ) :
    Change b ((Operation.register d).perform b s).1 ((Operation.register d).perform b s).2.1 := by
  have moved := d.moves_build b.supply b.setup
  rw [Operation.perform, run_register]
  cases hb : (d.build b.supply).run b.setup with
  | mk r s' =>
      rw [hb] at moved
      cases r with
      | ok a =>
          refine .registered (Adapter.Definition.adapter_of_mem_build (by rw [hb])) ?_
          exact moved.trans (Setup.agrees_write _ _ s')
      | error e => exact .refused ⟨moved, rfl, Nat.le_succ _⟩

theorem change_revalidate (b : Bridge σ) (s : σ) :
    Change b (Operation.revalidate.perform b s).1 (Operation.revalidate.perform b s).2.1 := by
  rw [Operation.perform, run_revalidate]
  cases b.catalogue.revalidate b.setup with
  | ok _ => exact .dropped
  | error e => exact .refused (.refl b)

theorem Lookup.ofAnswer {b b' : Bridge σ} {cls : Host.Class} {architecture : String}
    {r : Except BridgeError (MethodTable σ)} (h : Lookup b cls architecture r b') :
    (Event.ofAnswer cls architecture r : Event σ) = .lookedUp cls architecture r.isOk := by
  cases h <;> rfl

theorem change_methodTable (b : Bridge σ) (o : Host.Object) (architecture : String) :
    Change b (.ofAnswer o.cls architecture ((methodTable o architecture).run b).1)
      ((methodTable o architecture).run b).2 := by
  rw [run_methodTable]
  cases b.setup.converter? architecture with
  | none => exact .refused (.refl b)
  | some _ =>
      have looked := lookup_classTable b o.cls architecture
      rw [show Event.ofAnswer _ _ _ = _ from looked.ofAnswer]
      exact .lookedUp looked (.refl _)

theorem Change.trace {b b' b'' : Bridge σ} {cls : Host.Class} {architecture : String}
    {found : Bool} (h : Change b (.lookedUp cls architecture found) b') (ht : b'.Traced b'') :
    Change b (.lookedUp cls architecture found) b'' := by
  cases h with
  | lookedUp h ht' => exact .lookedUp h (ht'.trans ht)

theorem change_callWith (b : Bridge σ) (env : Environment) (o : Host.Object) (name : String)
    (args : List Script.Value) (s : σ) :
    Change b (.ofAnswer o.cls env.architecture (b.callWith env o name args s).1)
      (b.callWith env o name args s).2.1 := by
  have change := change_methodTable b o env.architecture
  rw [callWith]
  cases hr : (methodTable o env.architecture).run b with
  | mk r b' =>
      rw [hr] at change
      cases r with
      | error e => cases e <;> exact change
      | ok t =>
          obtain ⟨b'', traced, settled⟩ := settle_cases b' (t.call name env (.object o) args s)
          dsimp only
          rw [settled]
          -- The method may have failed, but the table was found.
          cases (t.call name env (.object o) args s).1 with
          | ok values => exact change.trace traced
          | error e => exact change.trace traced

theorem architecture_of_environment {b : Bridge σ} {architecture : String} {env : Environment}
    (h : b.environment architecture = .ok env) : env.architecture = architecture := by
  rw [environment, Setup.environment?] at h
  cases hc : b.setup.converter? architecture with
  | none =>
      rw [hc] at h
      cases h
  | some converter =>
      rw [hc] at h
      cases h
      rfl

theorem change_call (b : Bridge σ) (o : Host.Object) (architecture name : String)
    (args : List Script.Value) (s : σ) :
    Change b (.ofAnswer o.cls architecture (b.call o architecture name args s).1)
      (b.call o architecture name args s).2.1 := by
  rw [call]
  cases he : b.environment architecture with
  | error e =>
      rw [environment] at he
      cases hn : b.setup.environment? architecture with
      | none =>
          rw [hn] at he
          cases he
          exact .refused (.refl b)
      | some env =>
          rw [hn] at he
          cases he
  | ok env =>
      have change := change_callWith b env o name args s
      rwa [architecture_of_environment he] at change

/-- Operations change the bridge as their events say. -/
theorem change_perform (op : Operation σ) (b : Bridge σ) (s : σ) :
    Change b (op.perform b s).1 (op.perform b s).2.1 := by
  cases op with
  | register d => exact change_register b s d
  | disableGroup group architecture => exact .disabled group architecture
  | enableGroup group architecture => exact .enabled group architecture
  | methodTable o architecture => exact change_methodTable b o architecture
  | call o architecture name args => exact change_call b o architecture name args s
  | callWith env o name args => exact change_callWith b env o name args s
  | invalidate => exact .dropped
  | revalidate => exact change_revalidate b s

end HostBridge.Bridge

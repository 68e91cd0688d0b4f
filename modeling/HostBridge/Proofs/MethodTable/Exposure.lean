import Mathlib.Data.List.Induction
import Mathlib.Data.List.Nodup
import HostBridge.Proofs.Agreement

/-!
# What adapters expose

A table is put together from exposures, one for each name of each visible method.
`exposed` lists them in the order of the table, with repeats.  A name may be repeated
because the adapter applies in more than one way, or because two methods clash.

`Coherent` says that exposures of one name are of one method.  A list of exposures that
is not coherent has a first clash: the first exposure whose name an earlier one has for
another method.

A builder keeps three things side by side, and looks into all of them by the places that
its index gives.  `Aligned` says that they are in step: the entries and the origins are
those of a list of exposures, and the index gives the places of their names.  Adding a
name keeps this (`Aligned.add_cases`).

`addAll_cases` is the main statement.  Coherent exposures are reduced to the first of
each name, and others are refused with their first clash.  `fst_run_addAdapters` says
that this is all the look-up of visible methods does.
-/

namespace HostBridge.MethodTable

variable {σ : Type}

/-- The methods of adapters that scripts see, in order. -/
def visibleMethods (architecture : String) (g : Gating) (adapters : List (Adapter σ)) :
    List (Method σ) :=
  adapters.flatMap fun a => a.methods.filter fun m => m.visible architecture g

/-- A name under which an adapter exposes a method, with the origin of the method. -/
structure Exposure (σ : Type) where
  name : String
  method : Method σ
  origin : String

namespace Exposure

/-- The entry of a table. -/
def entry (x : Exposure σ) : Entry σ := ⟨x.name, x.method⟩

/-- The exposure under a name. -/
def find? (xs : List (Exposure σ)) (name : String) : Option (Exposure σ) :=
  xs.find? fun x => x.name == name

/-! ## Exposed methods -/

/-- An exposure for each name of a method. -/
def ofMethod (a : Adapter σ) (m : Method σ) : List (Exposure σ) :=
  m.declaration.names.map fun n => ⟨n, m, Builder.originOf a m⟩

/-- An exposure for each name of each visible method, in order and with repeats. -/
def exposed (architecture : String) (g : Gating) (adapters : List (Adapter σ)) :
    List (Exposure σ) :=
  adapters.flatMap fun a =>
    (a.methods.filter fun m => m.visible architecture g).flatMap (ofMethod a)

theorem exposed_append (architecture : String) (g : Gating) (as bs : List (Adapter σ)) :
    exposed architecture g (as ++ bs) = exposed architecture g as ++ exposed architecture g bs :=
  List.flatMap_append

theorem mem_ofMethod {a : Adapter σ} {m : Method σ} {e : Exposure σ} (h : e ∈ ofMethod a m) :
    e.method = m ∧ e.name ∈ m.declaration.names := by
  obtain ⟨n, hn, rfl⟩ := List.mem_map.mp h
  exact ⟨rfl, hn⟩

/-- An exposure is of a visible method, under one of its names. -/
theorem visible_of_mem_exposed {architecture : String} {g : Gating} {adapters : List (Adapter σ)}
    {e : Exposure σ} (h : e ∈ exposed architecture g adapters) :
    e.method ∈ visibleMethods architecture g adapters ∧ e.name ∈ e.method.declaration.names := by
  obtain ⟨a, ha, hm⟩ := List.mem_flatMap.mp h
  obtain ⟨m, hm, he⟩ := List.mem_flatMap.mp hm
  obtain ⟨rfl, hn⟩ := mem_ofMethod he
  exact ⟨List.mem_flatMap.mpr ⟨a, ha, hm⟩, hn⟩

/-- Every name of a visible method is exposed. -/
theorem exists_mem_exposed {architecture : String} {g : Gating} {adapters : List (Adapter σ)}
    {m : Method σ} (hm : m ∈ visibleMethods architecture g adapters) {n : String}
    (hn : n ∈ m.declaration.names) :
    ∃ e ∈ exposed architecture g adapters, e.name = n ∧ e.method = m := by
  obtain ⟨a, ha, hm⟩ := List.mem_flatMap.mp hm
  refine ⟨⟨n, m, Builder.originOf a m⟩, ?_, rfl, rfl⟩
  exact List.mem_flatMap.mpr ⟨a, ha, List.mem_flatMap.mpr ⟨m, hm, List.mem_map_of_mem hn⟩⟩

/-- The exposed names are the names of the visible methods. -/
theorem map_name_exposed (architecture : String) (g : Gating) (adapters : List (Adapter σ)) :
    (exposed architecture g adapters).map Exposure.name =
      (visibleMethods architecture g adapters).flatMap fun m => m.declaration.names := by
  simp only [exposed, visibleMethods, ofMethod, List.map_flatMap, List.map_map, List.flatMap_assoc,
    Function.comp_def, List.map_id']

/-- What is exposed depends on what is enabled and on nothing else. -/
theorem exposed_congr {g g' : Gating} (h : ∀ n a, g'.isEnabled n a = g.isEnabled n a)
    (architecture : String) (adapters : List (Adapter σ)) :
    exposed architecture g' adapters = exposed architecture g adapters := by
  simp only [exposed, Method.visible_congr h]

/-! ## The first of each name -/

theorem find?_append (xs ys : List (Exposure σ)) (n : String) :
    find? (xs ++ ys) n = (find? xs n).or (find? ys n) :=
  List.find?_append

theorem name_of_find? {xs : List (Exposure σ)} {n : String} {e : Exposure σ}
    (h : find? xs n = some e) : e.name = n := by
  have := List.find?_some h
  exact beq_iff_eq.mp this

theorem mem_of_find? {xs : List (Exposure σ)} {n : String} {e : Exposure σ}
    (h : find? xs n = some e) : e ∈ xs :=
  List.mem_of_find?_eq_some h

theorem find?_eq_none {xs : List (Exposure σ)} {n : String} :
    find? xs n = none ↔ n ∉ xs.map Exposure.name := by
  simp only [find?, List.find?_eq_none, List.mem_map, beq_iff_eq, not_exists, not_and]

theorem find?_singleton_of_ne {e : Exposure σ} {n : String} (h : e.name ≠ n) :
    find? [e] n = none := by
  simp [find?, h]

/-- Under names that are told apart, every exposure is found under its name. -/
theorem find?_of_mem {xs : List (Exposure σ)} (hd : (xs.map Exposure.name).Nodup) {e : Exposure σ}
    (he : e ∈ xs) : find? xs e.name = some e := by
  induction xs with
  | nil => cases he
  | cons x xs ih =>
      rw [List.map_cons, List.nodup_cons] at hd
      rcases List.mem_cons.mp he with rfl | he
      · simp [find?]
      · have other : x.name ≠ e.name := fun same => hd.1 (same ▸ List.mem_map_of_mem he)
        rw [find?, List.find?_cons_of_neg (by simpa using other)]
        exact ih hd.2 he

/-- The exposures with one more, unless its name is there already. -/
def keep (xs : List (Exposure σ)) (e : Exposure σ) : List (Exposure σ) :=
  match find? xs e.name with
  | some _ => xs
  | none => xs ++ [e]

/-- The first exposure of each name. -/
def firstOfEach (xs : List (Exposure σ)) : List (Exposure σ) := xs.foldl keep []

theorem firstOfEach_concat (xs : List (Exposure σ)) (e : Exposure σ) :
    firstOfEach (xs ++ [e]) = keep (firstOfEach xs) e := by
  rw [firstOfEach, List.foldl_append]
  rfl

theorem mem_of_mem_firstOfEach {xs : List (Exposure σ)} {e : Exposure σ}
    (h : e ∈ firstOfEach xs) : e ∈ xs := by
  induction xs using List.reverseRecOn with
  | nil => exact h
  | append_singleton xs x ih =>
      rw [firstOfEach_concat, keep] at h
      split at h
      · exact List.mem_append_left _ (ih h)
      · rcases List.mem_append.mp h with h | h
        · exact List.mem_append_left _ (ih h)
        · exact List.mem_append_right _ h

/-- To look a name up among the first of each name is to look it up among all. -/
theorem find?_firstOfEach (xs : List (Exposure σ)) (n : String) :
    find? (firstOfEach xs) n = find? xs n := by
  induction xs using List.reverseRecOn with
  | nil => rfl
  | append_singleton xs e ih =>
      rw [firstOfEach_concat, find?_append, ← ih]
      cases hf : find? (firstOfEach xs) e.name with
      | none =>
          rw [keep, hf]
          exact find?_append _ _ n
      | some f =>
          rw [keep, hf]
          by_cases hn : e.name = n
          · rw [← hn, hf]
            rfl
          · rw [find?_singleton_of_ne hn, Option.or_none]

/-- The names of the first of each name are all names, repeats dropped. -/
theorem map_name_firstOfEach (xs : List (Exposure σ)) :
    (firstOfEach xs).map Exposure.name = (xs.map Exposure.name).eraseDups := by
  induction xs using List.reverseRecOn with
  | nil => rfl
  | append_singleton xs e ih =>
      rw [firstOfEach_concat, List.map_append, List.eraseDups_append, ← ih, keep]
      cases hf : find? (firstOfEach xs) e.name with
      | none =>
          rw [find?_firstOfEach, find?_eq_none] at hf
          simp [List.removeAll, List.eraseDups_cons, hf, -List.mem_map]
      | some f =>
          rw [find?_firstOfEach] at hf
          have hmem : e.name ∈ xs.map Exposure.name :=
            name_of_find? hf ▸ List.mem_map_of_mem (mem_of_find? hf)
          simp [List.removeAll, hmem, -List.mem_map]

/-! ## Clashes -/

/-- Exposures of one name are of one method. -/
def Coherent (xs : List (Exposure σ)) : Prop :=
  ∀ e ∈ xs, ∀ f ∈ xs, e.name = f.name → e.method.id = f.method.id

/-- In order of the exposures, `x` is the first whose name an earlier one has for another
method, and `e` is the earliest of that name. -/
def FirstClash (xs : List (Exposure σ)) (e x : Exposure σ) : Prop :=
  ∃ before after, xs = before ++ x :: after ∧ Coherent before ∧
    find? before x.name = some e ∧ e.method.id ≠ x.method.id

theorem coherent_nil : Coherent ([] : List (Exposure σ)) := List.forall_mem_nil _

/-- Exposures with a first clash are not coherent. -/
theorem FirstClash.not_coherent {xs : List (Exposure σ)} {e x : Exposure σ}
    (h : FirstClash xs e x) : ¬ Coherent xs := by
  obtain ⟨before, after, rfl, -, hf, hne⟩ := h
  intro hc
  refine hne (hc e (List.mem_append_left _ (mem_of_find? hf)) x ?_ (name_of_find? hf))
  exact List.mem_append_right _ (List.mem_cons_self ..)

/-- One more exposure leaves coherent ones coherent, if its method is the one found under its
name. -/
theorem Coherent.concat {xs : List (Exposure σ)} (h : Coherent xs) {x : Exposure σ}
    (hx : ∀ e, find? xs x.name = some e → e.method.id = x.method.id) : Coherent (xs ++ [x]) := by
  -- Any exposure of the name is of the method of the one that is found.
  have old : ∀ e ∈ xs, e.name = x.name → e.method.id = x.method.id := by
    intro e he hn
    cases hf : find? xs x.name with
    | none => exact absurd (hn ▸ List.mem_map_of_mem he) (find?_eq_none.mp hf)
    | some f =>
        rw [← hx f hf]
        exact h e he f (mem_of_find? hf) (hn.trans (name_of_find? hf).symm)
  intro e he f hf hn
  cases List.mem_append.mp he with
  | inl he =>
      cases List.mem_append.mp hf with
      | inl hf => exact h e he f hf hn
      | inr hf =>
          cases List.mem_singleton.mp hf
          exact old e he hn
  | inr he =>
      cases List.mem_singleton.mp he
      cases List.mem_append.mp hf with
      | inl hf => exact (old f hf hn.symm).symm
      | inr hf => cases List.mem_singleton.mp hf; rfl

end Exposure

/-! ## Places of names -/

/-- The index gives the place of each name. -/
def Places (index : Dict String Nat) (names : List String) : Prop :=
  ∀ n i, index.find? n = some i ↔ names[i]? = some n

namespace Places

variable {index : Dict String Nat} {names : List String}

theorem empty : Places .empty [] := by
  intro n i
  rw [Dict.find?_empty, List.getElem?_nil]
  exact iff_of_false nofun nofun

theorem find?_eq_none (h : Places index names) (n : String) :
    index.find? n = none ↔ n ∉ names := by
  rw [Option.eq_none_iff_forall_ne_some, List.mem_iff_getElem?, not_exists]
  exact forall_congr' fun i => not_congr (h n i)

/-- A name that stood twice would have two places. -/
theorem nodup (h : Places index names) : names.Nodup := by
  rw [List.nodup_iff_getElem?_ne_getElem?]
  intro i j less hj same
  have later : names[j]? = some names[j] := List.getElem?_eq_getElem hj
  have places := ((h _ i).mpr (same.trans later)).symm.trans ((h _ j).mpr later)
  exact Nat.ne_of_lt less (Option.some.inj places)

/-- A new name at the end has the place after all others. -/
theorem insert (h : Places index names) {new : String} (absent : new ∉ names) :
    Places (index.insert new names.length) (names ++ [new]) := by
  intro n i
  rw [Dict.find?_insert, List.getElem?_append]
  by_cases before : i < names.length
  · rw [if_pos before]
    by_cases same : new = n
    · subst same
      rw [if_pos rfl]
      refine iff_of_false (fun last => ?_) fun there => absent (List.mem_of_getElem? there)
      exact Nat.ne_of_gt before (Option.some.inj last)
    · rw [if_neg same]
      exact h n i
  · rw [if_neg before, List.getElem?_singleton]
    by_cases same : new = n
    · rw [if_pos same, Option.some.injEq, same]
      split
      · exact iff_of_true (by omega) rfl
      · exact iff_of_false (by omega) nofun
    · rw [if_neg same, h n i, List.getElem?_eq_none (Nat.le_of_not_lt before)]
      refine iff_of_false nofun fun last => ?_
      split at last
      · exact same (Option.some.inj last)
      · cases last

end Places

/-! ## Adding exposures -/

namespace Builder

open Exposure (exposed ofMethod firstOfEach keep Coherent FirstClash)

/-- Add an exposure. -/
def add (b : Builder σ) (x : Exposure σ) : Except RegistrationError (Builder σ) :=
  addName x.method x.origin b x.name

/-- Add exposures one after the other. -/
def addAll (b : Builder σ) (xs : List (Exposure σ)) : Except RegistrationError (Builder σ) :=
  xs.foldlM add b

/-- What the builder keeps side by side is in step: the entries and the origins are those of
the exposures, and the index gives the places of their names. -/
structure Aligned (b : Builder σ) (xs : List (Exposure σ)) : Prop where
  entries_eq : b.entries = xs.map Exposure.entry
  origins_eq : b.origins = xs.map Exposure.origin
  places : Places b.index (xs.map Exposure.name)

variable {b b' : Builder σ} {xs before : List (Exposure σ)}

theorem aligned_empty : (empty : Builder σ).Aligned [] := ⟨rfl, rfl, Places.empty⟩

/-- The index leads to what is found under a name. -/
theorem Aligned.exists_place (h : b.Aligned xs) {n : String} {e : Exposure σ}
    (found : Exposure.find? xs n = some e) : ∃ i, b.index.find? n = some i ∧ xs[i]? = some e := by
  obtain ⟨i, hi⟩ := List.mem_iff_getElem?.mp (Exposure.mem_of_find? found)
  refine ⟨i, (h.places n i).mpr ?_, hi⟩
  rw [List.getElem?_map, hi, Option.map_some, Exposure.name_of_find? found]

/-- A new name is added everywhere at once. -/
theorem Aligned.add_of_none (h : b.Aligned xs) {x : Exposure σ}
    (new : Exposure.find? xs x.name = none) : ∃ b', b.add x = .ok b' ∧ b'.Aligned (xs ++ [x]) := by
  have absent := Exposure.find?_eq_none.mp new
  have last : b.entries.length = (xs.map Exposure.name).length := by
    rw [h.entries_eq, List.length_map, List.length_map]
  rw [add, addName, (h.places.find?_eq_none _).mpr absent]
  refine ⟨_, rfl, ?_, ?_, ?_⟩
  · rw [h.entries_eq, List.map_append]
    rfl
  · rw [h.origins_eq, List.map_append]
    rfl
  · rw [List.map_append, last]
    exact h.places.insert absent

/-- Under a name that is there, the index leads to the entry and to its origin. -/
theorem Aligned.add_of_some (h : b.Aligned xs) {e x : Exposure σ}
    (found : Exposure.find? xs x.name = some e) :
    b.add x = if e.method.id = x.method.id then .ok b
      else .error (.duplicate x.name e.origin x.origin) := by
  obtain ⟨i, place, here⟩ := h.exists_place found
  have entry : b.entries[i]? = some e.entry := by
    rw [h.entries_eq, List.getElem?_map, here, Option.map_some]
  have origin : b.origins[i]? = some e.origin := by
    rw [h.origins_eq, List.getElem?_map, here, Option.map_some]
  rw [add, addName, place]
  dsimp only
  rw [entry, origin, Option.any_some, Option.getD_some]
  by_cases same : e.method.id = x.method.id
  · rw [if_pos same]
    exact if_pos (decide_eq_true same)
  · rw [if_neg same]
    exact if_neg (mt of_decide_eq_true same)

/-- Adding one exposure either keeps everything in step or meets another method under the name,
and then the error has the origin of that method. -/
theorem Aligned.add_cases (h : b.Aligned xs) (x : Exposure σ) :
    (∃ b', b.add x = .ok b' ∧ b'.Aligned (keep xs x) ∧
      ∀ e, Exposure.find? xs x.name = some e → e.method.id = x.method.id) ∨
    ∃ e, Exposure.find? xs x.name = some e ∧ e.method.id ≠ x.method.id ∧
      b.add x = .error (.duplicate x.name e.origin x.origin) := by
  rw [keep]
  cases found : Exposure.find? xs x.name with
  | none =>
      obtain ⟨b', added, aligned⟩ := h.add_of_none found
      exact .inl ⟨b', added, aligned, nofun⟩
  | some e =>
      by_cases same : e.method.id = x.method.id
      · refine .inl ⟨b, by rw [h.add_of_some found, if_pos same], h, ?_⟩
        rintro e' ⟨⟩
        exact same
      · exact .inr ⟨e, rfl, same, by rw [h.add_of_some found, if_neg same]⟩

/-- Adding exposures to the first of each name: coherent ones are reduced to the first of each
name, others are refused with their first clash. -/
theorem addAll_cases (xs : List (Exposure σ)) (hb : b.Aligned (firstOfEach before))
    (h : Coherent before) :
    (Coherent (before ++ xs) ∧
      ∃ b', b.addAll xs = .ok b' ∧ b'.Aligned (firstOfEach (before ++ xs))) ∨
    ∃ e x, FirstClash (before ++ xs) e x ∧
      b.addAll xs = .error (.duplicate x.name e.origin x.origin) := by
  induction xs generalizing b before with
  | nil =>
      rw [List.append_nil]
      exact .inl ⟨h, b, rfl, hb⟩
  | cons x xs ih =>
      have split : before ++ x :: xs = (before ++ [x]) ++ xs := by
        rw [List.append_assoc, List.singleton_append]
      rw [addAll, List.foldlM_cons]
      rcases hb.add_cases x with ⟨b', added, aligned, same⟩ | ⟨e, found, other, refused⟩
      · rw [← Exposure.firstOfEach_concat] at aligned
        rw [Exposure.find?_firstOfEach] at same
        rw [added, split]
        exact ih aligned (h.concat same)
      · rw [Exposure.find?_firstOfEach] at found
        rw [refused]
        exact .inr ⟨e, x, ⟨before, xs, rfl, h, found, other⟩, rfl⟩

/-- All that was added is in step. -/
theorem aligned_of_addAll (h : empty.addAll xs = .ok b) : b.Aligned (firstOfEach xs) := by
  rcases addAll_cases xs aligned_empty Exposure.coherent_nil with ⟨-, b', all, aligned⟩ | clash
  · cases h.symm.trans all
    exact aligned
  · obtain ⟨e, x, -, refused⟩ := clash
    cases h.symm.trans refused

/-- Exposures of methods that are not there yet are added at the end, or not at all. -/
theorem Aligned.append {own : List (Exposure σ)} (hb : b.Aligned own) (h : b.addAll xs = .ok b')
    (hx : ∀ e ∈ own, ∀ x ∈ xs, e.method.id ≠ x.method.id)
    (hp : xs.Pairwise fun x y => x.method.id ≠ y.method.id) : b'.Aligned (own ++ xs) := by
  induction xs generalizing own b with
  | nil =>
      cases h
      rwa [List.append_nil]
  | cons x xs ih =>
      rw [List.pairwise_cons] at hp
      rw [addAll, List.foldlM_cons] at h
      rcases hb.add_cases x with ⟨next, added, aligned, same⟩ | ⟨e, -, -, refused⟩
      · rw [added] at h
        rw [keep] at aligned
        cases found : Exposure.find? own x.name with
        | none =>
            rw [found] at aligned
            rw [List.append_cons]
            refine ih aligned h ?_ hp.2
            intro e he y hy
            rcases List.mem_append.mp he with he | he
            · exact hx e he y (List.mem_cons_of_mem _ hy)
            · rw [List.mem_singleton.mp he]
              exact hp.1 y hy
        | some e =>
            have one := same e found
            exact absurd one (hx e (Exposure.mem_of_find? found) x (List.mem_cons_self ..))
      · rw [refused] at h
        cases h

/-! ## The look-up of visible methods -/

theorem fst_run_addMethod (architecture : String) (a : Adapter σ) (b : Builder σ)
    (m : Method σ) (s : Setup) :
    ((addMethod architecture a b m).run s).1 =
      if m.visible architecture s.gating then b.addAll (ofMethod a m) else .ok b := by
  have asked : (Setup.deciding (m.checkVisible architecture) s).1 =
      m.visible architecture s.gating := rfl
  rw [addMethod, fst_run_bind, run_monadLift, asked]
  cases m.visible architecture s.gating with
  | false => rfl
  | true =>
      show ((MonadExcept.ofExcept _ : ExceptT _ (StateM Setup) _).run _).1 = _
      rw [run_ofExcept, if_pos rfl, addAll, ofMethod, List.foldlM_map]
      rfl

theorem fst_run_addAdapter (architecture : String) (b : Builder σ) (a : Adapter σ)
    (s : Setup) :
    ((addAdapter architecture b a).run s).1 = b.addAll (exposed architecture s.gating [a]) := by
  rw [addAdapter, fst_run_foldlM (moves_addMethod architecture a) (fst_run_addMethod architecture a)
    fun h => by funext b m; rw [m.visible_congr h.enabled]]
  rw [exposed, List.flatMap_singleton, addAll, foldlM_flatMap, List.foldlM_filter]
  rfl

/-- What the visible methods of adapters give: their exposures are added in order. -/
theorem fst_run_addAdapters (architecture : String) (b : Builder σ)
    (adapters : List (Adapter σ)) (s : Setup) :
    ((adapters.foldlM (addAdapter architecture) b).run s).1 =
      b.addAll (exposed architecture s.gating adapters) := by
  rw [fst_run_foldlM (moves_addAdapter architecture) (fst_run_addAdapter architecture)
    fun h => by funext b a; rw [Exposure.exposed_congr h.enabled]]
  simp only [addAll, exposed, List.flatMap_singleton]
  rw [foldlM_flatMap]

end Builder

end HostBridge.MethodTable

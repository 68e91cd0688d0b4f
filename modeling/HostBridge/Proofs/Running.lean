import Mathlib.Data.List.Forall2

/-!
# Running computations that fail and change a state

Registration and look-ups are computations over a state that may fail.  To run one
from a state gives its answer and the state afterwards, and a computation that
fails has changed the state all the same.

The first part says what a run of each way to put computations together is.

A computation *moves* its state along a relation if every run does, whether it
succeeds or fails.  For a relation that is reflexive and transitive, every
computation put together from moving ones moves too.

`fst_run_foldlM` uses this to take the state out of a loop.  If the answer of each
step depends on the state only up to the relation, the loop answers what it would
if no step changed the state.
-/

namespace HostBridge

variable {ε ε' σ α β γ : Type}

/-! ## Answers -/

theorem bind_eq_ok {x : Except ε α} {f : α → Except ε β} {b : β} :
    x.bind f = .ok b ↔ ∃ a, x = .ok a ∧ f a = .ok b := by
  cases x with
  | error e =>
      constructor
      · intro h
        cases h
      · rintro ⟨_, ⟨⟩, _⟩
  | ok a =>
      constructor
      · intro h
        exact ⟨a, rfl, h⟩
      · rintro ⟨_, ⟨⟩, h⟩
        exact h

theorem map_eq_ok {x : Except ε α} {f : α → β} {b : β} :
    x.map f = .ok b ↔ ∃ a, x = .ok a ∧ f a = b := by
  cases x with
  | error e =>
      constructor
      · intro h
        cases h
      · rintro ⟨_, ⟨⟩, _⟩
  | ok a =>
      constructor
      · intro h
        cases h
        exact ⟨a, rfl, rfl⟩
      · rintro ⟨_, ⟨⟩, rfl⟩
        rfl

theorem map_eq_error {x : Except ε α} {f : α → β} {e : ε} : x.map f = .error e ↔ x = .error e := by
  cases x with
  | error e' => simp [Except.map]
  | ok a => simp [Except.map]

/-- A computation with two parts fails as the first part does, or as the second if the
first goes well. -/
theorem bind_eq_error {x : Except ε α} {f : α → Except ε β} {e : ε} :
    x.bind f = .error e ↔ x = .error e ∨ ∃ a, x = .ok a ∧ f a = .error e := by
  cases x with
  | error e' =>
      constructor
      · rintro ⟨⟩
        exact .inl rfl
      · rintro (⟨⟨⟩⟩ | ⟨_, ⟨⟩, _⟩)
        rfl
  | ok a =>
      constructor
      · intro h
        exact .inr ⟨a, rfl, h⟩
      · rintro (⟨⟨⟩⟩ | ⟨_, ⟨⟩, h⟩)
        exact h

theorem mapError_eq_ok {x : Except ε α} {f : ε → ε'} {a : α} :
    x.mapError f = .ok a ↔ x = .ok a := by
  cases x with
  | error e => simp [Except.mapError]
  | ok a' => simp [Except.mapError]

theorem mapError_eq_error {x : Except ε α} {f : ε → ε'} {e' : ε'} :
    x.mapError f = .error e' ↔ ∃ e, x = .error e ∧ f e = e' := by
  cases x with
  | error e => simp [Except.mapError]
  | ok a => simp [Except.mapError]

/-- A list is processed if every element is. -/
theorem mapM_eq_ok_iff {f : α → Except ε β} {xs : List α} {ys : List β} :
    xs.mapM f = .ok ys ↔ List.Forall₂ (fun x y => f x = .ok y) xs ys := by
  induction xs generalizing ys with
  | nil =>
      rw [List.forall₂_nil_left_iff]
      constructor
      · intro h
        cases h
        rfl
      · rintro rfl
        rfl
  | cons x xs ih =>
      rw [List.mapM_cons]
      constructor
      · intro h
        obtain ⟨y, hy, h⟩ := bind_eq_ok.mp h
        obtain ⟨ys', hys, h⟩ := bind_eq_ok.mp h
        cases h
        exact .cons hy (ih.mp hys)
      · rintro (_ | ⟨hy, hys⟩)
        exact bind_eq_ok.mpr ⟨_, hy, bind_eq_ok.mpr ⟨_, ih.mpr hys, rfl⟩⟩

/-- An element fails with the error, and none before it fails. -/
def FailsFirst (f : α → Except ε β) (xs : List α) (e : ε) : Prop :=
  ∃ (i : Nat) (x : α), xs[i]? = some x ∧ f x = .error e ∧
    ∀ j < i, ∀ y, xs[j]? = some y → ∃ z, f y = .ok z

/-- Whatever comes after an element that fails does not matter. -/
theorem failsFirst_cons_of_error {f : α → Except ε β} {x : α} {e' : ε} (hx : f x = .error e')
    (xs : List α) (e : ε) : FailsFirst f (x :: xs) e ↔ e' = e := by
  constructor
  · rintro ⟨i, y, hi, hy, before⟩
    cases i with
    | zero =>
        cases hi
        cases hx.symm.trans hy
        rfl
    | succ i =>
        obtain ⟨z, hz⟩ := before 0 i.succ_pos x rfl
        cases hx.symm.trans hz
  · rintro rfl
    exact ⟨0, x, rfl, hx, fun j hj => absurd hj j.not_lt_zero⟩

/-- An element that does not fail does not matter. -/
theorem failsFirst_cons_of_ok {f : α → Except ε β} {x : α} {z : β} (hx : f x = .ok z)
    (xs : List α) (e : ε) : FailsFirst f (x :: xs) e ↔ FailsFirst f xs e := by
  constructor
  · rintro ⟨i, y, hi, hy, before⟩
    cases i with
    | zero =>
        cases hi
        cases hx.symm.trans hy
    | succ i => exact ⟨i, y, hi, hy, fun j hj => before (j + 1) (Nat.succ_lt_succ hj)⟩
  · rintro ⟨i, y, hi, hy, before⟩
    refine ⟨i + 1, y, hi, hy, fun j hj w hw => ?_⟩
    cases j with
    | zero =>
        cases hw
        exact ⟨z, hx⟩
    | succ j => exact before j (Nat.lt_of_succ_lt_succ hj) w hw

/-- A list is not processed because of the first element that is not. -/
theorem mapM_eq_error_iff {f : α → Except ε β} {xs : List α} {e : ε} :
    xs.mapM f = .error e ↔ FailsFirst f xs e := by
  induction xs with
  | nil =>
      constructor
      · intro h
        cases h
      · rintro ⟨i, x, hi, -⟩
        cases hi
  | cons x xs ih =>
      rw [List.mapM_cons]
      cases hx : f x with
      | error e' =>
          rw [failsFirst_cons_of_error hx]
          exact Except.error.injEq e' e ▸ Iff.rfl
      | ok z =>
          rw [failsFirst_cons_of_ok hx, ← ih]
          cases xs.mapM f with
          | error e' => exact Iff.rfl
          | ok zs => exact ⟨nofun, nofun⟩

/-- A list that is not processed has an element that is not, for the same reason. -/
theorem exists_of_mapM_eq_error {f : α → Except ε β} {xs : List α} {e : ε}
    (h : xs.mapM f = .error e) : ∃ x ∈ xs, f x = .error e := by
  obtain ⟨i, x, hi, hx, -⟩ := mapM_eq_error_iff.mp h
  exact ⟨x, List.mem_of_getElem? hi, hx⟩

/-- A check of a list passes if it passes for every element. -/
theorem forM_eq_ok_iff {f : α → Except ε Unit} {xs : List α} :
    xs.forM f = .ok () ↔ ∀ x ∈ xs, f x = .ok () := by
  induction xs with
  | nil => exact ⟨fun _ => List.forall_mem_nil _, fun _ => rfl⟩
  | cons x xs ih =>
      rw [List.forM, List.forall_mem_cons, ← ih]
      constructor
      · intro h
        obtain ⟨_, hx, hs⟩ := bind_eq_ok.mp h
        exact ⟨hx, hs⟩
      · rintro ⟨hx, hs⟩
        exact bind_eq_ok.mpr ⟨(), hx, hs⟩

theorem mapM_eq_some_iff {f : α → Option β} {xs : List α} {ys : List β} :
    xs.mapM f = some ys ↔ List.Forall₂ (fun x y => f x = some y) xs ys := by
  induction xs generalizing ys with
  | nil => cases ys <;> simp
  | cons x xs ih => cases ys <;> simp [Option.bind_eq_some_iff, ih]

theorem mapM_eq_none_iff {f : α → Option β} {xs : List α} :
    xs.mapM f = none ↔ ∃ x ∈ xs, f x = none := by
  induction xs with
  | nil => simp
  | cons x xs ih =>
      rw [List.mapM_cons, List.exists_mem_cons_iff, ← ih]
      cases f x <;> cases xs.mapM f <;> simp

/-- Related lists are related at every place. -/
theorem exists_getElem?_of_forall₂ {R : α → β → Prop} {xs : List α} {ys : List β}
    (h : List.Forall₂ R xs ys) {i : Nat} {x : α} (hx : xs[i]? = some x) :
    ∃ y, ys[i]? = some y ∧ R x y := by
  induction h generalizing i with
  | nil => cases hx
  | cons hxy _ ih =>
      cases i with
      | zero =>
          cases hx
          exact ⟨_, rfl, hxy⟩
      | succ i => exact ih hx

theorem exists_mem_of_forall₂ {R : α → β → Prop} {xs : List α} {ys : List β}
    (h : List.Forall₂ R xs ys) {y : β} (hy : y ∈ ys) : ∃ x ∈ xs, R x y := by
  obtain ⟨i, hi⟩ := List.mem_iff_getElem?.mp hy
  obtain ⟨x, hx, hr⟩ := exists_getElem?_of_forall₂ h.flip hi
  exact ⟨x, List.mem_of_getElem? hx, hr⟩

/-- What is related to each element makes a list. -/
theorem exists_forall₂ {R : α → β → Prop} {xs : List α} (h : ∀ x ∈ xs, ∃ y, R x y) :
    ∃ ys, List.Forall₂ R xs ys := by
  induction xs with
  | nil => exact ⟨[], .nil⟩
  | cons x xs ih =>
      obtain ⟨y, hy⟩ := h x (List.mem_cons_self ..)
      obtain ⟨ys, hys⟩ := ih fun x' hx => h x' (List.mem_cons_of_mem _ hx)
      exact ⟨y :: ys, .cons hy hys⟩

/-- What each element leads to by way of a related one makes a list. -/
theorem exists_forall₂_of_forall₂ {R : α → β → Prop} {P : β → γ → Prop} {Q : α → γ → Prop}
    {xs : List α} {ys : List β} (h : List.Forall₂ R xs ys)
    (step : ∀ x ∈ xs, ∀ y, R x y → ∃ z, P y z ∧ Q x z) :
    ∃ zs, List.Forall₂ P ys zs ∧ List.Forall₂ Q xs zs := by
  induction h with
  | nil => exact ⟨[], .nil, .nil⟩
  | cons hxy _ ih =>
      obtain ⟨first, later⟩ := List.forall_mem_cons.mp step
      obtain ⟨z, hp, hq⟩ := first _ hxy
      obtain ⟨zs, hps, hqs⟩ := ih later
      exact ⟨z :: zs, .cons hp hps, .cons hq hqs⟩

/-- What holds between the elements of a list holds between what they are related to. -/
theorem pairwise_of_forall₂ {R : α → β → Prop} {P : α → α → Prop} {Q : β → β → Prop}
    {xs : List α} {ys : List β} (h : List.Forall₂ R xs ys) (hp : xs.Pairwise P)
    (hq : ∀ {x y x' y'}, R x y → R x' y' → P x x' → Q y y') : ys.Pairwise Q := by
  induction h with
  | nil => exact .nil
  | cons hxy hrest ih =>
      obtain ⟨first, later⟩ := List.pairwise_cons.mp hp
      refine List.pairwise_cons.mpr ⟨fun y' hy' => ?_, ih later⟩
      obtain ⟨x', hx', hr⟩ := exists_mem_of_forall₂ hrest hy'
      exact hq hxy hr (first x' hx')

/-- Elements are told apart exactly if what they are related to is. -/
theorem pairwise_iff_of_forall₂ {R : α → β → Prop} {P : α → α → Prop} {Q : β → β → Prop}
    {xs : List α} {ys : List β} (h : List.Forall₂ R xs ys)
    (hq : ∀ {x y x' y'}, R x y → R x' y' → (P x x' ↔ Q y y')) :
    xs.Pairwise P ↔ ys.Pairwise Q :=
  ⟨fun hp => pairwise_of_forall₂ h hp fun a b => (hq a b).mp,
    fun hp => pairwise_of_forall₂ h.flip hp fun a b => (hq a b).mpr⟩

/-- What holds of all elements of one list holds of all of the other. -/
theorem forall_mem_iff_of_forall₂ {R : α → β → Prop} {P : α → Prop} {Q : β → Prop} {xs : List α}
    {ys : List β} (h : List.Forall₂ R xs ys) (hq : ∀ {x y}, R x y → (P x ↔ Q y)) :
    (∀ x ∈ xs, P x) ↔ ∀ y ∈ ys, Q y := by
  induction h with
  | nil => exact iff_of_true (List.forall_mem_nil _) (List.forall_mem_nil _)
  | cons hxy _ ih => rw [List.forall_mem_cons, List.forall_mem_cons, hq hxy, ih]

theorem forall_mem_flatten_iff {P : α → Prop} {xss : List (List α)} :
    (∀ x ∈ xss.flatten, P x) ↔ ∀ xs ∈ xss, ∀ x ∈ xs, P x := by
  simp only [List.mem_flatten]
  exact ⟨fun h xs hxs x hx => h x ⟨xs, hxs, hx⟩, fun h x ⟨xs, hxs, hx⟩ => h xs hxs x hx⟩

/-- Lists are related through a list between them. -/
theorem forall₂_trans {R : α → β → Prop} {S : β → γ → Prop} {T : α → γ → Prop}
    {xs : List α} {ys : List β} {zs : List γ} (hr : List.Forall₂ R xs ys)
    (hs : List.Forall₂ S ys zs) (h : ∀ {x y z}, R x y → S y z → T x z) :
    List.Forall₂ T xs zs := by
  induction hr generalizing zs with
  | nil =>
      cases hs
      exact .nil
  | cons hxy _ ih =>
      cases hs with
      | cons hyz rest => exact .cons (h hxy hyz) (ih rest)

/-- What is related to two lists put together is two lists put together. -/
theorem exists_append_of_forall₂ {R : α → β → Prop} {xs xs' : List α} {zs : List β}
    (h : List.Forall₂ R (xs ++ xs') zs) :
    ∃ ys ys', zs = ys ++ ys' ∧ List.Forall₂ R xs ys ∧ List.Forall₂ R xs' ys' := by
  have first := List.forall₂_take xs.length h
  have later := List.forall₂_drop xs.length h
  rw [List.take_left] at first
  rw [List.drop_left] at later
  exact ⟨_, _, (List.take_append_drop xs.length zs).symm, first, later⟩

theorem exists_flatten_of_forall₂ {R : α → β → Prop} {xss : List (List α)} {zs : List β}
    (h : List.Forall₂ R xss.flatten zs) :
    ∃ yss : List (List β), zs = yss.flatten ∧ List.Forall₂ (List.Forall₂ R) xss yss := by
  induction xss generalizing zs with
  | nil =>
      cases h
      exact ⟨[], rfl, .nil⟩
  | cons xs xss ih =>
      obtain ⟨ys, rest, rfl, first, later⟩ := exists_append_of_forall₂ h
      obtain ⟨yss, rfl, groups⟩ := ih later
      exact ⟨ys :: yss, rfl, .cons first groups⟩

/-- A relation that comes down to a property, where another one holds, holds throughout if
the property does. -/
theorem forall₂_iff_forall_mem {R S : α → β → Prop} {p : β → Prop} {xs : List α} {ys : List β}
    (h : List.Forall₂ S xs ys) (hs : ∀ x y, S x y → (R x y ↔ p y)) :
    List.Forall₂ R xs ys ↔ ∀ y ∈ ys, p y := by
  induction h with
  | nil => exact ⟨fun _ => List.forall_mem_nil _, fun _ => .nil⟩
  | cons hxy _ ih => rw [List.forall₂_cons, List.forall_mem_cons, ih, hs _ _ hxy]

/-- Two relations that come to the same for what elements are related to come to the same
for the lists. -/
theorem forall₂_iff_of_forall₂ {δ : Type} {P : α → γ → Prop} {Q : β → δ → Prop}
    {R : γ → δ → Prop} {S : α → β → Prop} {xs : List α} {ys : List β} {xs' : List γ}
    {ys' : List δ} (hx : List.Forall₂ P xs xs') (hy : List.Forall₂ Q ys ys')
    (h : ∀ x ∈ xs, ∀ y ∈ ys, ∀ x' y', P x x' → Q y y' → (R x' y' ↔ S x y)) :
    List.Forall₂ R xs' ys' ↔ List.Forall₂ S xs ys := by
  induction hx generalizing ys ys' with
  | nil =>
      cases hy with
      | nil => exact iff_of_true .nil .nil
      | cons => exact iff_of_false nofun nofun
  | @cons x x' xs xs' hxx _ ih =>
      cases hy with
      | nil => exact iff_of_false nofun nofun
      | @cons y y' ys ys' hyy hrest =>
          rw [List.forall₂_cons, List.forall₂_cons,
            h x (List.mem_cons_self ..) y (List.mem_cons_self ..) x' y' hxx hyy, ih hrest]
          intro u hu v hv
          exact h u (List.mem_cons_of_mem _ hu) v (List.mem_cons_of_mem _ hv)

/-! ## Runs -/

theorem run_bind (x : ExceptT ε (StateM σ) α) (f : α → ExceptT ε (StateM σ) β) (s : σ) :
    (x >>= f).run s =
      match x.run s with
      | (.ok a, s') => (f a).run s'
      | (.error e, s') => (.error e, s') := by
  show (match x s with | (a, s') => (ExceptT.bindCont f a) s') = _
  rw [ExceptT.run]
  rcases x s with ⟨_ | _, s'⟩ <;> rfl

@[simp] theorem run_pure (a : α) (s : σ) :
    (pure a : ExceptT ε (StateM σ) α).run s = (.ok a, s) := rfl

@[simp] theorem run_mk (x : StateM σ (Except ε α)) : (ExceptT.mk x).run = x := rfl

@[simp] theorem run_monadLift (x : StateM σ α) (s : σ) :
    (monadLift x : ExceptT ε (StateM σ) α).run s = (.ok (x s).1, (x s).2) := rfl

@[simp] theorem run_get (s : σ) : (get : ExceptT ε (StateM σ) σ).run s = (.ok s, s) := rfl

@[simp] theorem run_ofExcept (r : Except ε α) (s : σ) :
    (MonadExcept.ofExcept r : ExceptT ε (StateM σ) α).run s = (r, s) := by
  cases r <;> rfl

@[simp] theorem run_adapt (g : ε → ε') (x : ExceptT ε (StateM σ) α) (s : σ) :
    (ExceptT.adapt g x).run s = ((x.run s).1.mapError g, (x.run s).2) := rfl

/-- The answer of two computations one after the other. -/
theorem fst_run_bind (x : ExceptT ε (StateM σ) α) (f : α → ExceptT ε (StateM σ) β) (s : σ) :
    ((x >>= f).run s).1 = (x.run s).1.bind fun a => ((f a).run (x.run s).2).1 := by
  rw [run_bind]
  rcases x.run s with ⟨_ | _, s'⟩ <;> rfl

@[simp] theorem run_map (g : α → β) (x : ExceptT ε (StateM σ) α) (s : σ) :
    (g <$> x).run s = ((x.run s).1.map g, (x.run s).2) := by
  rw [map_eq_pure_bind, run_bind]
  rcases x.run s with ⟨_ | _, _⟩ <;> rfl

/-- Every answer of a loop is the answer for an element, from some state. -/
theorem exists_mem_of_mapM {f : α → ExceptT ε (StateM σ) β} {xs : List α} {ys : List β} {s : σ}
    (h : ((xs.mapM f).run s).1 = .ok ys) :
    ∀ y ∈ ys, ∃ x ∈ xs, ∃ s', ((f x).run s').1 = .ok y := by
  induction xs generalizing ys s with
  | nil =>
      cases h
      exact List.forall_mem_nil _
  | cons x xs ih =>
      rw [List.mapM_cons, fst_run_bind, bind_eq_ok] at h
      obtain ⟨y, hy, h⟩ := h
      rw [fst_run_bind, bind_eq_ok] at h
      obtain ⟨rest, hr, h⟩ := h
      cases h
      exact List.forall_mem_cons.mpr ⟨⟨x, List.mem_cons_self .., s, hy⟩, fun z hz =>
        (ih hr z hz).imp fun x' hx => ⟨List.mem_cons_of_mem _ hx.1, hx.2⟩⟩

/-- A loop of computations that do not fail is a computation that does not. -/
theorem run_mapM_monadLift (f : α → StateM σ β) (xs : List α) (s : σ) :
    (xs.mapM fun x => (monadLift (f x) : ExceptT ε (StateM σ) β)).run s =
      (.ok (xs.mapM f s).1, (xs.mapM f s).2) := by
  induction xs generalizing s with
  | nil => rfl
  | cons x xs ih =>
      rw [List.mapM_cons, run_bind, run_monadLift]
      dsimp only
      rw [run_bind, ih, List.mapM_cons]
      rfl

/-! ## Moving along a relation -/

/-- Every run leads along the relation, also one that fails. -/
def Moves (R : σ → σ → Prop) (x : ExceptT ε (StateM σ) α) : Prop := ∀ s, R s (x.run s).2

variable {R : σ → σ → Prop}

theorem moves_pure [Std.Refl R] (a : α) : Moves R (pure a : ExceptT ε (StateM σ) α) :=
  Std.Refl.refl

theorem moves_get [Std.Refl R] : Moves R (get : ExceptT ε (StateM σ) σ) := Std.Refl.refl

theorem moves_ofExcept [Std.Refl R] (r : Except ε α) :
    Moves R (MonadExcept.ofExcept r : ExceptT ε (StateM σ) α) := by
  intro s
  rw [run_ofExcept]
  exact Std.Refl.refl s

theorem moves_monadLift {x : StateM σ α} (h : ∀ s, R s (x s).2) :
    Moves R (monadLift x : ExceptT ε (StateM σ) α) := h

theorem moves_mk {x : StateM σ (Except ε α)} (h : ∀ s, R s (x s).2) :
    Moves R (ExceptT.mk x) := h

theorem moves_modify {f : σ → σ} (h : ∀ s, R s (f s)) :
    Moves R (modify f : ExceptT ε (StateM σ) PUnit) := h

theorem moves_adapt {g : ε → ε'} {x : ExceptT ε (StateM σ) α} (h : Moves R x) :
    Moves R (ExceptT.adapt g x) := h

theorem moves_bind [Trans R R R] {x : ExceptT ε (StateM σ) α}
    {f : α → ExceptT ε (StateM σ) β} (hx : Moves R x) (hf : ∀ a, Moves R (f a)) :
    Moves R (x >>= f) := by
  intro s
  have h := hx s
  rw [run_bind]
  cases hr : x.run s with
  | mk r s' =>
      rw [hr] at h
      cases r with
      | error e => exact h
      | ok a => exact Trans.trans h (hf a s')

/-- What comes second leads along the relation from where the first ended. -/
theorem rel_run_bind [Std.Refl R] {f : α → ExceptT ε (StateM σ) β} (hf : ∀ a, Moves R (f a))
    (x : ExceptT ε (StateM σ) α) (s : σ) : R (x.run s).2 ((x >>= f).run s).2 := by
  rw [run_bind]
  rcases x.run s with ⟨_ | a, s'⟩
  · exact Std.Refl.refl s'
  · exact hf a s'

theorem moves_ite {c : Prop} [Decidable c] {x y : ExceptT ε (StateM σ) α} (hx : Moves R x)
    (hy : Moves R y) : Moves R (if c then x else y) := by
  split
  · exact hx
  · exact hy

theorem moves_foldlM [Std.Refl R] [Trans R R R] {f : β → α → ExceptT ε (StateM σ) β}
    (h : ∀ b a, Moves R (f b a)) (xs : List α) (b : β) : Moves R (xs.foldlM f b) := by
  induction xs generalizing b with
  | nil => exact moves_pure b
  | cons x xs ih =>
      rw [List.foldlM_cons]
      exact moves_bind (h b x) ih

/-! ## Loops -/

/-- Each answer of a loop is the answer for its element, from a state on the way to the last
one. -/
theorem forall₂_mapM [Std.Refl R] [Trans R R R] {f : α → StateM σ β} (h : ∀ x s, R s (f x s).2)
    (xs : List α) (s : σ) :
    R s (xs.mapM f s).2 ∧
      List.Forall₂ (fun x y => ∃ s', y = (f x s').1 ∧ R (f x s').2 (xs.mapM f s).2) xs
        (xs.mapM f s).1 := by
  induction xs generalizing s with
  | nil => exact ⟨Std.Refl.refl s, .nil⟩
  | cons x xs ih =>
      obtain ⟨later, answers⟩ := ih (f x s).2
      rw [List.mapM_cons]
      exact ⟨Trans.trans (h x s) later, .cons ⟨s, rfl, later⟩ answers⟩

/-- A loop whose steps move the state along a relation, and whose answers depend on
the state only up to it, answers as if the state stayed. -/
theorem fst_run_foldlM {f : β → α → ExceptT ε (StateM σ) β} {g : σ → β → α → Except ε β}
    (hm : ∀ b a, Moves R (f b a)) (hf : ∀ b a s, ((f b a).run s).1 = g s b a)
    (hg : ∀ {s s'}, R s s' → g s' = g s) (xs : List α) (b : β) (s : σ) :
    ((xs.foldlM f b).run s).1 = xs.foldlM (g s) b := by
  induction xs generalizing b s with
  | nil => rfl
  | cons x xs ih =>
      rw [List.foldlM_cons, List.foldlM_cons, fst_run_bind, hf]
      cases g s b x with
      | error e => rfl
      | ok b' =>
          show ((xs.foldlM f b').run _).1 = _
          rw [ih, hg (hm b x s)]
          rfl

theorem mapM_congr {m : Type → Type} [Monad m] [LawfulMonad m] {f f' : α → m β} {xs : List α}
    (h : ∀ x ∈ xs, f x = f' x) : xs.mapM f = xs.mapM f' := by
  induction xs with
  | nil => rfl
  | cons x xs ih =>
      obtain ⟨first, rest⟩ := List.forall_mem_cons.mp h
      rw [List.mapM_cons, List.mapM_cons, first, ih rest]

/-- A loop over changed elements is the loop over the elements with its answers changed, if
every step is. -/
theorem mapM_map_of_forall {m : Type → Type} [Monad m] [LawfulMonad m] {δ : Type} {g : α → β}
    {f : β → m δ} {f' : α → m γ} {h : γ → δ} {xs : List α}
    (step : ∀ x ∈ xs, f (g x) = h <$> f' x) :
    (xs.map g).mapM f = List.map h <$> xs.mapM f' := by
  induction xs with
  | nil => simp
  | cons x xs ih =>
      obtain ⟨first, rest⟩ := List.forall_mem_cons.mp step
      rw [List.map_cons, List.mapM_cons, List.mapM_cons, first, ih rest]
      simp only [map_bind, bind_map_left, map_pure, List.map_cons]

/-- A loop over lists put together is a loop over the lists. -/
theorem foldlM_flatMap (f : α → List β) (g : γ → β → Except ε γ) (xs : List α) (c : γ) :
    (xs.flatMap f).foldlM g c = xs.foldlM (fun c x => (f x).foldlM g c) c := by
  induction xs generalizing c with
  | nil => rfl
  | cons x xs ih =>
      rw [List.flatMap_cons, List.foldlM_append, List.foldlM_cons]
      cases (f x).foldlM g c with
      | error e => rfl
      | ok c' => exact ih c'

end HostBridge

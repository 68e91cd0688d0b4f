import HostBridge.Declaration.Layout

/-!
# Blocks of parameters

The parameters of a method come in five blocks: those the host supplies by position,
those it supplies by name, the required arguments of the script, the optional ones, and
at most one variadic one.  A parameter list is `Arranged` if it is put together from
five such blocks in this order.

The same can be said without blocks, by comparing each parameter with those after it.
`Block.Precedes` is this comparison.  `arranged_iff` says that a list is arranged, with
names that are told apart, exactly if every parameter precedes all that follow.  The
first form is easy to read, the second one is kept up by a reader that goes through the
list once.
-/

namespace HostBridge

/-- The part of a parameter list that a parameter belongs to. -/
inductive Block where
  /-- Supplied by the host by position. -/
  | positional
  /-- Supplied by the host under a name. -/
  | env (name : String)
  /-- Supplied by the script, always. -/
  | required
  /-- Supplied by the script, if it wants to. -/
  | optional
  /-- Supplied by the script, any number of times. -/
  | variadic
  /-- No part: supplied by the host but marked as only arguments of the script may be. -/
  | misplaced
deriving DecidableEq, Repr

/-- The part of a parameter list that a parameter belongs to. -/
def Param.block (p : Param) : Block :=
  match p.role with
  | .positional => if p.optional || p.variadic then .misplaced else .positional
  | .env name => if p.optional || p.variadic then .misplaced else .env name
  | .script .. => if p.variadic then .variadic else if p.optional then .optional else .required

namespace Block

/-- The place of the part in a parameter list. -/
def rank : Block → Nat
  | positional => 0
  | env _ => 1
  | required => 2
  | optional => 3
  | variadic => 4
  | misplaced => 0

/-- The name under which the host supplies a parameter. -/
def name? : Block → Option String
  | env name => some name
  | _ => none

/-- A parameter of the one part may have one of the other after it. -/
def Precedes (a b : Block) : Prop :=
  a.rank ≤ b.rank ∧ a ≠ variadic ∧ ∀ n ∈ a.name?, n ∉ b.name?

theorem rank_le (b : Block) : b.rank ≤ 4 := by
  cases b <;> simp [rank]

/-- A part is known by its rank, except for the names. -/
theorem eq_of_rank {b c : Block} (h : b.rank = c.rank) (hb : b ≠ misplaced) (hc : c ≠ misplaced)
    (hn : c.name? = none) : b = c := by
  cases b <;> cases c <;> simp_all [rank, name?]

theorem eq_env_of_rank {b : Block} (h : b.rank = 1) : ∃ name, b = env name := by
  cases b with
  | env name => exact ⟨name, rfl⟩
  | _ => cases h

/-- A part precedes all that come later. -/
theorem precedes_of_lt {a b : Block} (h : a.rank < b.rank) : a.Precedes b := by
  refine ⟨Nat.le_of_lt h, ?_, ?_⟩
  · rintro rfl
    exact absurd (rank_le b) (Nat.not_le_of_lt h)
  · intro n ha hb
    cases a <;> cases ha
    cases b <;> cases hb
    exact absurd h (Nat.lt_irrefl _)

/-- A part may be repeated unless there is a reason against it. -/
theorem precedes_self {b : Block} (hv : b ≠ variadic) (hn : b.name? = none) : b.Precedes b := by
  refine ⟨Nat.le_refl _, hv, ?_⟩
  intro n h
  rw [hn] at h
  cases h

end Block

/-! ## Arranged lists -/

/-- The names under which the host supplies parameters. -/
def envNames (params : List Param) : List String := params.filterMap fun p => p.block.name?

/-- The list is put together from the five parts. -/
def Arranged (params : List Param) : Prop :=
  ∃ positional env required optional variadic : List Param,
    params = positional ++ env ++ required ++ optional ++ variadic ∧
    (∀ p ∈ positional, p.block = .positional) ∧
    (∀ p ∈ env, ∃ name, p.block = .env name) ∧
    (∀ p ∈ required, p.block = .required) ∧
    (∀ p ∈ optional, p.block = .optional) ∧
    (∀ p ∈ variadic, p.block = .variadic) ∧
    variadic.length ≤ 1

/-- Every parameter precedes all that follow. -/
def Ordered (params : List Param) : Prop := params.Pairwise fun p q => p.block.Precedes q.block

/-- The list is in order and has no parameter of a part beyond the rank. -/
def OrderedUpTo (k : Nat) (params : List Param) : Prop :=
  Ordered params ∧ ∀ p ∈ params, p.block.rank ≤ k

/-- The next part may be put after all earlier ones. -/
theorem OrderedUpTo.append {k : Nat} {xs ys : List Param} (hx : OrderedUpTo k xs)
    (hy : Ordered ys) (hk : ∀ q ∈ ys, q.block.rank = k + 1) : OrderedUpTo (k + 1) (xs ++ ys) := by
  constructor
  · rw [Ordered, List.pairwise_append]
    refine ⟨hx.1, hy, ?_⟩
    intro p hp q hq
    have before := hx.2 p hp
    have after := hk q hq
    exact Block.precedes_of_lt (by omega)
  · intro p hp
    cases List.mem_append.mp hp with
    | inl hp => exact Nat.le_succ_of_le (hx.2 p hp)
    | inr hp => exact Nat.le_of_eq (hk p hp)

theorem forall_rank_eq {b : Block} {xs : List Param} (h : ∀ p ∈ xs, p.block = b) :
    ∀ p ∈ xs, p.block.rank = b.rank := by
  intro p hp
  rw [h p hp]

theorem ordered_of_forall_eq {b : Block} {xs : List Param} (h : ∀ p ∈ xs, p.block = b)
    (hb : b.Precedes b) : Ordered xs := by
  refine List.pairwise_of_forall_mem_list fun p hp q hq => ?_
  rw [h p hp, h q hq]
  exact hb

/-- Parameters with names are in order if the names are told apart. -/
theorem ordered_of_env {xs : List Param} (h : ∀ p ∈ xs, ∃ name, p.block = .env name)
    (hn : (envNames xs).Nodup) : Ordered xs := by
  rw [envNames, List.Nodup, List.pairwise_filterMap] at hn
  refine hn.imp_of_mem fun {p q} hp hq hpq => ?_
  obtain ⟨n, hn⟩ := h p hp
  obtain ⟨n', hn'⟩ := h q hq
  rw [hn, hn'] at hpq ⊢
  refine ⟨Nat.le_refl _, ?_, ?_⟩
  · intro h
    cases h
  · rintro _ ⟨⟩ ⟨⟩
    exact hpq n rfl n rfl rfl

theorem ordered_of_length_le {xs : List Param} (h : xs.length ≤ 1) : Ordered xs := by
  match xs, h with
  | [], _ => exact .nil
  | [_], _ => exact List.pairwise_singleton ..

/-- In a list in order, those from a part on are those of the part and then the rest. -/
theorem filter_rank_eq {params : List Param} (h : Ordered params) (k : Nat) :
    (params.filter fun p => k ≤ p.block.rank) =
      (params.filter fun p => p.block.rank = k) ++ params.filter fun p => k + 1 ≤ p.block.rank := by
  induction params with
  | nil => rfl
  | cons p params ih =>
      obtain ⟨hp, hrest⟩ := List.pairwise_cons.mp h
      rcases Nat.lt_trichotomy p.block.rank k with hk | hk | hk
      · rw [List.filter_cons_of_neg, List.filter_cons_of_neg, List.filter_cons_of_neg]
        · exact ih hrest
        all_goals rw [decide_eq_true_eq]; omega
      · rw [List.filter_cons_of_pos, List.filter_cons_of_pos, List.filter_cons_of_neg]
        · rw [ih hrest]
          rfl
        all_goals rw [decide_eq_true_eq]; omega
      · -- The part ended before, so all that follow are of later parts.
        have later : (params.filter fun q => q.block.rank = k) = [] := by
          rw [List.filter_eq_nil_iff]
          intro q hq
          have := (hp q hq).1
          rw [decide_eq_true_eq]
          omega
        rw [List.filter_cons_of_pos, List.filter_cons_of_neg, List.filter_cons_of_pos, ih hrest,
          later]
        · rfl
        all_goals rw [decide_eq_true_eq]; omega

/-- Parts put together are in order. -/
theorem ordered_of_arranged {params : List Param} (h : Arranged params)
    (hn : (envNames params).Nodup) : Ordered params := by
  obtain ⟨positional, env, required, optional, variadic, rfl, hp, he, hr, ho, hv, hl⟩ := h
  have hen : (envNames env).Nodup := by
    refine hn.sublist (List.Sublist.filterMap _ ?_)
    simp only [List.append_assoc]
    exact (List.sublist_append_left ..).trans (List.sublist_append_right ..)
  have named : ∀ p ∈ env, p.block.rank = 1 := by
    intro p h
    obtain ⟨n, hn⟩ := he p h
    simp [hn, Block.rank]
  -- The rank grows by one from part to part.
  have first : OrderedUpTo 0 positional := by
    constructor
    · exact ordered_of_forall_eq hp (Block.precedes_self (by simp) rfl)
    · intro p h
      exact Nat.le_of_eq (forall_rank_eq hp p h)
  have second := first.append (ordered_of_env he hen) named
  have third := second.append
    (ordered_of_forall_eq hr (Block.precedes_self (by simp) rfl)) (forall_rank_eq hr)
  have fourth := third.append
    (ordered_of_forall_eq ho (Block.precedes_self (by simp) rfl)) (forall_rank_eq ho)
  exact (fourth.append (ordered_of_length_le hl) (forall_rank_eq hv)).1

theorem Ordered.nodup_envNames {params : List Param} (h : Ordered params) :
    (envNames params).Nodup := by
  rw [envNames, List.Nodup, List.pairwise_filterMap]
  refine List.Pairwise.imp ?_ h
  intro p q hpq n hn n' hn' same
  cases same
  exact hpq.2.2 n hn hn'

/-- A list in order is put together from its parts. -/
theorem Ordered.arranged {params : List Param} (h : Ordered params)
    (hm : ∀ p ∈ params, p.block ≠ .misplaced) : Arranged params := by
  have split :=
    calc params
      _ = params.filter fun p => 0 ≤ p.block.rank :=
          (List.filter_eq_self.mpr fun p _ => by simp).symm
      _ = _ := by
          rw [filter_rank_eq h 0, filter_rank_eq h 1, filter_rank_eq h 2, filter_rank_eq h 3,
            filter_rank_eq h 4]
  have rest : (params.filter fun p => 5 ≤ p.block.rank) = [] := by
    refine List.filter_eq_nil_iff.mpr ?_
    intro p _
    have := p.block.rank_le
    simp
    omega
  rw [rest, List.append_nil] at split
  simp only [← List.append_assoc] at split
  have inPart (b : Block) (hb : b ≠ .misplaced) (hn : b.name? = none) :
      ∀ p ∈ params.filter fun p => p.block.rank = b.rank, p.block = b := by
    intro p hp
    obtain ⟨hmem, hrank⟩ := List.mem_filter.mp hp
    exact Block.eq_of_rank (of_decide_eq_true hrank) (hm p hmem) hb hn
  refine ⟨_, _, _, _, _, split, inPart .positional (by simp) rfl, ?_,
    inPart .required (by simp) rfl, inPart .optional (by simp) rfl,
    inPart .variadic (by simp) rfl, ?_⟩
  · intro p hp
    exact Block.eq_env_of_rank (of_decide_eq_true (List.mem_filter.mp hp).2)
  · -- Nothing follows a variadic parameter.
    have once := h.filter fun p => p.block.rank = 4
    have variadic : ∀ p ∈ params.filter fun p => p.block.rank = 4, p.block = .variadic :=
      inPart .variadic (by simp) rfl
    cases hf : params.filter fun p => p.block.rank = 4 with
    | nil => exact Nat.zero_le 1
    | cons p rest =>
        rw [hf] at once variadic
        cases rest with
        | nil => exact Nat.le_refl 1
        | cons q rest =>
            have before := (List.pairwise_cons.mp once).1 q (List.mem_cons_self ..)
            exact absurd (variadic p (List.mem_cons_self ..)) before.2.1

/-- To be arranged, with names told apart, is to be in order. -/
theorem arranged_iff (params : List Param) :
    Arranged params ∧ (envNames params).Nodup ↔
      (∀ p ∈ params, p.block ≠ .misplaced) ∧ Ordered params := by
  constructor
  · rintro ⟨h, hn⟩
    refine ⟨?_, ordered_of_arranged h hn⟩
    obtain ⟨positional, env, required, optional, variadic, rfl, hp, he, hr, ho, hv, -⟩ := h
    simp only [List.mem_append]
    rintro p ((((h | h) | h) | h) | h) hb
    · simp [hp p h] at hb
    · obtain ⟨n, hn⟩ := he p h
      simp [hn] at hb
    · simp [hr p h] at hb
    · simp [ho p h] at hb
    · simp [hv p h] at hb
  · rintro ⟨hm, h⟩
    exact ⟨h.arranged hm, h.nodup_envNames⟩

end HostBridge

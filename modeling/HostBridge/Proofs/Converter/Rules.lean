import HostBridge.Converter.Stock
import HostBridge.Proofs.Converter.Plain
import HostBridge.Proofs.Script.Sequence

/-!
# The reach of rules

A converter asks its rules before it decides by itself.  Where it takes a value apart, it
asks itself about the parts, and so its rules as well.  There is one exception: at type
`any`, the keys and values of a dictionary take their natural forms, about which no rule is
asked.

`Freeform` says what that comes to for a table whose own conversion no rule takes over.  A
sequence is converted item by item.  A dictionary is only converted entry by entry if some
part of it has no host value anyway, or if the rules leave the natural forms of all its
parts as they are.  To dictionaries of dictionaries the rules make no difference at all.
-/

namespace HostBridge.Converter.Standard

open Script (Table)

variable {rules : List Rule} {t : Table} {v : Script.Value}

/-- No rule has an answer for the value at the type. -/
def Declines (rules : List Rule) (v : Script.Value) (ty : Host.Ty) : Prop :=
  rules.findSome? (fun rule => rule.toHost v ty fun v ty _ => toHost rules v ty) = none

/-! ## Natural forms and rules -/

theorem natural_of_declines (h : Declines rules v .any) : natural rules v = toHost rules v .any := by
  unfold Declines at h
  rw [toHost.eq_def rules v, h]

/-- What has no host value at any type has no natural form. -/
theorem natural_eq_none (h : toHost rules v .any = none) : natural rules v = none := by
  rw [natural_of_declines, h]
  rw [toHost.eq_def] at h
  split at h
  · cases h
  · assumption

theorem natural_table (rules : List Rule) (t : Table) :
    natural rules (.table t) =
      ((toHostItems rules t .any).map .list).or
        ((t.mapM (entryBy (natural rules) (natural rules))).map .map) := by
  rw [natural.eq_def]
  dsimp only
  rw [collect_entries_eq_mapM]
  cases toHostItems rules t .any <;> rfl

/-- The natural form of a sequence has no natural forms in it, but converted items. -/
theorem natural_of_sequence {items : List Script.Value} (h : Table.sequence? t = some items) :
    natural rules (.table t) = (items.mapM fun v => toHost rules v .any).map .list := by
  rw [natural_table, toHostItems_eq, h, Option.bind_some]
  cases hc : items.mapM fun v => toHost rules v .any with
  | some converted => rfl
  | none =>
      -- The sequence is tried as a dictionary, but the item without host value is in it.
      obtain ⟨v, hv, refused⟩ := mapM_eq_none_iff.mp hc
      obtain ⟨k, hk⟩ := Table.mem_of_sequence? h hv
      have entries : t.mapM (entryBy (natural rules) (natural rules)) = none :=
        mapM_eq_none_iff.mpr ⟨(k, v), hk, entryBy_eq_none_iff.mpr (.inr (natural_eq_none refused))⟩
      rw [entries]
      rfl

theorem natural_of_dictionary (h : Table.sequence? t = none) :
    natural rules (.table t) = (t.mapM (entryBy (natural rules) (natural rules))).map .map := by
  rw [natural_table, toHostItems_eq, h]
  rfl

/-! ## Dictionaries -/

/-- To convert entries in two ways comes to the same if one of them is refused in either
way, or if all are converted alike.  Here the first way refuses all that the second does. -/
theorem mapM_entryBy_eq_iff {f g : Script.Value → Option Host.Value}
    (refused : ∀ v, g v = none → f v = none) :
    t.mapM (entryBy f f) = t.mapM (entryBy g g) ↔
      (∃ e ∈ t, g e.1 = none ∨ g e.2 = none) ∨ ∀ e ∈ t, f e.1 = g e.1 ∧ f e.2 = g e.2 := by
  cases hg : t.mapM (entryBy g g) with
  | none =>
      obtain ⟨e, he, part⟩ := mapM_eq_none_iff.mp hg
      have either := entryBy_eq_none_iff.mp part
      refine iff_of_true (mapM_eq_none_iff.mpr ⟨e, he, ?_⟩) (.inl ⟨e, he, either⟩)
      exact entryBy_eq_none_iff.mpr (either.imp (refused _) (refused _))
  | some rs =>
      have none_refused : ¬ ∃ e ∈ t, g e.1 = none ∨ g e.2 = none := by
        rintro ⟨e, he, either⟩
        cases hg.symm.trans (mapM_eq_none_iff.mpr ⟨e, he, entryBy_eq_none_iff.mpr either⟩)
      rw [or_iff_right none_refused]
      constructor
      · intro hf e he
        obtain ⟨i, hi⟩ := List.mem_iff_getElem?.mp he
        obtain ⟨r, hr, hge⟩ := exists_getElem?_of_forall₂ (mapM_eq_some_iff.mp hg) hi
        obtain ⟨r', hr', hfe⟩ := exists_getElem?_of_forall₂ (mapM_eq_some_iff.mp hf) hi
        cases hr.symm.trans hr'
        obtain ⟨hk, hv⟩ := entryBy_eq_some_iff.mp hge
        obtain ⟨hk', hv'⟩ := entryBy_eq_some_iff.mp hfe
        exact ⟨hk'.trans hk.symm, hv'.trans hv.symm⟩
      · intro alike
        rw [← hg]
        refine mapM_congr fun e he => ?_
        rw [entryBy, entryBy, (alike e he).1, (alike e he).2]

/-- There is no sequence in the value, but only dictionaries. -/
inductive Keyed : Script.Value → Prop where
  | nil : Keyed .nil
  | boolean (b : Bool) : Keyed (.boolean b)
  | number (x : Binary64) : Keyed (.number x)
  | string (s : String) : Keyed (.string s)
  | table {t : Table} (h : Table.sequence? t = none) (keys : ∀ e ∈ t, Keyed e.1)
      (values : ∀ e ∈ t, Keyed e.2) : Keyed (.table t)

/-- The natural form of such a value is the same for all rules. -/
theorem natural_of_keyed (h : Keyed v) (rules rules' : List Rule) :
    natural rules v = natural rules' v := by
  induction h with
  | table h _ _ keys values =>
      rw [natural_of_dictionary h, natural_of_dictionary h]
      refine congrArg _ (mapM_congr fun e he => ?_)
      rw [entryBy, entryBy, keys e he, values e he]
  | _ => rw [natural, natural]

/-! ## Tables at any type -/

/-- What a table comes to at type `any`, if the rules decline to convert the table itself. -/
structure Freeform (rules : List Rule) (t : Table) : Prop where
  /-- The items of a sequence are converted, and the rules are asked about each. -/
  sequence : ∀ items, Table.sequence? t = some items →
    toHost rules (.table t) .any = (items.mapM fun v => toHost rules v .any).map .list
  /-- A sequence has no host value exactly if one of its items has none. -/
  refused_iff : ∀ items, Table.sequence? t = some items →
    (toHost rules (.table t) .any = none ↔ ∃ v ∈ items, toHost rules v .any = none)
  /-- The keys and values of a dictionary take their natural forms. -/
  dictionary : Table.sequence? t = none →
    toHost rules (.table t) .any =
      (t.mapM (entryBy (natural rules) (natural rules))).map .map
  /-- This is to convert them only if one has no host value, or if each has its natural
  form as host value. -/
  converted_iff : Table.sequence? t = none →
    (toHost rules (.table t) .any =
        (t.mapM (entryBy (toHost rules · .any) (toHost rules · .any))).map .map ↔
      (∃ e ∈ t, toHost rules e.1 .any = none ∨ toHost rules e.2 .any = none) ∨
        ∀ e ∈ t, natural rules e.1 = toHost rules e.1 .any ∧
          natural rules e.2 = toHost rules e.2 .any)
  /-- The natural form is what a value is converted to that the rules decline as well. -/
  natural_eq : ∀ v, Declines rules v .any → natural rules v = toHost rules v .any
  /-- If there are only dictionaries, rules or none make no difference. -/
  unruled : Keyed (.table t) → toHost rules (.table t) .any = toHost [] (.table t) .any

/-- Rules reach the items of a sequence, but not the keys and values of a dictionary. -/
theorem freeform_of_declines (h : Declines rules (.table t) .any) : Freeform rules t where
  sequence items hs := by rw [← natural_of_declines h, natural_of_sequence hs]
  refused_iff items hs := by
    rw [← natural_of_declines h, natural_of_sequence hs, Option.map_eq_none_iff,
      mapM_eq_none_iff]
  dictionary hs := by rw [← natural_of_declines h, natural_of_dictionary hs]
  converted_iff hs := by
    rw [← natural_of_declines h, natural_of_dictionary hs]
    exact (Option.map_injective fun _ _ => Host.Value.map.inj).eq_iff.trans
      (mapM_entryBy_eq_iff fun _ => natural_eq_none)
  natural_eq _ := natural_of_declines
  unruled keyed := by
    rw [← natural_of_declines h,
      ← natural_of_declines (show Declines [] _ _ from rfl), natural_of_keyed keyed rules []]

theorem toHost_nilAsNull : toHost [.nilAsNull] .nil .any = some .null := by
  rw [toHost]
  rfl

/-- A rule for nil applies to the item of a sequence. -/
theorem freeform_of_declines_nil :
    Declines [.nilAsNull] (.table (Table.ofSequence [.nil])) .any ∧
    toHost [.nilAsNull] (.table (Table.ofSequence [.nil])) .any = some (.list [.null]) := by
  have declines : Declines [.nilAsNull] (.table (Table.ofSequence [.nil])) .any := rfl
  have sequence : Table.sequence? (Table.ofSequence [.nil]) = some [.nil] :=
    Table.sequence?_ofSequence (by decide +kernel)
  refine ⟨declines, ?_⟩
  rw [(freeform_of_declines declines).sequence _ sequence, List.mapM_cons, toHost_nilAsNull]
  rfl

/-- The rule does not apply to the value of a dictionary, which has no host value then. -/
theorem not_freeform_converted :
    ¬ ∀ (rules : List Rule) (t : Table), Declines rules (.table t) .any →
      (∀ items, Table.sequence? t = some items →
        toHost rules (.table t) .any = (items.mapM fun v => toHost rules v .any).map .list) ∧
      (Table.sequence? t = none →
        toHost rules (.table t) .any =
          (t.mapM (entryBy (toHost rules · .any) (toHost rules · .any))).map .map) := by
  intro converted
  have declines : Declines [.nilAsNull] (.table [(.string "key", .nil)]) .any := rfl
  have dictionary : Table.sequence? [(.string "key", .nil)] = none := rfl
  have key : toHost [.nilAsNull] (.string "key") .any = some (.string "key") := by
    rw [toHost, natural]
    rfl
  have given : List.mapM (entryBy (toHost [.nilAsNull] · .any) (toHost [.nilAsNull] · .any))
      [(.string "key", .nil)] = some [(.string "key", .null)] :=
    mapM_eq_some_iff.mpr (.cons (entryBy_eq_some_iff.mpr ⟨key, toHost_nilAsNull⟩) .nil)
  have refused : List.mapM (entryBy (natural [.nilAsNull]) (natural [.nilAsNull]))
      [(.string "key", .nil)] = none :=
    mapM_eq_none_iff.mpr
      ⟨_, List.mem_singleton_self _, entryBy_eq_none_iff.mpr (.inr (by rw [natural]))⟩
  have entries := (converted _ _ declines).2 dictionary
  rw [← natural_of_declines declines, natural_of_dictionary dictionary, given, refused] at entries
  cases entries

end HostBridge.Converter.Standard

import HostBridge.Proofs.Declaration.ArgumentValues

/-!
# The places of script arguments

The arguments of a call are read one after the other, each from the values that the ones
before it have left.  Which values those are depends on what was read, and on whether
reading went well.

The outcome does not.  `Argument.valueAt` says what an argument is worth, given its place
alone: a variadic argument collects the values from its place on, and any other looks at
the value at its place.  `Declaration.positionalArguments` asks every argument in turn and
then looks at the number of values.  `convertArguments_eq` says that reading comes to the
same, for declarations, where only the last argument can be variadic.  `Placed` collects
what follows for the answers and the errors of a call.
-/

namespace HostBridge

/-! ## One argument -/

/-- The name of the argument that an error is about. -/
def ArgumentError.argument? : ArgumentError → Option String
  | .notEnough name => some name
  | .isNil name => some name
  | .inconvertible name _ _ => some name
  | .tooMany _ _ => none

namespace Argument

variable {converter : Converter}

/-- What a script value is worth to an argument, if nil is worth `onNil`. -/
def worth (a : Argument) (converter : Converter) (ty : Host.Ty)
    (onNil : Except ArgumentError Host.Value) : Script.Value → Except ArgumentError Host.Value
  | .nil => onNil
  | v =>
      match converter.toHost v ty with
      | some converted => .ok converted
      | none => .error (.inconvertible a.name v ty)

/-- What a script value is worth to a variadic argument. -/
def elementWorth (a : Argument) (converter : Converter) (nullable : Bool) :
    Script.Value → Except ArgumentError Host.Value :=
  a.worth converter a.elementType (if nullable then .ok .null else .error (.isNil a.name))

/-- What an argument is worth that stands at a place among the values of a call. -/
def valueAt (a : Argument) (converter : Converter) (values : List Script.Value) (place : Nat) :
    Except ArgumentError Host.Value :=
  match a.presence with
  | .required =>
      match values[place]? with
      | none => .error (.notEnough a.name)
      | some v => a.worth converter a.ty (.error (.isNil a.name)) v
  | .optional =>
      match values[place]? with
      | none => .ok .null
      | some v => a.worth converter a.ty (.ok .null) v
  | .variadic nullable =>
      ((values.drop place).mapM (a.elementWorth converter nullable)).map .array

theorem convertElement_eq (a : Argument) (converter : Converter) (nullable : Bool) :
    a.convertElement converter nullable = a.elementWorth converter nullable := by
  funext v
  cases v <;> rfl

/-- If no value is refused, none is left. -/
theorem snd_readAll {one : Script.Value → Except ArgumentError Host.Value}
    {values : List Script.Value} {converted : List Host.Value}
    (h : (readAll one values).1 = .ok converted) : (readAll one values).2 = [] := by
  induction values generalizing converted with
  | nil => rfl
  | cons v rest ih =>
      rw [readAll] at h ⊢
      cases hv : one v with
      | error e =>
          rw [hv] at h
          cases h
      | ok first =>
          rw [hv] at h
          obtain ⟨later, hl, -⟩ := map_eq_ok.mp h
          exact ih hl

/-- What is read for an argument is what it is worth at its place. -/
theorem fst_read (a : Argument) (converter : Converter) (values : List Script.Value)
    (place : Nat) :
    (a.read converter (values.drop place)).1 = a.valueAt converter values place := by
  unfold read valueAt
  rw [← List.head?_drop]
  cases a.presence with
  | required =>
      cases values.drop place with
      | nil => rfl
      | cons v rest => cases v <;> rfl
  | optional =>
      cases values.drop place with
      | nil => rfl
      | cons v rest => cases v <;> rfl
  | variadic nullable =>
      show (readAll (a.convertElement converter nullable) _).1.map _ = _
      rw [fst_readAll, convertElement_eq]

/-- A variadic argument leaves no values. -/
theorem snd_read_of_variadic {a : Argument} (h : a.isVariadic = true) {converter : Converter}
    {values : List Script.Value} {v : Host.Value} (hr : (a.read converter values).1 = .ok v) :
    (a.read converter values).2 = [] := by
  obtain ⟨nullable, hp⟩ := Layout.isVariadic_iff.mp h
  unfold read at hr ⊢
  rw [hp] at hr ⊢
  obtain ⟨items, hi, -⟩ := map_eq_ok.mp hr
  exact snd_readAll hi

/-- Only a variadic argument looks further than at its place. -/
theorem valueAt_congr {a : Argument} {values values' : List Script.Value} {place : Nat}
    (h : values[place]? = values'[place]?)
    (hd : a.isVariadic = true → values.drop place = values'.drop place) :
    a.valueAt converter values place = a.valueAt converter values' place := by
  unfold valueAt
  cases hp : a.presence with
  | required => rw [h]
  | optional => rw [h]
  | variadic nullable => rw [hd (Layout.isVariadic_iff.mpr ⟨nullable, hp⟩)]

/-! ### Errors -/

theorem argument?_of_worth {a : Argument} {ty : Host.Ty} {onNil : Except ArgumentError Host.Value}
    {e : ArgumentError} (hn : ∀ e, onNil = .error e → e.argument? = some a.name)
    {v : Script.Value} (h : a.worth converter ty onNil v = .error e) :
    e.argument? = some a.name := by
  unfold worth at h
  split at h
  · exact hn e h
  · split at h
    · cases h
    · cases h
      rfl

/-- What an argument is not worth is an error that names the argument. -/
theorem argument?_of_valueAt {a : Argument} {values : List Script.Value} {place : Nat}
    {e : ArgumentError} (h : a.valueAt converter values place = .error e) :
    e.argument? = some a.name := by
  have named : ∀ e, (.error (.isNil a.name) : Except ArgumentError Host.Value) = .error e →
      e.argument? = some a.name := by
    rintro e ⟨⟩
    rfl
  have null : ∀ e, (.ok .null : Except ArgumentError Host.Value) = .error e →
      e.argument? = some a.name := by
    rintro e ⟨⟩
  unfold valueAt at h
  cases hp : a.presence with
  | required =>
      rw [hp] at h
      dsimp only at h
      split at h
      · cases h
        rfl
      · exact argument?_of_worth named h
  | optional =>
      rw [hp] at h
      dsimp only at h
      split at h
      · cases h
      · exact argument?_of_worth null h
  | variadic nullable =>
      rw [hp] at h
      obtain ⟨v, -, hv⟩ := exists_of_mapM_eq_error (map_eq_error.mp h)
      refine argument?_of_worth ?_ hv
      cases nullable
      · exact named
      · exact null

end Argument

/-! ## All arguments -/

namespace Declaration

variable {converter : Converter} {values : List Script.Value}

/-- What arguments are worth, the first of which stands at a place. -/
def worthFrom (converter : Converter) (values : List Script.Value) (arguments : List Argument)
    (place : Nat) : Except ArgumentError (List Host.Value) :=
  (arguments.zipIdx place).mapM fun p => p.1.valueAt converter values p.2

/-- Whether an argument takes all values that are left. -/
def takesRest (d : Declaration) : Bool := d.arguments.any Argument.isVariadic

/-- The arguments are worth these host values. -/
def Worth (d : Declaration) (converter : Converter) (values : List Script.Value)
    (converted : List Host.Value) : Prop :=
  List.Forall₂ (fun p v => p.1.valueAt converter values p.2 = .ok v) d.arguments.zipIdx converted

/-- No argument has an error, but values are left. -/
structure Surplus (d : Declaration) (converter : Converter) (values : List Script.Value) :
    Prop where
  worth : ∃ converted, d.Worth converter values converted
  taken : d.takesRest = false
  length_lt : d.arguments.length < values.length

/-- The host values for the script arguments of a call, by the places of the arguments. -/
def positionalArguments (d : Declaration) (converter : Converter) (values : List Script.Value) :
    Except ArgumentError (List Host.Value) := do
  let converted ← worthFrom converter values d.arguments 0
  if d.takesRest ∨ values.length ≤ d.arguments.length then return converted
  else throw (.tooMany d.arguments.length values.length)

/-- Arguments are worth what is read for them from the place of the first. -/
theorem fst_readArguments (converter : Converter) (values : List Script.Value)
    {arguments : List Argument} (hv : arguments.Pairwise fun a _ => a.isVariadic = false)
    (place : Nat) :
    (readArguments converter arguments (values.drop place)).1 =
      worthFrom converter values arguments place := by
  -- The induction is on the arguments, of which the first stands at any place.
  induction arguments generalizing place with
  | nil => rfl
  | cons a rest ih =>
      obtain ⟨first, later⟩ := List.pairwise_cons.mp hv
      have one := a.fst_read converter values place
      rw [readArguments, worthFrom, List.zipIdx_cons, List.mapM_cons, ← one]
      rcases hr : a.read converter (values.drop place) with ⟨e | v, left⟩
      · rfl
      · show (readArguments converter rest left).1.map _ = _
        have others : (readArguments converter rest left).1 =
            worthFrom converter values rest (place + 1) := by
          cases rest with
          | nil => rfl
          | cons b rest =>
              -- Another argument follows, so this one has taken one value.
              have once := a.snd_read (first b (List.mem_cons_self ..)) converter
                (values.drop place)
              rw [hr, List.drop_drop] at once
              rw [← ih later, show left = _ from once]
        rw [others, worthFrom]
        cases (rest.zipIdx (place + 1)).mapM fun p => p.1.valueAt converter values p.2 <;> rfl

/-- If all goes well, what is left are the values after the last place, unless an argument
takes them. -/
theorem snd_readArguments (converter : Converter) (values : List Script.Value)
    {arguments : List Argument} (hv : arguments.Pairwise fun a _ => a.isVariadic = false)
    {place : Nat} {converted : List Host.Value}
    (h : (readArguments converter arguments (values.drop place)).1 = .ok converted) :
    (readArguments converter arguments (values.drop place)).2 =
      if arguments.any Argument.isVariadic then []
      else values.drop (place + arguments.length) := by
  induction arguments generalizing place converted with
  | nil => rfl
  | cons a rest ih =>
      obtain ⟨first, later⟩ := List.pairwise_cons.mp hv
      rw [readArguments] at h ⊢
      rcases hr : a.read converter (values.drop place) with ⟨e | v, left⟩
      · rw [hr] at h
        cases h
      · rw [hr] at h
        obtain ⟨others, ho, -⟩ := map_eq_ok.mp h
        show (readArguments converter rest left).2 = _
        cases variadic : a.isVariadic with
        | false =>
            have once := a.snd_read variadic converter (values.drop place)
            rw [hr, List.drop_drop] at once
            cases once
            rw [ih later ho, List.any_cons, variadic, Bool.false_or, List.length_cons,
              Nat.add_assoc, Nat.add_comm 1]
        | true =>
            have none_left := Argument.snd_read_of_variadic variadic
              (show (a.read converter (values.drop place)).1 = .ok v by rw [hr])
            rw [hr] at none_left
            cases rest with
            | nil =>
                rw [List.any_cons, variadic, Bool.true_or, if_pos rfl]
                exact none_left
            | cons b rest =>
                cases variadic.symm.trans (first b (List.mem_cons_self ..))

section Parsed

variable {s : Signature} {bindings : Host.Bindings} {source : String} {c : Classification}
  {d : Declaration}

/-- Reading the arguments of a call is asking each by its place. -/
theorem convertArguments_eq (hp : ((parse s bindings source).run c).1 = .ok d)
    (converter : Converter) (values : List Script.Value) :
    d.convertArguments converter values = d.positionalArguments converter values := by
  have hv := not_variadic_of_parse hp
  have answer := fst_readArguments converter values hv 0
  rw [List.drop_zero] at answer
  rw [convertArguments, positionalArguments, ← answer]
  rcases hr : readArguments converter d.arguments values with ⟨e | converted, left⟩
  · rfl
  · have rest := snd_readArguments converter values hv
      (show (readArguments converter d.arguments (values.drop 0)).1 = .ok converted by
        rw [List.drop_zero, hr])
    rw [List.drop_zero, hr, Nat.zero_add] at rest
    have ended : left = [] ↔ d.takesRest = true ∨ values.length ≤ d.arguments.length := by
      rw [show left = if d.takesRest then [] else _ from rest]
      split
      · exact iff_of_true rfl (.inl ‹_›)
      · rw [List.drop_eq_nil_iff, or_iff_right ‹_›]
    cases left with
    | nil => exact (if_pos (ended.mp rfl)).symm
    | cons v others => exact (if_neg (mt ended.mpr (List.cons_ne_nil v others))).symm

/-- Only the last argument can be variadic. -/
theorem last_of_isVariadic (hp : ((parse s bindings source).run c).1 = .ok d) {i : Nat}
    {a : Argument} (ha : d.arguments[i]? = some a) (hv : a.isVariadic = true) :
    i + 1 = d.arguments.length := by
  obtain ⟨hi, rfl⟩ := List.getElem?_eq_some_iff.mp ha
  by_contra other
  have next : i + 1 < d.arguments.length := Nat.lt_of_le_of_ne hi other
  have never := List.pairwise_iff_getElem.mp (not_variadic_of_parse hp) i (i + 1) hi next
    i.lt_succ_self
  cases hv.symm.trans never

/-! ### What the places tell -/

theorem not_failsFirst_tooMany {arguments : List Argument} {place expected got : Nat} :
    ¬ FailsFirst (fun p => p.1.valueAt converter values p.2) (arguments.zipIdx place)
      (.tooMany expected got) := by
  rintro ⟨i, p, -, hp, -⟩
  cases Argument.argument?_of_valueAt hp

theorem positionalArguments_eq_ok_iff {converted : List Host.Value} :
    d.positionalArguments converter values = .ok converted ↔
      d.Worth converter values converted ∧
        (d.takesRest = true ∨ values.length ≤ d.arguments.length) := by
  rw [Worth, ← mapM_eq_ok_iff]
  refine bind_eq_ok.trans ?_
  constructor
  · rintro ⟨vs, hvs, h⟩
    split at h
    · cases h
      exact ⟨hvs, ‹_›⟩
    · cases h
  · rintro ⟨hvs, enough⟩
    exact ⟨converted, hvs, if_pos enough⟩

theorem positionalArguments_eq_error_iff {e : ArgumentError} :
    d.positionalArguments converter values = .error e ↔
      FailsFirst (fun p => p.1.valueAt converter values p.2) d.arguments.zipIdx e ∨
        d.Surplus converter values ∧ e = .tooMany d.arguments.length values.length := by
  rw [← mapM_eq_error_iff]
  refine bind_eq_error.trans (or_congr Iff.rfl ?_)
  constructor
  · rintro ⟨vs, hvs, h⟩
    split at h
    · cases h
    · cases h
      obtain ⟨taken, more⟩ := not_or.mp ‹_›
      exact ⟨⟨⟨vs, mapM_eq_ok_iff.mp hvs⟩, Bool.eq_false_iff.mpr taken, Nat.lt_of_not_le more⟩, rfl⟩
  · rintro ⟨⟨⟨vs, hvs⟩, taken, more⟩, rfl⟩
    refine ⟨vs, mapM_eq_ok_iff.mpr hvs, if_neg ?_⟩
    exact not_or.mpr ⟨Bool.eq_false_iff.mp taken, Nat.not_le_of_lt more⟩

/-- An argument looks no further than at its place, so another nil is no news to any if the
values end at an optional one. -/
theorem valueAt_append_nil (hp : ((parse s bindings source).run c).1 = .ok d) {a b : Argument}
    {place : Nat} (ha : d.arguments[values.length]? = some a) (optional : a.presence = .optional)
    (hb : d.arguments[place]? = some b) :
    b.valueAt converter (values ++ [.nil]) place = b.valueAt converter values place := by
  rcases Nat.lt_trichotomy place values.length with before | rfl | after
  · refine Argument.valueAt_congr (List.getElem?_append_left before) fun hv => ?_
    -- A variadic argument would be the last, but the optional one comes later.
    obtain ⟨length, -⟩ := List.getElem?_eq_some_iff.mp ha
    have last := last_of_isVariadic hp hb hv
    omega
  · cases ha.symm.trans hb
    unfold Argument.valueAt
    rw [optional, List.getElem?_concat_length, List.getElem?_eq_none (Nat.le_refl _)]
    rfl
  · have ended : (values ++ [Script.Value.nil]).length ≤ place := by
      rw [List.length_append]
      exact after
    refine Argument.valueAt_congr ?_ fun _ => ?_
    · rw [List.getElem?_eq_none ended, List.getElem?_eq_none (Nat.le_of_lt after)]
    · rw [List.drop_eq_nil_of_le ended, List.drop_eq_nil_of_le (Nat.le_of_lt after)]

/-- The arguments of a call come to what their places tell. -/
structure Placed (d : Declaration) (converter : Converter) (values : List Script.Value) :
    Prop where
  /-- Reading the values one after the other is asking each argument by its place. -/
  answer : d.convertArguments converter values = d.positionalArguments converter values
  /-- The call has host values if every argument is worth one and no value is left. -/
  returned : ∀ converted, d.convertArguments converter values = .ok converted ↔
    d.Worth converter values converted ∧
      (d.takesRest = true ∨ values.length ≤ d.arguments.length)
  /-- There is one host value for each argument. -/
  length_eq : ∀ converted, d.convertArguments converter values = .ok converted →
    converted.length = d.arguments.length
  /-- The error is that of the first argument that has one, or values are left. -/
  failed : ∀ e, d.convertArguments converter values = .error e ↔
    FailsFirst (fun p => p.1.valueAt converter values p.2) d.arguments.zipIdx e ∨
      d.Surplus converter values ∧ e = .tooMany d.arguments.length values.length
  /-- There are too many values only if values are left. -/
  tooMany : ∀ expected got, d.convertArguments converter values = .error (.tooMany expected got) ↔
    d.Surplus converter values ∧ expected = d.arguments.length ∧ got = values.length
  /-- A variadic argument is the last one.  It is an array of what the values from its place
  on are worth, and its error is that of the first of these that has one. -/
  rest : ∀ i a nullable, d.arguments[i]? = some a → a.presence = .variadic nullable →
    i + 1 = d.arguments.length ∧ a.ty = .array a.elementType ∧
    (∀ v, a.valueAt converter values i = .ok v ↔ ∃ items, v = .array items ∧
      List.Forall₂ (fun w item => a.elementWorth converter nullable w = .ok item)
        (values.drop i) items) ∧
    ∀ e, a.valueAt converter values i = .error e ↔
      FailsFirst (a.elementWorth converter nullable) (values.drop i) e
  /-- If the first argument without a value is optional, it may as well be given nil. -/
  nil : ∀ a, d.arguments[values.length]? = some a → a.presence = .optional →
    d.convertArguments converter (values ++ [.nil]) = d.convertArguments converter values

/-- The arguments of a method that was understood are read by their places. -/
theorem arguments_placed (hp : ((parse s bindings source).run c).1 = .ok d)
    (converter : Converter) (values : List Script.Value) : d.Placed converter values where
  answer := convertArguments_eq hp converter values
  returned converted := by rw [convertArguments_eq hp, positionalArguments_eq_ok_iff]
  length_eq converted h := by
    rw [convertArguments_eq hp, positionalArguments_eq_ok_iff] at h
    rw [← h.1.length_eq, List.length_zipIdx]
  failed e := by rw [convertArguments_eq hp, positionalArguments_eq_error_iff]
  tooMany expected got := by
    rw [convertArguments_eq hp, positionalArguments_eq_error_iff,
      or_iff_right not_failsFirst_tooMany, ArgumentError.tooMany.injEq]
  rest i a nullable ha presence := by
    have variadic := Layout.isVariadic_iff.mpr ⟨nullable, presence⟩
    refine ⟨last_of_isVariadic hp ha variadic, ?_, fun v => ?_, fun e => ?_⟩
    · obtain ⟨e, he⟩ := Host.Ty.isArray_iff.mp
        (isArray_of_parse hp (List.mem_of_getElem? ha) variadic)
      rw [Argument.elementType, he]
      rfl
    · unfold Argument.valueAt
      rw [presence]
      simp only [map_eq_ok, mapM_eq_ok_iff]
      exact exists_congr fun items => and_comm.trans (and_congr_left' eq_comm)
    · unfold Argument.valueAt
      rw [presence]
      exact map_eq_error.trans mapM_eq_error_iff
  nil a ha optional := by
    obtain ⟨length, -⟩ := List.getElem?_eq_some_iff.mp ha
    have longer : (values ++ [Script.Value.nil]).length ≤ d.arguments.length := by
      rw [List.length_append]
      exact length
    have same : worthFrom converter (values ++ [.nil]) d.arguments 0 =
        worthFrom converter values d.arguments 0 := by
      refine mapM_congr fun p hmem => ?_
      exact valueAt_append_nil hp ha optional (List.mk_mem_zipIdx_iff_getElem?.mp hmem)
    rw [convertArguments_eq hp, convertArguments_eq hp, positionalArguments, positionalArguments,
      same]
    simp only [if_pos (Or.inr longer), if_pos (Or.inr (Nat.le_of_lt length))]

end Parsed

/-- A signature with an argument that may be missing. -/
def tuning : Signature where
  name := "tune"
  params := [.argument "pipe" .string, { Param.argument "cents" .float with optional := true }]

/-- What is understood of the signature. -/
def tune : Declaration where
  name := "tune"
  description := ""
  source := "organ"
  aliases := []
  positional := []
  env := []
  arguments := [
    ⟨"pipe", "", .tag .string, .string, 0, .required⟩,
    ⟨"cents", "", .tag .number, .float, 1, .optional⟩]
  returns := .void
  resultTags := []
  multiple := false

/-- The second argument may be missing or nil, but no third value may follow. -/
theorem arguments_placed_tune :
    ((parse tuning .empty "organ").run .empty).1 = .ok tune ∧
    tune.convertArguments (.standard []) [.string "c", .nil] = .ok [.string "c", .null] ∧
    tune.convertArguments (.standard []) [.string "c"] = .ok [.string "c", .null] ∧
    tune.convertArguments (.standard []) [.string "c", .nil, .nil] = .error (.tooMany 2 3) := by
  have parsed : ((parse tuning .empty "organ").run .empty).1 = .ok tune := rfl
  have pipe (rest : List Script.Value) :
      Argument.valueAt ⟨"pipe", "", .tag .string, .string, 0, .required⟩ (.standard [])
        (.string "c" :: rest) 0 = .ok (.string "c") := by
    simp [Argument.valueAt, Argument.worth, Converter.standard, Converter.Standard.toHost]
  have worth (rest : List Script.Value) :
      tune.Worth (.standard []) (.string "c" :: .nil :: rest) [.string "c", .null] :=
    .cons (pipe _) (.cons rfl .nil)
  have given := ((arguments_placed parsed (.standard []) [.string "c", .nil]).returned _).mpr
    ⟨worth [], .inr (Nat.le_refl 2)⟩
  have missing := (arguments_placed parsed (.standard []) [.string "c"]).nil _ rfl rfl
  refine ⟨parsed, given, missing ▸ given, ?_⟩
  exact ((arguments_placed parsed (.standard []) _).tooMany 2 3).mpr
    ⟨⟨⟨_, worth [.nil]⟩, rfl, Nat.lt_succ_self 2⟩, rfl, rfl⟩

end Declaration

end HostBridge

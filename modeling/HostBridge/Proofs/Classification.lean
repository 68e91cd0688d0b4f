import Mathlib.Data.List.DropRight
import HostBridge.Classification

/-!
# Answers that are kept

A classification keeps its answers until another classifier is registered, and finds them
again by type, where a class counts as its name.  `chain` is the answer without any
keeping: that of the first classifier that knows the type, then of the built-in rules.

Along a run of registrations and questions, a type is answered as the first type equal to
it that was asked about since the last registration.  So what is kept shows only where a
registered classifier tells two types apart that are equal, which takes two descriptions
of one class.
-/

namespace HostBridge

/-- The built-in rules do not look into classes. -/
theorem Classifier.builtIn_congr {a b : Host.Ty} (h : a.equal b = true) :
    builtIn a = builtIn b := by
  cases a <;> cases b <;> first | rfl | cases h

namespace Classification

/-! ## The answer without keeping -/

/-- The shape a list of classifiers gives a type: that of the first one that knows the
type, then that of the built-in rules, and the tag `object` if these decline it too. -/
def chain : List Classifier → Host.Ty → Script.Shape
  | [], ty => (Classifier.builtIn ty).getD .fallback
  | classifier :: rest, ty =>
      match classifier ty with
      | some shape => shape
      | none => chain rest ty

theorem answer_eq_chain (c : Classification) (ty : Host.Ty) :
    c.answer ty = chain c.classifiers ty := by
  rw [answer]
  induction c.classifiers with
  | nil =>
      rw [List.nil_append, List.findSome?_singleton]
      rfl
  | cons classifier rest ih =>
      rw [List.cons_append, List.findSome?_cons, chain]
      cases classifier ty with
      | some shape => rfl
      | none => exact ih

/-- Equal types that the classifiers do not tell apart have one answer. -/
theorem chain_congr {classifiers : List Classifier} {a b : Host.Ty} (h : a.equal b = true)
    (agree : ∀ classifier ∈ classifiers, classifier a = classifier b) :
    chain classifiers a = chain classifiers b := by
  induction classifiers with
  | nil => rw [chain, chain, Classifier.builtIn_congr h]
  | cons classifier rest ih =>
      obtain ⟨first, others⟩ := List.forall_mem_cons.mp agree
      rw [chain, chain, first, ih others]

/-! ## Runs -/

/-- What can be asked of a classification. -/
inductive Request where
  | register (classifier : Classifier)
  | classify (ty : Host.Ty)

/-- The classification after a request. -/
def Request.perform : Request → Classification → Classification
  | .register classifier, c => c.register classifier
  | .classify ty, c => (Classification.classify ty c).2

/-- The classification after requests. -/
def run (c : Classification) (requests : List Request) : Classification :=
  requests.foldl (fun c request => request.perform c) c

def Request.classifier? : Request → Option Classifier
  | .register classifier => some classifier
  | .classify _ => none

def Request.type? : Request → Option Host.Ty
  | .register _ => none
  | .classify ty => some ty

/-- The classifiers registered so far, oldest first. -/
def registered (requests : List Request) : List Classifier :=
  requests.filterMap Request.classifier?

/-- The types asked about since a classifier was last registered, oldest first. -/
def askedSince (requests : List Request) : List Host.Ty :=
  (requests.rtakeWhile fun request => request.type?.isSome).filterMap Request.type?

/-- The type whose answer is given for a type: the first one equal to it that was asked
about since a classifier was last registered, and the type itself if there is none. -/
def asked (requests : List Request) (ty : Host.Ty) : Host.Ty :=
  ((askedSince requests).find? fun earlier => earlier.equal ty).getD ty

theorem run_concat (c : Classification) (requests : List Request) (request : Request) :
    c.run (requests ++ [request]) = request.perform (c.run requests) := by
  rw [run, List.foldl_append]
  rfl

theorem registered_concat_register (requests : List Request) (classifier : Classifier) :
    registered (requests ++ [.register classifier]) = registered requests ++ [classifier] := by
  rw [registered, List.filterMap_append]
  rfl

theorem registered_concat_classify (requests : List Request) (ty : Host.Ty) :
    registered (requests ++ [.classify ty]) = registered requests := by
  rw [registered, List.filterMap_append]
  exact List.append_nil _

theorem askedSince_concat_register (requests : List Request) (classifier : Classifier) :
    askedSince (requests ++ [.register classifier]) = [] := by
  rw [askedSince, List.rtakeWhile_concat_neg _ _ _ Bool.false_ne_true]
  rfl

theorem askedSince_concat_classify (requests : List Request) (ty : Host.Ty) :
    askedSince (requests ++ [.classify ty]) = askedSince requests ++ [ty] := by
  rw [askedSince, List.rtakeWhile_concat_pos _ _ _ rfl, List.filterMap_append]
  rfl

/-! ## The invariant -/

/-- The classification asks the classifiers that were registered, and keeps for every type
the answer for the first type equal to it that was asked about since. -/
structure Faithful (requests : List Request) (c : Classification) : Prop where
  classifiers : c.classifiers = registered requests
  kept : ∀ ty, c.kept? ty =
    ((askedSince requests).find? fun earlier => earlier.equal ty).map
      (chain (registered requests))

theorem faithful_empty : Faithful [] empty := ⟨rfl, fun _ => rfl⟩

/-- What a classification answers. -/
theorem Faithful.fst_classify {requests : List Request} {c : Classification}
    (h : Faithful requests c) (ty : Host.Ty) :
    (classify ty c).1 = chain (registered requests) (asked requests ty) := by
  rw [classify, h.kept, asked]
  cases (askedSince requests).find? fun earlier => earlier.equal ty with
  | some earlier => rfl
  | none =>
      show c.answer ty = _
      rw [answer_eq_chain, h.classifiers]
      rfl

theorem Faithful.register {requests : List Request} {c : Classification}
    (h : Faithful requests c) (classifier : Classifier) :
    Faithful (requests ++ [.register classifier]) (c.register classifier) := by
  constructor
  · rw [registered_concat_register, ← h.classifiers]
    rfl
  · intro ty
    rw [askedSince_concat_register]
    rfl

/-- A type that an answer is found for adds nothing to what was asked. -/
theorem find?_append_of_equal {types : List Host.Ty} {new earlier : Host.Ty}
    (found : (types.find? fun x => x.equal new) = some earlier) (ty : Host.Ty) :
    ((types ++ [new]).find? fun x => x.equal ty) = types.find? fun x => x.equal ty := by
  rw [List.find?_append]
  cases hf : types.find? fun x => x.equal ty with
  | some _ => rfl
  | none =>
      -- If the new type is equal to `ty`, then so is the earlier one, by transitivity.
      have apart : ¬ new.equal ty = true := fun h =>
        List.find?_eq_none.mp hf earlier (List.mem_of_find?_eq_some found)
          (Host.Ty.equal_trans (List.find?_some (p := (Host.Ty.equal · new)) found) h)
      rw [List.find?_singleton, if_neg apart]
      rfl

theorem Faithful.classify {requests : List Request} {c : Classification}
    (h : Faithful requests c) (new : Host.Ty) :
    Faithful (requests ++ [.classify new]) (Classification.classify new c).2 := by
  have before := h.kept new
  rw [Classification.classify]
  cases hf : (askedSince requests).find? fun earlier => earlier.equal new with
  | some earlier =>
      rw [before, hf]
      constructor
      · rw [registered_concat_classify]
        exact h.classifiers
      · intro ty
        rw [askedSince_concat_classify, find?_append_of_equal hf, registered_concat_classify]
        exact h.kept ty
  | none =>
      rw [before, hf]
      constructor
      · rw [registered_concat_classify]
        exact h.classifiers
      · intro ty
        have old := h.kept ty
        rw [kept?] at old
        rw [askedSince_concat_classify, registered_concat_classify, List.find?_append,
          Option.map_or, ← old]
        show ((c.kept ++ [(new, c.answer new)]).find? _).map _ = _
        rw [List.find?_append, Option.map_or, answer_eq_chain, h.classifiers,
          List.find?_singleton, List.find?_singleton]
        cases new.equal ty <;> rfl

theorem faithful_run (requests : List Request) : Faithful requests (empty.run requests) := by
  induction requests using List.reverseRecOn with
  | nil => exact faithful_empty
  | append_singleton requests request ih =>
      rw [run_concat]
      cases request with
      | register classifier => exact ih.register classifier
      | classify ty => exact ih.classify ty

/-! ## Main theorem -/

/-- A type is answered as the first type equal to it that was asked about since the last
registration.  If no registered classifier tells it apart from the equal types among
these, then what was asked before makes no difference. -/
theorem classify_eq_chain (requests : List Request) (ty : Host.Ty) :
    (classify ty (empty.run requests)).1 =
      chain (registered requests) (asked requests ty) ∧
    ((∀ earlier ∈ askedSince requests, earlier.equal ty = true →
        ∀ classifier ∈ registered requests, classifier earlier = classifier ty) →
      (classify ty (empty.run requests)).1 = chain (registered requests) ty) := by
  have answered := (faithful_run requests).fst_classify ty
  refine ⟨answered, fun agree => ?_⟩
  rw [answered, asked]
  cases hf : (askedSince requests).find? fun earlier => earlier.equal ty with
  | none => rfl
  | some earlier =>
      have equal : earlier.equal ty = true := List.find?_some (p := (Host.Ty.equal · ty)) hf
      exact chain_congr equal (agree earlier (List.mem_of_find?_eq_some hf) equal)

/-! ### Recorders -/

/-- A classifier that shows wind instruments as tables. -/
def windsAsTables : Classifier := .ofRows [(.root "Wind", .tag .table)]

/-- A recorder whose description lists no ancestors. -/
abbrev bareRecorder : Host.Ty := .object (.root "Recorder")

/-- A recorder, which is a wind instrument. -/
abbrev recorder : Host.Ty := .object ((Host.Class.root "Recorder").deriveFrom (.root "Wind"))

/-- Recorders are asked about twice, with one description. -/
theorem classify_eq_chain_recorder :
    let requests : List Request := [.classify bareRecorder, .register windsAsTables,
      .classify .string, .classify recorder]
    (∀ earlier ∈ askedSince requests, earlier.equal recorder = true →
      ∀ classifier ∈ registered requests, classifier earlier = classifier recorder) ∧
    (classify recorder (empty.run requests)).1 = chain [windsAsTables] recorder ∧
    (chain [windsAsTables] recorder).toTag = .table := by
  intro requests
  have agree : ∀ earlier ∈ askedSince requests, earlier.equal recorder = true →
      ∀ classifier ∈ registered requests, classifier earlier = classifier recorder := by
    show ∀ earlier ∈ [Host.Ty.string, recorder], _
    intro earlier here equal classifier _
    rcases List.mem_pair.mp here with rfl | rfl
    · exact absurd equal Bool.false_ne_true
    · rfl
  exact ⟨agree, (classify_eq_chain requests recorder).2 agree, by decide +kernel⟩

/-- A recorder is answered as its other description was, which lists no ancestors. -/
theorem not_classify_eq_chain :
    let requests : List Request := [.register windsAsTables, .classify bareRecorder]
    (classify recorder (empty.run requests)).1.toTag = .object ∧
    (chain (registered requests) recorder).toTag = .table ∧
    ¬ ∀ (requests : List Request) (ty : Host.Ty),
      (classify ty (empty.run requests)).1 = chain (registered requests) ty := by
  intro requests
  have kept : (classify recorder (empty.run requests)).1.toTag = .object := by decide +kernel
  have uncached : (chain (registered requests) recorder).toTag = .table := by decide +kernel
  refine ⟨kept, uncached, fun claim => ?_⟩
  rw [claim, uncached] at kept
  cases kept

end Classification

end HostBridge

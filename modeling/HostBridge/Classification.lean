import HostBridge.Host.Ty
import HostBridge.Script.Shape

/-!
# Classification of host types

Which shape scripts see for a host type.  A `Classifier` knows the shapes of some
types and declines the others.  A classification asks its classifiers in the
order they were registered, then the built-in rules, and falls back to the tag
`object`.

Answers are kept and found again by type, where a class is found by its name.  A
kept answer stands until another classifier is registered, also for a class of
the same name with other ancestors.  So to classify changes the classification,
and its second result is the classification afterwards.
-/

namespace HostBridge

/-- A partial answer to the question which shape a type has. -/
abbrev Classifier := Host.Ty → Option Script.Shape

namespace Classifier

/-- The built-in rules.  They decline classes and type variables. -/
def builtIn : Classifier
  | .void => some (.tag .void)
  | .boolean => some (.tag .boolean)
  | .integer => some (.tag .number)
  | .float => some (.tag .number)
  | .string => some (.tag .string)
  | .array _ => some (.tag .table)
  | .list _ => some (.tag .table)
  | .set _ => some (.tag .table)
  | .map _ _ => some (.tag .table)
  | .multi => some (.tag .unknown)
  | .any => some (.tag .object)
  | .object _ => none
  | .var _ => none

/-- The classifier that knows the types of a list and no others. -/
def exactly (rows : List (Host.Ty × Script.Shape)) : Classifier := fun ty =>
  (rows.find? fun row => row.1.equal ty).map Prod.snd

/-- The classifier that gives classes the shapes of a dictionary.  A class not in
it has the shape of its first ancestor that is. -/
def byClass (shapes : Dict TypeId Script.Shape) : Classifier
  | .object c => c.lineage.findSome? shapes.find?
  | _ => none

/-- The classifier with rows for classes, a later row for a class replacing an
earlier one. -/
def ofRows (rows : List (Host.Class × Script.Shape)) : Classifier :=
  byClass (.ofList (rows.map fun row => (row.1.id, row.2)))

end Classifier

/-- Registered classifiers and the answers kept so far. -/
structure Classification where
  /-- The registered classifiers, in the order they are asked. -/
  classifiers : List Classifier
  /-- The answers kept, each with its type. -/
  kept : List (Host.Ty × Script.Shape)

namespace Classification

/-- The classification with the built-in rules only. -/
def empty : Classification := ⟨[], []⟩

instance : Inhabited Classification := ⟨empty⟩

/-- Register a classifier, to be asked after the earlier ones and before the
built-in rules.  Kept answers are dropped. -/
def register (c : Classification) (classifier : Classifier) : Classification :=
  ⟨c.classifiers ++ [classifier], []⟩

/-- The answer for a type when nothing is kept. -/
def answer (c : Classification) (ty : Host.Ty) : Script.Shape :=
  ((c.classifiers ++ [Classifier.builtIn]).findSome? fun classifier => classifier ty).getD .fallback

/-- The answer kept for a type. -/
def kept? (c : Classification) (ty : Host.Ty) : Option Script.Shape :=
  (c.kept.find? fun entry => entry.1.equal ty).map Prod.snd

/-- The shape of a type, and the classification afterwards. -/
def classify (ty : Host.Ty) : StateM Classification Script.Shape := fun c =>
  match c.kept? ty with
  | some shape => (shape, c)
  | none =>
      let shape := c.answer ty
      (shape, { c with kept := c.kept ++ [(ty, shape)] })

/-- The number of answers kept. -/
def keptCount (c : Classification) : Nat := c.kept.length

end Classification

end HostBridge

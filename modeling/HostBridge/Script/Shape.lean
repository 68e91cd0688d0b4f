/-!
# Shapes of script values

What script authors are told about the values a method takes and returns.  A
`Tag` is one word.  A `Shape` is a tag or the shape of a table with named fields,
such as `{id:string,dmg:number?,...}`.  A trailing `?` marks a field that may be
missing, and three dots mark a table that may have other fields.
-/

namespace HostBridge.Script

/-- One word for the values a parameter takes. -/
inductive Tag where
  | table
  | number
  | string
  | boolean
  | object
  | void
  | unknown
  /-- The tag is to be found from the host type. -/
  | auto
deriving DecidableEq, Repr

/-- The tag as it is written in documentation. -/
def Tag.name : Tag → String
  | .table => "table"
  | .number => "number"
  | .string => "string"
  | .boolean => "boolean"
  | .object => "object"
  | .void => "void"
  | .unknown => "unknown"
  | .auto => "auto"

/-- One word for a returned value. -/
inductive ResultTag where
  | table
  | number
  | string
  | boolean
  | object
  | void
deriving DecidableEq, Repr

/-- The tag as it is written in documentation. -/
def ResultTag.name : ResultTag → String
  | .table => "table"
  | .number => "number"
  | .string => "string"
  | .boolean => "boolean"
  | .object => "object"
  | .void => "void"

/-- The result tag of values with the given tag.  Tags that say nothing about a
value become `object`. -/
def ResultTag.ofTag : Tag → ResultTag
  | .table => .table
  | .number => .number
  | .string => .string
  | .boolean => .boolean
  | .void => .void
  | .object => .object
  | .unknown => .object
  | .auto => .object

/-- A field of a table with named fields. -/
structure Field (α : Type) where
  name : String
  /-- What its values look like. -/
  shape : α
  /-- Whether the field may be missing. -/
  optional : Bool
deriving DecidableEq, Repr

/-- What the values of a parameter look like. -/
inductive Shape where
  /-- Values described by one word. -/
  | tag (t : Tag)
  /-- Tables with named fields, and with others too if `isOpen`. -/
  | record (fields : List (Field Shape)) (isOpen : Bool)
deriving Repr, Inhabited

namespace Shape

/-- The shape of values nothing is known about. -/
def fallback : Shape := .tag .object

/-- The one word for a shape. -/
def toTag : Shape → Tag
  | .tag t => t
  | .record _ _ => .table

mutual

/-- The text of a shape. -/
def display : Shape → String
  | .tag t => t.name
  | .record fields isOpen =>
      let dots := if isOpen then ["..."] else []
      "\x7b" ++ ",".intercalate (displayFields fields ++ dots) ++ "\x7d"
termination_by structural s => s

/-- The texts of fields, in order. -/
def displayFields : List (Field Shape) → List String
  | [] => []
  | ⟨name, shape, optional⟩ :: rest =>
      (name ++ ":" ++ shape.display ++ if optional then "?" else "") :: displayFields rest
termination_by structural fs => fs

end

mutual

/-- Whether two shapes are the same. -/
def equal : Shape → Shape → Bool
  | .tag t, .tag u => t == u
  | .record fs o, .record gs p => equalFields fs gs && o == p
  | _, _ => false
termination_by structural s => s

/-- Whether two lists of fields are the same. -/
def equalFields : List (Field Shape) → List (Field Shape) → Bool
  | [], [] => true
  | ⟨name, shape, optional⟩ :: rest, ⟨name', shape', optional'⟩ :: rest' =>
      name == name' && shape.equal shape' && optional == optional' && equalFields rest rest'
  | _, _ => false
termination_by structural fs => fs

end

end Shape

/-! ## Examples -/

example : (Shape.record [⟨"id", .tag .string, false⟩, ⟨"dmg", .tag .number, true⟩] true).display =
    "\x7bid:string,dmg:number?,...\x7d" := by decide +kernel
example : (Shape.record [] true).display = "\x7b...\x7d" := by decide +kernel
example : (Shape.record [] false).display = "\x7b\x7d" := by decide +kernel

end HostBridge.Script

import HostBridge.Argument

/-!
# Declarations

A declaration is a method as it was understood: which parameters the host
supplies by position and by name, which ones the script supplies, and what comes
back.  It has no type variables.  `Declaration.parse`, in a module of its own,
makes one from a signature.

A declaration knows how scripts see the method (`names`, `signature`,
`describe`), what it requires of a host (`checkPositional`, `checkEnv`), and how
the script arguments of a call become host values (`convertArguments`).
-/

namespace HostBridge

/-! ## Requirements on a host -/

/-- What a host lacks for a method. -/
inductive RequirementFault where
  /-- It supplies another number of values by position. -/
  | positionalCount (expected got : Nat)
  /-- It supplies a value by position that the method cannot take. -/
  | positionalType (index : Nat) (expected got : Host.Ty)
  /-- It does not supply a named value. -/
  | missing (name : String)
  /-- It supplies a named value that the method cannot take. -/
  | namedType (name : String) (expected got : Host.Ty)

/-- Why a host cannot run a method. -/
structure RequirementError where
  /-- The canonical name of the method. -/
  method : String
  fault : RequirementFault

/-- The message of a requirement error. -/
def RequirementError.message (e : RequirementError) : String :=
  "method '" ++ e.method ++ "': " ++
    match e.fault with
    | .positionalCount expected got =>
        "expected " ++ toString expected ++ " positional argument(s), host provides "
          ++ toString got
    | .positionalType index expected got =>
        "positional argument " ++ toString index ++ " of type '" ++ expected.display
          ++ "' cannot accept '" ++ got.display ++ "'"
    | .missing name => "environment argument '" ++ name ++ "' is not provided by the host"
    | .namedType name expected got =>
        "environment argument '" ++ name ++ "' of type '" ++ expected.display
          ++ "' cannot accept '" ++ got.display ++ "'"

/-- The types of the values a host supplies by name. -/
abbrev EnvTypes := Dict String Host.Ty

/-! ## The type -/

/-- A parameter the host supplies under a name. -/
structure EnvParam where
  name : String
  /-- The type of its value. -/
  ty : Host.Ty
  /-- The position of its value among the parameters of the host function. -/
  index : Nat
deriving Repr

/-- A method as it was understood. -/
structure Declaration where
  /-- The canonical name. -/
  name : String
  description : String
  /-- The tag of the adapter that brought the method. -/
  source : String
  /-- The other names, each once and none the canonical one. -/
  aliases : List String
  /-- The types of the parameters the host supplies by position. -/
  positional : List Host.Ty
  /-- The parameters the host supplies by name. -/
  env : List EnvParam
  /-- The parameters the script supplies. -/
  arguments : List Argument
  /-- The type of the result. -/
  returns : Host.Ty
  /-- The tags of the returned script values. -/
  resultTags : List Script.ResultTag
  /-- Whether the result is split into several script values. -/
  multiple : Bool

namespace Declaration

/-! ## What scripts see -/

/-- All names of the method, the canonical one first. -/
def names (d : Declaration) : List String := d.name :: d.aliases

/-- All names in alphabetical order, each once. -/
def sortedNames (d : Declaration) : List String :=
  d.names.eraseDups.mergeSort fun a b => decide (a ≤ b)

/-- The number of parameters of the host function. -/
def arity (d : Declaration) : Nat := d.positional.length + d.env.length + d.arguments.length

/-- The arguments as scripts write them, such as `(a,b?,rest...)`. -/
def signature (d : Declaration) : String :=
  "(" ++ ",".intercalate (d.arguments.map Argument.doc) ++ ")"

/-- The table that describes the method to scripts. -/
def describe (d : Declaration) : Script.Table := [
  (.string "name", .string d.name),
  (.string "description", .string d.description),
  (.string "source", .string d.source),
  (.string "returnTypes",
    .table (Script.Table.ofSequence (d.resultTags.map fun tag => .string tag.name))),
  (.string "args", .table (Script.Table.ofSequence (d.arguments.map fun a => .table a.describe))),
  (.string "signature", .string d.signature)]

/-! ## What the method requires of a host -/

/-- The first of the expected types, counted from `index` on, that does not accept
the type at its place. -/
def firstRefusal (index : Nat) : (expected got : List Host.Ty) → Option RequirementFault
  | e :: es, g :: gs =>
      if e.accepts g then firstRefusal (index + 1) es gs else some (.positionalType index e g)
  | _, _ => none

/-- Check the types of the values a host supplies by position. -/
def checkPositional (d : Declaration) (provided : List Host.Ty) : Except RequirementError Unit :=
  if provided.length ≠ d.positional.length then
    .error ⟨d.name, .positionalCount d.positional.length provided.length⟩
  else
    match firstRefusal 0 d.positional provided with
    | some fault => .error ⟨d.name, fault⟩
    | none => .ok ()

/-- What is wrong with the value a host supplies for a named parameter, if anything. -/
def envFault? (provided : EnvTypes) (p : EnvParam) : Option RequirementFault :=
  match provided.find? p.name with
  | none => some (.missing p.name)
  | some got => if p.ty.accepts got then none else some (.namedType p.name p.ty got)

/-- Check the types of the values a host supplies by name.  It may supply more. -/
def checkEnv (d : Declaration) (provided : EnvTypes) : Except RequirementError Unit :=
  match d.env.findSome? (envFault? provided) with
  | some fault => .error ⟨d.name, fault⟩
  | none => .ok ()

/-! ## Arguments of a call -/

/-- Read arguments one after the other from the values of a call.  The second part
holds the values not taken. -/
def readArguments (converter : Converter) :
    List Argument → List Script.Value →
      Except ArgumentError (List Host.Value) × List Script.Value
  | [], values => (.ok [], values)
  | a :: rest, values =>
      match a.read converter values with
      | (.error e, left) => (.error e, left)
      | (.ok v, left) =>
          let (result, left) := readArguments converter rest left
          (result.map (v :: ·), left)

/-- The host values for the script arguments of a call, one for each argument.
All values must be taken. -/
def convertArguments (d : Declaration) (converter : Converter) (values : List Script.Value) :
    Except ArgumentError (List Host.Value) :=
  match readArguments converter d.arguments values with
  | (.error e, _) => .error e
  | (.ok converted, []) => .ok converted
  | (.ok _, _ :: _) => .error (.tooMany d.arguments.length values.length)

end Declaration

end HostBridge

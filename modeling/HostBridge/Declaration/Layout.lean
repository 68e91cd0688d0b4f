import HostBridge.Declaration
import HostBridge.Signature

/-!
# Layout of parameters

The parameters of a method come in a fixed order: those the host supplies by
position, those it supplies by name, then those the script supplies, required
ones before optional ones and at most one variadic one at the very end.

A `Layout` holds what was read of a parameter list so far.  `Layout.slotOf` checks
the next parameter against it and says what it is; this needs no knowledge of
shapes.  `Layout.add` also finds the shape of a script argument and so may keep
an answer in the classification, even if a later parameter is refused.

`checkResult` says whether the tags of a method fit the type of its result, and
whether the result is split into several values.  `Declaration.parse` puts all
this together.
-/

namespace HostBridge

/-! ## Errors -/

/-- What is wrong with a signature. -/
inductive DeclarationFault where
  /-- A positional parameter comes after a named one. -/
  | positionalAfterNamed (index : Nat)
  /-- A parameter the host supplies by name comes after one of the script. -/
  | envAfterScript (name : String)
  | duplicateEnv (name : String)
  | requiredAfterOptional (name : String)
  /-- A parameter the host supplies is marked as one that may be missing. -/
  | optionalNotScript (index : Nat)
  /-- A parameter the host supplies is marked as variadic. -/
  | variadicNotScript (index : Nat)
  /-- A parameter follows a variadic argument. -/
  | variadicNotLast (name : String)
  /-- A variadic argument has a type that is not an array. -/
  | variadicNotArray (name : String) (ty : Host.Ty)
  /-- Several results are announced without tags. -/
  | missingResultTags
  /-- A result of one value has more than one tag. -/
  | tooManyResultTags (ty : Host.Ty) (count : Nat)
  /-- A result that has no order is to be split. -/
  | notSplittable (ty : Host.Ty)
  /-- A type variable stands for nothing. -/
  | unresolved (name : String)

/-- Why a signature was refused. -/
structure DeclarationError where
  /-- The canonical name of the method. -/
  method : String
  fault : DeclarationFault

/-- The message of a declaration error. -/
def DeclarationError.message (e : DeclarationError) : String :=
  "method '" ++ e.method ++ "': " ++
    match e.fault with
    | .positionalAfterNamed index =>
        "positional argument " ++ toString index ++ " must precede all named arguments"
    | .envAfterScript name => "environment argument '" ++ name ++ "' follows a script argument"
    | .duplicateEnv name => "duplicate environment argument '" ++ name ++ "'"
    | .requiredAfterOptional name =>
        "required argument '" ++ name ++ "' follows an optional argument"
    | .optionalNotScript index =>
        "argument " ++ toString index ++ " cannot be optional, only script arguments can"
    | .variadicNotScript index =>
        "argument " ++ toString index ++ " cannot be variadic, only script arguments can"
    | .variadicNotLast name => "variadic argument '" ++ name ++ "' must be the last argument"
    | .variadicNotArray name ty =>
        "variadic argument '" ++ name ++ "' must have an array type, got '" ++ ty.display ++ "'"
    | .missingResultTags =>
        "multiple return values require at least one declared return type"
    | .tooManyResultTags ty count =>
        "result type '" ++ ty.display ++ "' cannot carry " ++ toString count ++ " return values"
    | .notSplittable ty =>
        "result type '" ++ ty.display ++ "' cannot be split into multiple return values"
    | .unresolved name => "unresolved type variable '" ++ name ++ "'"

/-! ## Reading a parameter list -/

/-- What was read of a parameter list so far. -/
structure Layout where
  /-- The types of the positional parameters. -/
  positional : List Host.Ty := []
  /-- The parameters supplied by name. -/
  env : List EnvParam := []
  /-- The parameters supplied by the script. -/
  arguments : List Argument := []

/-- What a parameter is, once its type is known and its place is right. -/
inductive Slot where
  | positional (ty : Host.Ty)
  | env (name : String) (ty : Host.Ty)
  | script (name description : String) (tag : Script.Tag) (ty : Host.Ty) (presence : Presence)

namespace Layout

/-- The number of parameters read so far, which is the index of the next one. -/
def size (l : Layout) : Nat := l.positional.length + l.env.length + l.arguments.length

/-- The name of the variadic argument, if one was read. -/
def variadic? (l : Layout) : Option String :=
  (l.arguments.find? Argument.isVariadic).map Argument.name

/-- Whether an optional argument was read. -/
def hasOptional (l : Layout) : Bool := l.arguments.any fun a => a.presence = .optional

/-- Refuse the marks that only arguments of the script may carry. -/
def checkHostSupplied (index : Nat) (p : Param) : Except DeclarationFault Unit :=
  if p.optional then .error (.optionalNotScript index)
  else if p.variadic then .error (.variadicNotScript index)
  else .ok ()

/-- How many values an argument of the script takes. -/
def presence (l : Layout) (p : Param) (name : String) (ty : Host.Ty) :
    Except DeclarationFault Presence :=
  if p.variadic then
    if ty.isArray then .ok (.variadic p.optional) else .error (.variadicNotArray name ty)
  else if p.optional then .ok .optional
  else if l.hasOptional then .error (.requiredAfterOptional name)
  else .ok .required

/-- Check the next parameter and say what it is. -/
def slotOf (bindings : Host.Bindings) (l : Layout) (p : Param) : Except DeclarationFault Slot :=
  match l.variadic? with
  | some name => .error (.variadicNotLast name)
  | none => do
      let ty ← (p.ty.resolve bindings).mapError .unresolved
      match p.role with
      | .positional =>
          if !l.env.isEmpty || !l.arguments.isEmpty then
            .error (.positionalAfterNamed l.size)
          else
            checkHostSupplied l.size p
            return .positional ty
      | .env name =>
          if !l.arguments.isEmpty then .error (.envAfterScript name)
          else
            checkHostSupplied l.size p
            if l.env.any (·.name = name) then .error (.duplicateEnv name)
            else return .env name ty
      | .script name description tag => do
          let presence ← l.presence p name ty
          return .script name description tag ty presence

/-- The type whose shape scripts see for an argument: of a variadic one, the type
of an element. -/
def shownType (ty : Host.Ty) : Presence → Host.Ty
  | .variadic _ => ty.element?.getD ty
  | _ => ty

/-- The shape of an argument: the tag it was given, or the shape of its type. -/
def shapeOf (tag : Script.Tag) (ty : Host.Ty) (presence : Presence) :
    StateM Classification Script.Shape :=
  if tag = .auto then Classification.classify (shownType ty presence) else pure (.tag tag)

/-- The layout with one more parameter. -/
def extend (l : Layout) : Slot → StateM Classification Layout
  | .positional ty => pure { l with positional := l.positional ++ [ty] }
  | .env name ty => pure { l with env := l.env ++ [⟨name, ty, l.size⟩] }
  | .script name description tag ty presence => do
      let shape ← shapeOf tag ty presence
      return { l with arguments := l.arguments ++ [⟨name, description, shape, ty, l.size, presence⟩] }

/-- Check the next parameter and add it. -/
def add (bindings : Host.Bindings) (l : Layout) (p : Param) :
    ExceptT DeclarationFault (StateM Classification) Layout :=
  match l.slotOf bindings p with
  | .error fault => throw fault
  | .ok slot => l.extend slot

end Layout

/-! ## Results -/

/-- Whether the result of a method is split into several values, if its tags fit
its type. -/
def checkResult (s : Signature) (returns : Host.Ty) : Except DeclarationFault Bool := do
  let multiple ←
    match returns with
    | .multi => .ok true
    | _ =>
        if s.splitsResult then
          if returns.isOrdered then .ok true else .error (.notSplittable returns)
        else .ok false
  let count := s.resultTags.length
  if multiple && count == 0 then .error .missingResultTags
  else if !multiple && count > 1 then .error (.tooManyResultTags returns count)
  else return multiple

/-! ## Parsing -/

namespace Declaration

open MonadExcept (ofExcept)

/-- Read a signature up to the name of the method in its errors. -/
def understand (s : Signature) (bindings : Host.Bindings) (source : String) :
    ExceptT DeclarationFault (StateM Classification) Declaration := do
  let layout ← s.params.foldlM (Layout.add bindings) {}
  let returns ← ofExcept ((s.returns.resolve bindings).mapError .unresolved)
  let multiple ← ofExcept (checkResult s returns)
  return {
    name := s.name
    description := s.description
    source
    aliases := (s.aliases.filter (· ≠ s.name)).eraseDups
    positional := layout.positional
    env := layout.env
    arguments := layout.arguments
    returns
    resultTags := s.resultTags
    multiple }

/-- The declaration of a signature.  Type variables stand for what `bindings` says,
and `source` is the tag of the adapter the method belongs to. -/
def parse (s : Signature) (bindings : Host.Bindings) (source : String) :
    ExceptT DeclarationError (StateM Classification) Declaration :=
  ExceptT.adapt (DeclarationError.mk s.name) (understand s bindings source)

end Declaration

end HostBridge

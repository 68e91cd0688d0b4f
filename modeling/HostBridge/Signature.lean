import HostBridge.Host.Ty
import HostBridge.Script.Shape

/-!
# Signatures

A signature is what the author of an adapter writes down about a method: its
name, its parameters, and its result.  A parameter is supplied by the host by
position, by the host under a name, or by the script.  A signature may be
malformed; `Declaration.parse` finds out.
-/

namespace HostBridge

/-- Who supplies a parameter. -/
inductive Role where
  /-- The host, by position.  The target of the call comes first. -/
  | positional
  /-- The host, under a name. -/
  | env (name : String)
  /-- The script. -/
  | script (name description : String) (tag : Script.Tag)
deriving DecidableEq, Repr

/-- A parameter of a signature. -/
structure Param where
  /-- The type of its value, in which variables may occur. -/
  ty : Host.Ty
  /-- Who supplies it. -/
  role : Role
  /-- Whether it is marked as one that may be missing. -/
  optional : Bool := false
  /-- Whether it is marked as one that takes the rest of the arguments. -/
  variadic : Bool := false
deriving Repr

namespace Param

/-- A parameter that the script supplies, whose tag is found from its type. -/
def argument (name : String) (ty : Host.Ty) (description : String := "") : Param :=
  { ty, role := .script name description .auto }

/-- Document the parameter, if the script supplies it. -/
def describedAs (p : Param) (text : String) : Param :=
  match p.role with
  | .script name _ tag => { p with role := .script name text tag }
  | _ => p

/-- Give the parameter a tag, if the script supplies it. -/
def taggedAs (p : Param) (tag : Script.Tag) : Param :=
  match p.role with
  | .script name description _ => { p with role := .script name description tag }
  | _ => p

end Param

/-- What an author writes down about a method. -/
structure Signature where
  /-- The canonical name. -/
  name : String
  description : String := ""
  /-- The parameters of the host function, in order. -/
  params : List Param := []
  /-- The type of the result, in which variables may occur. -/
  returns : Host.Ty := .void
  /-- The tags of the returned script values. -/
  resultTags : List Script.ResultTag := []
  /-- Whether an array or list is to be split into several results. -/
  splitsResult : Bool := false
  /-- Further names under which scripts find the method. -/
  aliases : List String := []
deriving Repr

end HostBridge

import HostBridge.MethodTable.Entry

/-!
# Listing of a method table

Every method table can describe itself to scripts.  Three methods are added to it:
`listMethods` gives all names with their arguments in one text, `listSources` the
sources the methods come from, and `getAdvancedMethodsData` a table with the
description of every method.  They speak of the table as it was without them.

The three methods form a composed adapter and are wrapped like any other.
-/

namespace HostBridge.MethodTable.Listing

variable {σ : Type}

/-- The name of the method that lists names. -/
def listMethods : String := "listMethods"

/-- The name of the method that lists sources. -/
def listSources : String := "listSources"

/-- The name of the method that describes everything. -/
def describeMethods : String := "getAdvancedMethodsData"

/-- The names of the three methods. -/
def names : List String := [listMethods, listSources, describeMethods]

/-- All names of a table, each with the arguments of its method. -/
def overview (entries : List (Entry σ)) : String :=
  ", ".intercalate (entries.map fun e => e.name ++ e.method.declaration.signature)

/-- The sources, each a key of a map. -/
def sourceMap (sources : List String) : Host.Value :=
  .map (sources.map fun source => (.string source, .boolean true))

/-- The description of every method under each of its names. -/
def descriptions (entries : List (Entry σ)) : Script.Table :=
  entries.map fun e => (.string e.name, .table e.method.declaration.describe)

/-- The code of the method that describes everything: it lets the converter of the
call make a host value of the descriptions. -/
def convertDescriptions (entries : List (Entry σ)) (call : Call) :
    Except FunctionError Host.Value := do
  let converter ← call.converterAt 0
  match converter.toHost (.table (descriptions entries)) .any with
  | some v => return v
  | none => .error (.failed "method descriptions are not convertible")

/-- The method that lists names. -/
def namesSpec (entries : List (Entry σ)) : MethodSpec σ where
  signature := {
    name := listMethods
    description := "List all the methods available"
    returns := .string
    resultTags := [.string] }
  function := .const (.string (overview entries))

/-- The method that lists sources. -/
def sourcesSpec (sources : List String) : MethodSpec σ where
  signature := {
    name := listSources
    description := "List all method sources"
    returns := .map .string .boolean
    resultTags := [.table] }
  function := .const (sourceMap sources)

/-- The method that describes everything. -/
def descriptionsSpec (entries : List (Entry σ)) : MethodSpec σ where
  signature := {
    name := describeMethods
    description := "Get a complete table of information about all available methods"
    params := [{
      ty := .object Converter.objectClass
      role := .env Environment.Key.converter }]
    returns := .map .string .any
    resultTags := [.table] }
  function := .stateless (convertDescriptions entries)

/-- The name of the adapter. -/
def adapterName : String := "MethodsLister"

/-- The adapter with the three methods, for a table of a class. -/
def definition (target : Host.Class) (entries : List (Entry σ)) (sources : List String) :
    Adapter.Definition σ where
  name := adapterName
  target
  kind := .composed
  asynchronous := true
  methods := [namesSpec entries, sourcesSpec sources, descriptionsSpec entries]

end HostBridge.MethodTable.Listing

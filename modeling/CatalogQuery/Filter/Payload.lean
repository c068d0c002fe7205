import CatalogQuery.Filter.WhereArgs
import CatalogQuery.Json.Read

/-!
# Reading where-argument payloads

`WhereArgs.ofPayload` reads a payload text: `null` means no filter, anything else must be an
argument node. The reader is typed: a node must be an object, `andArg` and `orArg` arrays of
nodes, the field members objects of operator arguments, `metadataArg` an object with exactly the
members `key` (a string) and `value` (operator arguments), or a two-item array of those. Any
member may be `null`, which leaves it unset. Naming a known member twice is refused as soon as
the second name is read; members of unknown names are read as any JSON and kept.

Faults of the JSON text (see `CatalogQuery.Json.Read`) and of the types come out as
`FilterError.invalidJson` with the reader's message.
-/

namespace CatalogQuery

namespace Payload

open ReadM

/-- Operator arguments: an object of any JSON values; a repeated name keeps the last value. -/
def operatorArgs (fuel : Nat) : ReadM OperatorArgs :=
  placing do
    match ← blank with
    | none => failPast .eofWhileParsingValue
    | some 123 =>
      match ← finish (← nested (anyMembers fuel [] true)) closeObject with
      | .object members => return ⟨members⟩
      | _ => return ⟨[]⟩
    | some _ => invalidType "a map"

/-- A string value. -/
def stringValue : ReadM String :=
  placing do
    match ← blank with
    | none => failPast .eofWhileParsingValue
    | some 34 => advance; string
    | some _ => invalidType "a string"

/-- What a metadata record expects when it is given as an array. -/
def metadataTuple : String := "struct MetadataWhereArgs with 2 elements"

/-- The members of a metadata record given as an object. -/
def metadataMembers (fuel : Nat) :
    Nat → Option String → Option OperatorArgs → Bool → ReadM MetadataArgs
  | 0, _, _, _ => outOfFuel
  | steps + 1, key, value, first => do
    match ← nextKey first with
    | none =>
      match key, value with
      | some k, some v => return ⟨k, v⟩
      | none, _ => failHere (.missingField "key")
      | some _, none => failHere (.missingField "value")
    | some "key" =>
      if key.isSome then failHere (.duplicateField "key")
      colon
      let k ← stringValue
      metadataMembers fuel steps (some k) value false
    | some "value" =>
      if value.isSome then failHere (.duplicateField "value")
      colon
      let v ← operatorArgs fuel
      metadataMembers fuel steps key (some v) false
    | some other => failHere (.unknownField other ["key", "value"])

/-- The items of a metadata record given as an array: a key, then operator arguments. -/
def metadataItems (fuel : Nat) : ReadM MetadataArgs := do
  if !(← hasItem true) then failHere (.invalidLength 0 metadataTuple)
  let k ← stringValue
  if !(← hasItem false) then failHere (.invalidLength 1 metadataTuple)
  let v ← operatorArgs fuel
  return ⟨k, v⟩

/-- A metadata record, as an object or a two-item array. -/
def metadataArgs (fuel : Nat) : ReadM MetadataArgs :=
  placing do
    match ← blank with
    | none => failPast .eofWhileParsingValue
    | some 91 => finish (← nested (metadataItems fuel)) closeArray
    | some 123 => finish (← nested (metadataMembers fuel fuel none none true)) closeObject
    | some _ => invalidType "struct MetadataWhereArgs"

/-- An optional value: `null` is absent. -/
def optional {α : Type} (x : ReadM α) : ReadM (Option α) := do
  match ← blank with
  | some 110 => advance; keyword [117, 108, 108]; return none
  | _ => some <$> x

/-- The member names of a node that hold operator arguments of a field. -/
def fieldMemberNames : List String :=
  ["bucketIdArg", "bucketNameArg", "nameArg", "kindArg", "contentTypeArg"]

/-- Sets a field member of a node by its member name. -/
def setFieldMember (a : WhereArgs) (name : String) (v : Option OperatorArgs) : WhereArgs :=
  if name = "bucketIdArg" then { a with bucketIdArg := v }
  else if name = "bucketNameArg" then { a with bucketNameArg := v }
  else if name = "nameArg" then { a with nameArg := v }
  else if name = "kindArg" then { a with kindArg := v }
  else { a with contentTypeArg := v }

mutual

/-- An argument node. -/
def node : Nat → ReadM WhereArgs
  | 0 => outOfFuel
  | fuel + 1 => placing do
    match ← blank with
    | none => failPast .eofWhileParsingValue
    | some 123 => finish (← nested (members fuel {} [] true)) closeObject
    | some _ => invalidType "struct CatalogObjectWhereArgs"

/-- The remaining members of a node; `seen` lists the known names already read. -/
def members : Nat → WhereArgs → List String → Bool → ReadM WhereArgs
  | 0, _, _, _ => outOfFuel
  | fuel + 1, acc, seen, first => do
    match ← nextKey first with
    | none => return acc
    | some name =>
      let known := name = "andArg" || name = "orArg" || name = "metadataArg" ||
        fieldMemberNames.contains name
      if known && seen.contains name then failHere (.duplicateField name)
      colon
      let seen := if known then name :: seen else seen
      if name = "andArg" then
        let v ← optional (nodeList fuel)
        members fuel { acc with andArg := v } seen false
      else if name = "orArg" then
        let v ← optional (nodeList fuel)
        members fuel { acc with orArg := v } seen false
      else if name = "metadataArg" then
        let v ← optional (metadataArgs fuel)
        members fuel { acc with metadataArg := v } seen false
      else if fieldMemberNames.contains name then
        let v ← optional (operatorArgs fuel)
        members fuel (setFieldMember acc name v) seen false
      else
        let v ← anyValue fuel
        members fuel { acc with unknown := Json.insertMember name v acc.unknown } seen false

/-- An array of argument nodes. -/
def nodeList : Nat → ReadM (List WhereArgs)
  | 0 => outOfFuel
  | fuel + 1 => placing do
    match ← blank with
    | none => failPast .eofWhileParsingValue
    | some 91 => finish (← nested (nodeItems fuel [] true)) closeArray
    | some _ => invalidType "a sequence"

/-- The remaining nodes of an array, after those in `acc` (newest first). -/
def nodeItems : Nat → List WhereArgs → Bool → ReadM (List WhereArgs)
  | 0, _, _ => outOfFuel
  | fuel + 1, acc, first => do
    if ← hasItem first then
      let a ← node fuel
      nodeItems fuel (a :: acc) false
    else return acc.reverse

end

end Payload

/-- Reads a payload text: `null` is no filter. -/
def WhereArgs.ofPayload (text : String) : Except FilterError (Option WhereArgs) :=
  let input := text.toUTF8
  let reader : ReadM (Option WhereArgs) := do
    let a ← Payload.optional (Payload.node (ReadM.fuelFor input))
    ReadM.atEnd
    return a
  match ReadM.runOn reader input with
  | .ok a => .ok a
  | .error e => .error (.invalidJson (e.message input))

end CatalogQuery

import LayerStack.Error
import LayerStack.Layer.Palette

/-!
# LayerStack.Layer.Record

One entry of a design.

A record has an id, a type tag, a name and parameters.  The id may be left out, and then one of its own is made for
the record; the tag is fixed once the record exists, the other fields may be set.
-/

namespace LayerStack

/-- A layer of a design.  `id` is empty where the record got one of its own. -/
structure LayerRecord where
  id : Option String := none
  type : String
  name : String := ""
  params : Mapping := []
deriving Repr, Inhabited

namespace LayerRecord

/-! ## Reading -/

/-- What a field holds, or all that is wrong with it. -/
abbrev Field := Except (List RecordFault)

/-- A field that must be text. -/
def textField (field : RecordField) : Value → Field String
  | .text s => .ok s
  | _ => .error [.field field .notText]

/-- How a key that is no text is told. -/
def keyText : Value → String
  | .bool b => if b then "1" else "0"
  | .scalar (.int64 n) | .scalar (.int32 n) | .scalar (.uint64 n) => toString n
  | key => key.literal

/-- The fault of a key, which must be text. -/
def keyFault? : Value → Option RecordFault
  | .text _ => none
  | key => some (.key (keyText key))

/-- The parameters; nothing counts as no parameters. -/
def paramsField : Value → Field Mapping
  | .absent => .ok []
  | .mapping entries =>
    match entries.filterMap fun (key, _) => keyFault? key with
    | [] => .ok entries
    | faults => .error faults
  | _ => .error [.field .params .notMapping]

/-- The faults of a field. -/
def faultsOf {α : Type} : Field α → List RecordFault
  | .ok _ => []
  | .error faults => faults

/-- Reads a record from the entries of a mapping.  Other keys are ignored; all faults are found, in the order of the
fields. -/
def ofEntries (index : Option Int) (entries : Mapping) : Except DesignError LayerRecord :=
  let id := (entries.find? "id").elim (.ok none) fun v => some <$> textField .id v
  let type := (entries.find? "type").elim (.error [.field .type .missing]) (textField .type)
  let name := (entries.find? "name").elim (.ok "") (textField .name)
  let params := paramsField (entries.value "params")
  match id, type, name, params with
  | .ok id, .ok type, .ok name, .ok params => .ok { id, type, name, params }
  | id, type, name, params =>
    .error (.malformed index (faultsOf id ++ faultsOf type ++ faultsOf name ++ faultsOf params) type.toOption)

/-- Reads a record, `index` being its place in a design. -/
def ofValue (index : Option Int) : Value → Except DesignError LayerRecord
  | .mapping entries => ofEntries index entries
  | v => .error (.notRecord index v.typeName)

/-- Reads the records of a design from a place on; the first bad one is reported. -/
def ofValues (start : Nat) : List Value → Except DesignError (List LayerRecord)
  | [] => .ok []
  | v :: vs => do
    let record ← ofValue (some start) v
    let rest ← ofValues (start + 1) vs
    return record :: rest

/-! ## Editing -/

/-- Sets a field.  The tag cannot be set, and a value the field cannot hold is refused, as is a field that records do
not have; only a name with an underscore in front is one's own, and the record does not look at it. -/
def set (record : LayerRecord) (field : String) (value : Value) : Field LayerRecord :=
  match field with
  | "id" => (textField .id value).map fun id => { record with id := some id }
  | "type" => .error [.field .type .frozen]
  | "name" => (textField .name value).map fun name => { record with name }
  | "params" => (paramsField value).map fun params => { record with params }
  | field => if field.startsWith "_" then .ok record else .error [.unknown field]

/-- Sets a parameter. -/
def setParam (record : LayerRecord) (key value : Value) : LayerRecord :=
  { record with params := record.params.put key value }

/-- Removes a parameter; `none` if it is not there. -/
def eraseParam? (record : LayerRecord) (key : Value) : Option LayerRecord :=
  (record.params.erase? key).map fun params => { record with params }

/-! ## Making -/

/-- A fresh layer of a type: the palette's parameters with some of them overridden, and the palette's name unless
another is given. -/
def fresh (type : LayerType) (name : Option String) (overrides : Mapping) : LayerRecord where
  type := type.tag
  name := name.getD type.displayName
  params := (Mapping.ofNamed type.defaults).putAll overrides

/-- A fresh layer with the name in a value, which has to be text if it is there. -/
def freshNamed (type : LayerType) (name : Value) (overrides : Mapping) : Field LayerRecord :=
  match name with
  | .absent => .ok (fresh type none overrides)
  | name => (textField .name name).map fun name => fresh type (some name) overrides

end LayerRecord

end LayerStack

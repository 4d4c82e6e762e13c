import LayerStack.Error

/-!
# LayerStack.Error.Report

A failure as it is reported: its class, its text and what it tells of the layer at fault.

A report comes from an error of a design, or is put together by hand from a class and its details in their order.
Details of any kind are taken as they are and worded like those of a design.
-/

namespace LayerStack

/-- A reported failure. -/
structure ErrorReport where
  kind : ErrorClass
  text : String
  /-- The index and the type of the layer, which only failures of a design have. -/
  layer : Option (Value × Value) := none
  /-- Why a layer cannot take a shape. -/
  reason : Option Value := none
  /-- The failing parameters, each with its reasons. -/
  errors : Option (Entries Value (List Value)) := none
deriving Repr

/-- The report of an error of a design. -/
def DesignError.report (e : DesignError) : ErrorReport where
  kind := e.errorClass
  text := e.message
  layer := some ((e.layerIndex.map Value.int).getD .absent, (e.layerType.map Value.text).getD .absent)
  reason := match e with
    | .shape _ _ reason => some (.text reason)
    | _ => none
  errors := match e with
    | .parameters _ errors _ => some (errors.map fun (name, reasons) => (.text name, reasons.map Value.text))
    | _ => none

namespace ErrorReport

/-- The reasons under each key of a mapping. -/
def reasons : Value → Entries Value (List Value)
  | .mapping entries => entries.map fun (key, v) => (key, v.elements?.getD [])
  | _ => []

/-- The text of a failure that has only details: one stands by itself, several as a row. -/
def plainText : List Value → String
  | [] => ""
  | [detail] => detail.ownText
  | details => (Value.row details).ownText

/-- The report of a failure of a class with some details. -/
def of (kind : ErrorClass) (details : List Value) : ErrorReport :=
  let detail (i : Nat) : Value := details.getD i .absent
  match kind with
  | .unknownLayerType =>
    { kind, text := DesignError.unknownText (detail 0).toText, layer := some (detail 1, detail 0) }
  | .parameter =>
    let errors := reasons (detail 1)
    let index := match detail 2 with
      | .absent => none
      | v => some v.toText
    { kind, layer := some (detail 2, detail 0), errors := some errors
      text := DesignError.parametersText (detail 0).toText
        (errors.map fun (key, reasons) => (key.toText, reasons.map Value.toText)) index }
  | .shape =>
    { kind, text := DesignError.shapeText (detail 0).toText (detail 1).toText (detail 2).toText
      layer := some (detail 0, detail 1), reason := some (detail 2) }
  | .compile | .configuration => { kind, text := (detail 0).ownText, layer := some (detail 1, detail 2) }
  | .operatorBuild | .modelState | .value | .runtime => { kind, text := plainText details }

end ErrorReport

end LayerStack

import LayerStack.Value.Axes

/-!
# LayerStack.Value.Compare

The order and the equality of values.

Numbers compare by their exact values unless a machine number is among them.  A machine number makes a literal beside it
one of its own type; beside one of another type both become doubles, as do an integer and a number with a point.
Booleans count as one and zero.  An array or a sequence of a single item compares with a machine number as that item
does.
-/

namespace LayerStack

namespace Value

/-- Is the value a number of a machine type? -/
def isMachine : Value → Bool
  | .scalar (.bool _) => false
  | .scalar _ => true
  | _ => false

/-- Two numbers as they are compared. -/
def paired? (a b : Value) : Option (Number × Number) := do
  let x ← a.quantity?
  let y ← b.quantity?
  let machine := a.unboxed.isMachine
  let machine' := b.unboxed.isMachine
  let widen := match x, y with
    | .int _, .int _ | .single _, .single _ => false
    | .single _, _ => machine'
    | _, .single _ => machine
    | _, _ => machine || machine'
  return if widen then (x.widened, y.widened) else (x, y)

/-- The order of two numbers; `none` if one of them is none. -/
def compare? (a b : Value) : Option Ordering := (paired? a b).bind fun (x, y) => Number.compare? x y

def le (a b : Value) : Bool := compare? a b == some .lt || compare? a b == some .eq

/-- Do two values have no format in which they can be compared?  A machine number with a point takes no integer past the
doubles, a machine boolean none past the words. -/
def overruns (a b : Value) : Bool := past a b || past b a
where
  past (a b : Value) : Bool :=
    match a.unboxed, b with
    | .scalar (.float64 _), _ | .scalar (.float32 _), _ => !(b.quantity?.all Number.hasDouble)
    | .scalar (.bool _), .int n => !Word.isSigned n
    | _, _ => false

/-- The only leaf of a sequence, if there is just one. -/
def only? (v : Value) : Option Value :=
  match v.leaves with
  | [leaf] => some leaf
  | _ => none

/-- Equality of values of no items. -/
def samePlain (a b : Value) : Bool :=
  match a, b with
  | .absent, .absent => true
  | .text s, .text t => s == t
  | _, _ => compare? a b == some .eq

/-- Equality of values of no items, if they can be compared. -/
def samePlain? (a b : Value) : Option Bool := if overruns a b then none else some (samePlain a b)

mutual

/-- Are two values equal, if they can be compared?  A list is never equal to a row; the order of a mapping's keys does
not matter. -/
def same? : Value → Value → Option Bool
  | .list items, b =>
    match b with
    | .list others => if items.length = others.length then sameAll? items others else some false
    | .scalar x => some (((Value.list items).only?.map (samePlain · (.scalar x))).getD false)
    | _ => some false
  | .row items, b =>
    match b with
    | .row others => sameAll? items others
    | .scalar x => some (((Value.row items).only?.map (samePlain · (.scalar x))).getD false)
    | _ => some false
  | .mapping entries, b =>
    match b with
    | .mapping others => if entries.length = others.length then sameEntries? entries others else some false
    | _ => some false
  | a, b =>
    match b with
    | .list _ | .row _ => some ((b.only?.map (samePlain a.unboxed ·)).getD false && (a matches .scalar _ | .array _))
    | b => samePlain? a b

/-- Are sequences equal?  The first items that differ end the search. -/
def sameAll? : List Value → List Value → Option Bool
  | [], others => some others.isEmpty
  | a :: rest, others =>
    match others with
    | [] => some false
    | b :: others => do if ← same? a b then sameAll? rest others else return false

/-- Does every key have an equal value in another mapping? -/
def sameEntries? : List (Value × Value) → List (Value × Value) → Option Bool
  | [], _ => some true
  | (key, a) :: rest, others =>
    match others.find? fun (k, _) => (same? key k).getD false with
    | none => some false
    | some (_, b) => do if ← same? a b then sameEntries? rest others else return false

end

/-- Are two values equal? -/
def same (a b : Value) : Bool := (same? a b).getD false

instance : BEq Value := ⟨same⟩

end Value

end LayerStack

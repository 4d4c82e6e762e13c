import LayerStack.Binary64.Numeral
import LayerStack.Value.Mapping
import LayerStack.Value.Share
import LayerStack.Value.Text

/-!
# LayerStack.Parameter.Rule

The rules a coerced parameter value is held to.

A rule decides a value and has a message for the values it refuses.  Booleans are never numbers.  The one way a rule
can fail to decide is an integer too large: for a double where a whole number is asked for, or for the machine number
it is compared with.
-/

namespace LayerStack

/-- What stops an analysis without blaming the design: a number past those of the form it is needed in, a row whose
items do not form a rectangular array, an array text with an integer of more digits than are read, or a checked layer
without a parameter it needs. -/
inductive AnalysisFault where
  | tooLarge | uneven | digits
  | incomplete (parameter : String)
deriving Repr, DecidableEq

def AnalysisFault.message : AnalysisFault → String
  | .tooLarge => "int too large to convert to float"
  | .uneven => ""
  | .digits => "Exceeds the limit for integer string conversion"
  | .incomplete parameter => parameter

/-- A rule for one parameter. -/
inductive Rule where
  | positiveInteger
  | positiveNumber
  /-- Strictly between 0 and 1. -/
  | probability
  /-- From 0 to 1. -/
  | probabilityInclusive
  | range (least greatest : Value)
  /-- One of some values; with a message of its own, or one that lists them. -/
  | oneOf (allowed : List Value) (message : Option String)
  /-- A list of positive integers, of any length. -/
  | positiveIntegers
  /-- A list with a number of items from `least` to `greatest`. -/
  | rank (least greatest : Value)
  | boolean
  /-- A positive integer or a list of two. -/
  | size2d
deriving Repr

namespace Rule

/-- The number a bound stands for: its own, or the one it spells. -/
def boundNumber? : Value → Option Number
  | .text s => (Numeral.read? s).map .double
  | v => v.quantity?

/-- The text of a bound: a whole number without a point. -/
def boundText (bound : Value) : String :=
  let whole := match boundNumber? bound with
    | some (.int n) => some n
    | some (.double x) | some (.single x) => x.toInt?
    | none => none
  whole.elim bound.ownText toString

/-- What is said of a value that breaks the rule. -/
def message : Rule → String
  | .positiveInteger => "Must be a positive integer"
  | .positiveNumber => "Must be a positive number"
  | .probability => "Must be between 0 and 1"
  | .probabilityInclusive => "Must be between 0 and 1 (inclusive)"
  | .range least greatest => s!"Must be between {boundText least} and {boundText greatest}"
  | .oneOf allowed none => "Must be one of: " ++ ", ".intercalate (allowed.map Value.toText)
  | .oneOf _ (some message) => message
  | .positiveIntegers => "Must be an array of positive integers"
  | .rank least greatest => s!"Shape must be an array with {least.toText}-{greatest.toText} dimensions"
  | .boolean => "Must be true or false"
  | .size2d => "Must be a positive integer or array of 2 positive integers"

/-- Is the number whole?  An integer must not be past the range of doubles. -/
def isWhole : Number → Except AnalysisFault Bool
  | .int n => if (Number.int n).hasDouble then .ok true else .error .tooLarge
  | .double x | .single x => .ok x.isWhole

def isPositiveInteger (v : Value) : Except AnalysisFault Bool :=
  match v.number? with
  | none => .ok false
  | some x => do return (← isWhole x) && Number.lt (.int 0) x

/-- Are all items positive integers?  The first that is none ends the search. -/
def allPositiveIntegers : List Value → Except AnalysisFault Bool
  | [] => .ok true
  | v :: vs => do if ← isPositiveInteger v then allPositiveIntegers vs else return false

/-- A predicate on the number a value is; false of every other value. -/
def onNumber (p : Number → Bool) (v : Value) : Bool := (v.number?.map p).getD false

/-- Is a number at most another?  Those that have no format to share cannot be compared. -/
def isAtMost (a b : Value) : Except AnalysisFault Bool :=
  if Value.overruns a b then .error .tooLarge else .ok (Value.le a b)

/-- Is a value equal to one of some others?  The first that is ends the search. -/
def isAmong (v : Value) : List Value → Except AnalysisFault Bool
  | [] => .ok false
  | a :: rest =>
    match a.same? v with
    | some true => .ok true
    | some false => isAmong v rest
    | none => .error .tooLarge

/-- Is a number from one bound to another?  One below the first is not compared with the second. -/
def isBetween (least greatest v : Value) : Except AnalysisFault Bool := do
  if ← isAtMost least v then isAtMost v greatest else return false

/-- Does the value obey the rule? -/
def holds (rule : Rule) (v : Value) : Except AnalysisFault Bool :=
  match rule with
  | .positiveInteger => isPositiveInteger v
  | .positiveNumber => .ok (onNumber (Number.lt (.int 0)) v)
  | .probability => .ok (onNumber (fun x => Number.lt (.int 0) x && Number.lt x (.int 1)) v)
  | .probabilityInclusive => .ok (onNumber (fun x => Number.le (.int 0) x && Number.le x (.int 1)) v)
  | .range least greatest => if v.number?.isSome then isBetween least greatest v else .ok false
  | .oneOf allowed _ => isAmong v allowed
  | .positiveIntegers =>
    match v with
    | .list items => allPositiveIntegers items
    | _ => .ok false
  | .rank least greatest =>
    match v with
    | .list items => isBetween least greatest (.int items.length)
    | _ => .ok false
  | .boolean => .ok v.isBoolean
  | .size2d =>
    match v with
    | .list items => if items.length = 2 then allPositiveIntegers items else .ok false
    | v => isPositiveInteger v

/-- The rules a value breaks, in order. -/
def broken : List Rule → Value → Except AnalysisFault (List Rule)
  | [], _ => .ok []
  | rule :: rules, v => do
    let obeyed ← rule.holds v
    let rest ← broken rules v
    return if obeyed then rest else rule :: rest

end Rule

end LayerStack

import LayerStack.Operator.Parameters
import LayerStack.Optimizer.Setting

/-!
# LayerStack.Optimizer

Gradient descent: how weights follow their gradients.

A rule changes every number by itself, from its gradient and from two moments kept of the gradients before; what is
said of one number holds of whole tensors.  A step counts for all parameters, but moves only those that come with a
gradient.  It stops at a setting that has no double, and what it has done until then stays done.
-/

namespace LayerStack

/-- How a weight follows its gradient; the settings are values of any kind. -/
inductive UpdateRule (β : Type) where
  /-- Adam with decoupled weight decay. -/
  | adam (beta1 beta2 epsilon weightDecay : β)
  /-- Plain descent, or descent with momentum. -/
  | sgd (momentum : β)
  /-- Descent scaled by the root of the mean square. -/
  | rmsprop (rho epsilon : β)
  /-- A rule that says nothing of how a weight changes. -/
  | undefined
deriving Repr

/-- What is kept of the past gradients of one number. -/
structure Moments (α : Type) where
  first : α
  second : α
deriving Repr, DecidableEq

namespace UpdateRule

variable {α β : Type}

/-- All settings of a rule. -/
def settings : UpdateRule β → List β
  | .adam a b c d => [a, b, c, d]
  | .sgd a => [a]
  | .rmsprop a b => [a, b]
  | .undefined => []

def isDefined : UpdateRule β → Bool
  | .undefined => false
  | _ => true

/-! ## One number -/

/-- Is momentum switched off? -/
def isPlain [Zero α] [LE α] [DecidableLE α] (momentum : α) : Bool := momentum ≤ 0 ∧ 0 ≤ momentum

/-- The moments after a gradient. -/
def moments [Zero α] [One α] [Add α] [Sub α] [Mul α] [LE α] [DecidableLE α] (rule : UpdateRule α) (rate gradient : α)
    (m : Moments α) : Moments α :=
  match rule with
  | .adam beta1 beta2 _ _ =>
    ⟨beta1 * m.first + (1 - beta1) * gradient, beta2 * m.second + (1 - beta2) * Scalar.square gradient⟩
  | .sgd momentum => if isPlain momentum then m else ⟨momentum * m.first - rate * gradient, m.second⟩
  | .rmsprop rho _ => ⟨m.first, rho * m.second + (1 - rho) * Scalar.square gradient⟩
  | .undefined => m

/-- A moment freed of the bias towards its start at zero, from the power of its decay by the number of gradients. -/
def corrected [One α] [Sub α] [Div α] (power moment : α) : α := moment / (1 - power)

/-- The number after the step that brought the moments to `m`, from the powers of the two decays. -/
def apply [Zero α] [One α] [Add α] [Sub α] [Mul α] [Div α] [LE α] [DecidableLE α] [Elementary α]
    (rule : UpdateRule α) (powers : α × α) (rate gradient : α) (m : Moments α) (x : α) : α :=
  match rule with
  | .adam _ _ epsilon weightDecay =>
    let update := corrected powers.1 m.first / (Elementary.sqrt (corrected powers.2 m.second) + epsilon)
    x - rate * (update + weightDecay * x)
  | .sgd momentum => if isPlain momentum then x - rate * gradient else x + m.first
  | .rmsprop _ epsilon => x - rate * gradient / (Elementary.sqrt m.second + epsilon)
  | .undefined => x

end UpdateRule

/-- What one number follows in a step: the rule, the powers of its two decays by the number of gradients, and the
rate. -/
structure Pace (α : Type) where
  rule : UpdateRule α
  powers : α × α
  rate : α
deriving Repr

namespace Pace

variable {α : Type} [Scalar α]

/-- The moments after a gradient. -/
def moments (p : Pace α) (gradient : α) (m : Moments α) : Moments α := p.rule.moments p.rate gradient m

/-- The number after a gradient, from the moments after it. -/
def move (p : Pace α) (gradient : α) (m : Moments α) (x : α) : α := p.rule.apply p.powers p.rate gradient m x

end Pace

/-! ## How far a step gets -/

/-- What the settings of a step let it come to: either moment, and the number itself. -/
structure Reach where
  first : Bool
  second : Bool
  number : Bool
deriving Repr, DecidableEq

namespace Reach

variable {α : Type}

open Setting

/-- How far a step gets that is the last of some; `words` and `wordGradient` tell whether the parameter and its gradient
are tensors of words. -/
def ofSettings (α : Type) [Scalar α] (rule : UpdateRule Value) (rate : Value) (count : Nat)
    (words wordGradient : Bool) : Reach :=
  match rule with
  | .adam beta1 beta2 epsilon weightDecay =>
    let first := scales beta1 words && isDouble beta1
    let second := first && scales beta2 words && isDouble beta2
    { first, second
      number := second && hasPower α count beta1 && hasPower α count beta2 && scales weightDecay words
        && isDouble epsilon && isDouble rate }
  | .sgd momentum =>
    let first := scales momentum words && scales rate wordGradient
    { first, second := true, number := first }
  | .rmsprop rho epsilon =>
    let second := scales rho words && isDouble rho
    { first := true, second, number := second && scales rate wordGradient && isDouble epsilon }
  | .undefined => ⟨true, true, true⟩

/-- The moments a step comes to, from those before and those after it. -/
def moments (r : Reach) (before after : Moments α) : Moments α :=
  ⟨if r.first then after.first else before.first, if r.second then after.second else before.second⟩

end Reach

/-! ## Optimizers -/

/-- The settings of an optimizer as they are given. -/
structure OptimizerSettings where
  rule : UpdateRule Value
  learningRate : Value
deriving Repr

/-- What an optimizer keeps for one parameter. -/
structure Slot (α : Type) where
  name : String
  dims : Dims
  moments : Tensor (Moments α) dims

/-- An optimizer: its settings, the number of its steps, and a slot for every parameter it was given. -/
structure Optimizer (α : Type) where
  settings : OptimizerSettings
  count : Nat := 0
  slots : Option (List (Slot α)) := none

namespace OptimizerSettings

/-- A decimal as a setting. -/
def decimal (digits places : Nat) : Value := .float (.ofDecimal false digits (-(places : Int)))

/-- The rules with their usual settings. -/
def adam : UpdateRule Value := .adam (decimal 9 1) (decimal 999 3) (decimal 1 7) (decimal 0 1)

def sgd : UpdateRule Value := .sgd (decimal 0 1)

def rmsprop : UpdateRule Value := .rmsprop (decimal 9 1) (decimal 1 7)

/-- An optimizer by its kind, with its usual settings. -/
def ofKind (kind : OptimizerKind) (learningRate : Value) : OptimizerSettings :=
  match kind with
  | .adam => ⟨adam, learningRate⟩
  | .sgd => ⟨sgd, learningRate⟩
  | .rmsprop => ⟨rmsprop, learningRate⟩

/-- A fresh optimizer.  A learning rate that is zero or less is refused; the other settings are left to the steps. -/
def optimizer {α : Type} (s : OptimizerSettings) : Except RunError (Optimizer α) :=
  match s.learningRate.quantity? with
  | some rate => if Number.le rate (.int 0) then .error (.learningRate s.learningRate) else .ok { settings := s }
  | none => .error .illTyped

/-- Are all settings of a step numbers? -/
def areNumeric (s : OptimizerSettings) (rate : Value) : Bool := (rate :: s.rule.settings).all Setting.isNumeric

/-- What every number of a tensor follows in a step that is the last of some. -/
def paces? {α : Type} [Scalar α] (s : OptimizerSettings) (rate : Value) (count : Nat) (dims : Dims) :
    Option (Tensor (Pace α) dims) := do
  let number := Setting.spread? (α := α) Setting.number? dims
  let power := Setting.spread? (α := α) (Setting.power? count) dims
  let rate ← number rate
  match s.rule with
  | .adam beta1 beta2 epsilon weightDecay =>
    let rules := Tensor.zipWith (fun (b1, b2) (e, w) => UpdateRule.adam b1 b2 e w)
      (Tensor.zip (← number beta1) (← number beta2)) (Tensor.zip (← number epsilon) (← number weightDecay))
    let powers := Tensor.zip (← power beta1) (← power beta2)
    return Tensor.zipWith (fun (rule, powers) rate => ⟨rule, powers, rate⟩) (Tensor.zip rules powers) rate
  | .sgd momentum => return Tensor.zipWith (fun m rate => ⟨.sgd m, (1, 1), rate⟩) (← number momentum) rate
  | .rmsprop rho epsilon =>
    let rules := Tensor.zipWith UpdateRule.rmsprop (← number rho) (← number epsilon)
    return Tensor.zipWith (fun rule rate => ⟨rule, (1, 1), rate⟩) rules rate
  | .undefined => none

end OptimizerSettings

namespace Slot

variable {α : Type} [Scalar α]

/-- The slot of a parameter before its first gradient. -/
def fresh (name : String) (x : AnyTensor α) : Slot α := ⟨name, x.dims, Tensor.fill ⟨0, 0⟩ x.dims⟩

/-- The slot and its parameter after a gradient. -/
def step (slot : Slot α) (paces : Tensor (Pace α) slot.dims) (gradient x : Tensor α slot.dims) :
    Slot α × Tensor α slot.dims :=
  let moments := Tensor.zipWith (fun (p, g) m => p.moments g m) (Tensor.zip paces gradient) slot.moments
  let moved := Tensor.zipWith (fun (p, g) (m, x) => p.move g m x) (Tensor.zip paces gradient) (Tensor.zip moments x)
  ({ slot with moments }, moved)

/-- The slot after a gradient that does not reach the parameter. -/
def halted (slot : Slot α) (reach : Reach) (paces : Tensor (Pace α) slot.dims) (gradient : Tensor α slot.dims) :
    Slot α :=
  { slot with
    moments := Tensor.zipWith (fun (p, g) m => reach.moments m (p.moments g m)) (Tensor.zip paces gradient)
      slot.moments }

end Slot

/-- What a step goes through: the slots of an optimizer and the parameters it is in charge of. -/
structure Holdings (α : Type) where
  slots : List (Slot α)
  parameters : NamedTensors α

namespace Holdings

variable {α : Type}

/-- Puts a slot in the place of the one of its name. -/
def putSlot (h : Holdings α) (slot : Slot α) : Holdings α :=
  { h with slots := h.slots.map fun s => if s.name == slot.name then slot else s }

/-- Puts a tensor in the place of the parameter of a name. -/
def putParameter (h : Holdings α) (name : String) (x : AnyTensor α) : Holdings α :=
  { h with parameters := h.parameters.update [(name, x)] }

end Holdings

namespace Optimizer

variable {α : Type} [Scalar α]

/-- Takes charge of parameters: the count and all moments start at zero. -/
def reset (o : Optimizer α) (parameters : NamedTensors α) : Optimizer α :=
  { o with count := 0, slots := some (parameters.map fun (name, x) => Slot.fresh name x) }

/-- What is kept of one moment, parameter by parameter; nothing before the first parameters. -/
def kept (o : Optimizer α) (moment : Moments α → α) : NamedTensors α :=
  (o.slots.getD []).map fun slot => (slot.name, ⟨slot.dims, slot.moments.map moment⟩)

/-- A step in the making, which keeps what it has done if it fails. -/
abbrev Descent (α β : Type) := ExceptT RunError (StateM (Holdings α)) β

/-- Follows the gradient of a parameter, if the optimizer is in charge of that. -/
def follow (o : Optimizer α) (rate : Value) (name : String) (gradient : AnyTensor α) : Descent α Unit := do
  let h ← get
  match h.slots.find? (·.name == name), h.parameters.lookup name with
  | some slot, some x =>
    if !o.settings.rule.isDefined then throw .undefined
    if !o.settings.areNumeric rate then throw .illTyped
    match gradient.spread? slot.dims, x.as? slot.dims, o.settings.paces? rate o.count slot.dims with
    | some g, some y, some paces =>
      let reach := Reach.ofSettings α o.settings.rule rate o.count x.isWords gradient.isWords
      if reach.number then
        let (slot, y) := slot.step paces g y
        set ((h.putSlot slot).putParameter name ⟨_, y⟩)
      else
        set (h.putSlot (slot.halted reach paces g))
        throw .tooLarge
    | _, _, _ => throw .mismatch
  | _, _ => pure ()

/-- Follows gradients in their order, as far as they are there. -/
def followAll (o : Optimizer α) (rate : Value) : List (String × Option (AnyTensor α)) → Descent α Unit
  | [] => pure ()
  | (name, gradient) :: rest => do
    if let some g := gradient then o.follow rate name g
    o.followAll rate rest

/-- A step along gradients, at the optimizer's own rate or at another one: the parameters and the optimizer after it.  A
step that fails counts. -/
def step (o : Optimizer α) (gradients : List (String × Option (AnyTensor α))) (rate : Option Value)
    (parameters : NamedTensors α) : Except RunError Unit × NamedTensors α × Optimizer α :=
  match o.slots with
  | none => (.error .notInitialized, parameters, o)
  | some slots =>
    let o := { o with count := o.count + 1 }
    let (result, h) := (o.followAll (rate.getD o.settings.learningRate) gradients).run.run ⟨slots, parameters⟩
    (result, h.parameters, { o with slots := some h.slots })

end Optimizer

/-! ## Clipping -/

namespace GradientNorm

variable {α : Type} [Scalar α]

/-- The gradients that are there. -/
def present (gradients : List (String × Option (AnyTensor α))) : NamedTensors α :=
  gradients.filterMap fun (name, g) => g.map (name, ·)

/-- The norm of all gradients together. -/
def norm (gradients : NamedTensors α) : α :=
  Elementary.sqrt (gradients.foldl (fun total (_, g) => total + (g.map Scalar.square).value.total) 0)

/-- Gradients scaled down together, where their norm is above the greatest one allowed. -/
def clip (gradients : List (String × Option (AnyTensor α))) (greatest : α) : NamedTensors α :=
  let gradients := present gradients
  let n := norm gradients
  let factor := if greatest < n then greatest / n else 1
  gradients.map fun (name, g) => (name, g.map (· * factor))

/-- Gradients clipped to a norm as it is given; without one they stay as they are. -/
def clipTo (greatest : Value) (gradients : List (String × Option (AnyTensor α))) :
    Except RunError (List (String × Option (AnyTensor α))) :=
  match greatest.quantity? with
  | some n => do
    let n ← RunError.double n
    return (clip gradients (Scalar.ofNumber n)).map fun (name, g) => (name, some g)
  | none => .ok gradients

end GradientNorm

end LayerStack

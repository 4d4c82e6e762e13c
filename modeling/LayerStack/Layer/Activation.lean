import LayerStack.Layer.Choice
import LayerStack.Tensor.Any

/-!
# LayerStack.Layer.Activation

What each activation computes, and how a gradient passes back through it.

All activations but softmax act on each number by itself; softmax acts on the rows along the last axis.  The way back
takes the numbers *before* the activation.
-/

namespace LayerStack

namespace Tensor

variable {α : Type} {n : Nat} {s : Dims}

/-- Numbers scaled to a distribution along the first axis.  The largest is taken off before the exponentials, which
cancels in the ratio and keeps them from overflowing. -/
def softmax [Scalar α] (x : Tensor α (n :: s)) : Tensor α (n :: s) :=
  let peak : Tensor α s := x.reduce Scalar.maximum 0
  let powers : Tensor α (n :: s) := x.mapRows fun r => zipWith (fun a m => Elementary.exp (a - m)) r peak
  let sums := powers.sumRows
  powers.mapRows fun r => zipWith (· / ·) r sums

/-- A gradient passed back through a softmax, given what that softmax came to. -/
def softmaxBackward [Zero α] [Add α] [Sub α] [Mul α] (cotangent weights : Tensor α [n]) : Tensor α [n] :=
  let mean := cotangent.dot weights
  zipWith (fun g s => s * (g - mean)) cotangent weights

end Tensor

/-! ## The functions -/

namespace Scalar

variable {α : Type} [Scalar α]

open Elementary

def sigmoid (x : α) : α := half * (1 + tanh (half * x))

def relu (x : α) : α := maximum 0 x

def elu (alpha x : α) : α := if 0 < x then x else alpha * expm1 (minimum x 0)

def seluAlpha : α := decimal 16732632423543772 16

def seluScale : α := decimal 10507009873554805 16

def softplus (x : α) : α := if x ≤ 0 then log1p (exp x) else x + log1p (exp (-x))

def softsign (x : α) : α := x / (1 + abs x)

/-- The inner function of the approximated Gaussian unit. -/
def geluInner (x : α) : α := sqrt (((2 : Nat) : α) / pi) * (x + decimal 44715 6 * (x * x * x))

def eluBackward (alpha g x : α) : α := g * (if 0 < x then 1 else alpha * exp (minimum x 0))

def geluSlope (x : α) : α :=
  let t := tanh (geluInner x)
  let inner := sqrt (((2 : Nat) : α) / pi) * (1 + ((3 : Nat) : α) * decimal 44715 6 * square x)
  half * (1 + t) + half * x * (1 - square t) * inner

end Scalar

namespace Activation

variable {α : Type} [Scalar α]

open Scalar

/-- The function of an activation that acts on each number by itself. -/
def value : Activation → α → α
  | .linear, x | .softmax, x => x
  | .relu, x => Scalar.relu x
  | .sigmoid, x => Scalar.sigmoid x
  | .tanh, x => Elementary.tanh x
  | .elu, x => Scalar.elu 1 x
  | .selu, x => seluScale * Scalar.elu seluAlpha x
  | .softplus, x => Scalar.softplus x
  | .softsign, x => Scalar.softsign x
  | .swish, x => x * Scalar.sigmoid x
  | .mish, x => x * Elementary.tanh (Scalar.softplus x)
  | .gelu, x => half * x * (1 + Elementary.tanh (geluInner x))

/-- The gradient before an activation of each number by itself, from the gradient after it and the number. -/
def backward : Activation → (cotangent x : α) → α
  | .linear, g, _ | .softmax, g, _ => g
  | .relu, g, x => g * indicator (0 < x)
  | .sigmoid, g, x => let s := Scalar.sigmoid x; g * s * (1 - s)
  | .tanh, g, x => g * (1 - square (Elementary.tanh x))
  | .elu, g, x => eluBackward 1 g x
  | .selu, g, x => seluScale * eluBackward seluAlpha g x
  | .softplus, g, x => g * Scalar.sigmoid x
  | .softsign, g, x => g / square (1 + abs x)
  | .swish, g, x => let s := Scalar.sigmoid x; g * (s + x * s * (1 - s))
  | .mish, g, x =>
    let t := Elementary.tanh (Scalar.softplus x)
    g * (t + x * (1 - square t) * Scalar.sigmoid x)
  | .gelu, g, x => g * geluSlope x

/-! ## Rows and tensors -/

variable {n : Nat}

/-- An activation of a row of numbers. -/
def onRow (a : Activation) (x : Tensor α [n]) : Tensor α [n] :=
  match a with
  | .softmax => x.softmax
  | a => x.map a.value

/-- The gradient before an activation of a row, from the gradient after it. -/
def backwardOnRow (a : Activation) (cotangent x : Tensor α [n]) : Tensor α [n] :=
  match a with
  | .softmax => Tensor.softmaxBackward cotangent x.softmax
  | a => Tensor.zipWith a.backward cotangent x

/-- An activation of a tensor. -/
def onTensor (a : Activation) (x : AnyTensor α) : AnyTensor α :=
  match a with
  | .softmax => x.mapLast Tensor.softmax
  | a => x.map a.value

/-- The gradient before an activation of a tensor; without an activation it is the gradient after it. -/
def backwardOnTensor? (a : Activation) (cotangent x : AnyTensor α) : Option (AnyTensor α) :=
  match a with
  | .linear => some cotangent
  | .softmax => cotangent.zipLast? Tensor.softmaxBackward (x.mapLast Tensor.softmax)
  | a => cotangent.zipWith? a.backward x

end Activation

end LayerStack

import LayerStack.Layer.Choice

/-!
# LayerStack.Shape.Window

Windows of a given length and stride along one axis.

With `valid` padding the windows lie inside the axis.  With `same` padding the axis is lengthened at both ends so that
there is one window for every stride, `⌈size / stride⌉` in all; of an odd excess the larger half comes after.
-/

namespace LayerStack

/-- The number of windows along an axis; below one where no window fits. -/
def windowCount (size kernel stride : Int) : Padding → Int
  | .same => -(-size).fdiv stride
  | .valid => (size - kernel).fdiv stride + 1

/-- The cells added before and after an axis by `same` padding. -/
def samePadding (size kernel stride : Int) : Int × Int :=
  let total := max ((windowCount size kernel stride .same - 1) * stride + kernel - size) 0
  (total.fdiv 2, total - total.fdiv 2)

end LayerStack

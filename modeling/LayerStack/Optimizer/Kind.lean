/-!
# LayerStack.Optimizer.Kind

The optimizers there are, by name.
-/

namespace LayerStack

/-- An optimizer a training run can ask for. -/
inductive OptimizerKind where
  | adam | sgd | rmsprop
deriving Repr, DecidableEq, Inhabited

namespace OptimizerKind

def all : List OptimizerKind := [.adam, .sgd, .rmsprop]

def name : OptimizerKind → String
  | .adam => "adam"
  | .sgd => "sgd"
  | .rmsprop => "rmsprop"

def ofName? (name : String) : Option OptimizerKind := all.find? (·.name == name)

end OptimizerKind

end LayerStack

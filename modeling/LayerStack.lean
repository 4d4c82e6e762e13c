import LayerStack.Binary64.Brief
import LayerStack.Layer.Template
import LayerStack.Operator.Disposable
import LayerStack.Scalar.Machine
import LayerStack.Tensor.Digest
import LayerStack.Value.Document
import LayerStack.Workbench
import LayerStack.Error.Report
import LayerStack.Operator.Settings
import LayerStack.Scalar.Mixed
import LayerStack.Proofs.Entries
import LayerStack.Proofs.Parameter.Form
import LayerStack.Proofs.Parameter.Complete
import LayerStack.Proofs.Shape.Prefix
import LayerStack.Proofs.Shape.Chain
import LayerStack.Proofs.Shape.Window
import LayerStack.Proofs.Operator.Made
import LayerStack.Proofs.Number
import LayerStack.Proofs.Session.Compile
import LayerStack.Proofs.Operator.Forward
import LayerStack.Proofs.Operator.Pass
import LayerStack.Proofs.Operator.Agree
import LayerStack.Proofs.Operator.Backward
import LayerStack.Proofs.Model.Chain
import LayerStack.Proofs.Model.Run
import LayerStack.Proofs.Model.Shapes
import LayerStack.Proofs.Model.Gradients
import LayerStack.Proofs.Parameter.Declared
import LayerStack.Proofs.Value.Reader
import LayerStack.Proofs.Session.Step
import LayerStack.Proofs.Compiler.Lifecycle
import LayerStack.Proofs.Operator.Owned
import LayerStack.Proofs.Model.Owned
import LayerStack.Proofs.Memory
import LayerStack.Proofs.Session.Memory
import LayerStack.Proofs.Compiler.Memory
import LayerStack.Proofs.Parameter.Normal
import LayerStack.Proofs.Shape.Normal
import LayerStack.Proofs.Shape.Append
import LayerStack.Proofs.Training.Head
import LayerStack.Proofs.Operator.Inference
import LayerStack.Proofs.Operator.Undropped
import LayerStack.Proofs.Shape.Dropout
import LayerStack.Proofs.Model.Dropout
import LayerStack.Proofs.Tensor.Sample
import LayerStack.Proofs.Operator.Sample
import LayerStack.Proofs.Model.Sample
import LayerStack.Proofs.Session.Blueprint
import LayerStack.Proofs.Training.Acts
import LayerStack.Proofs.Training.Exercise
import LayerStack.Proofs.Training.HeldOut
import LayerStack.Proofs.Training.Stop
import LayerStack.Proofs.Optimizer
import LayerStack.Proofs.Operator.Convolution.Adjoint
import LayerStack.Proofs.Operator.Pooling.Routing
import LayerStack.Proofs.Operator.Transpose.TransformerBlock
import LayerStack.Proofs.Tensor.Place
import LayerStack.Proofs.Operator.Transpose.Attend
import LayerStack.Proofs.Operator.Permuted
import LayerStack.Proofs.Operator.Transpose.Normalized
import LayerStack.Proofs.Parameter.Boolean
import LayerStack.Proofs.Parameter.Coerce
import LayerStack.Proofs.Parameter.Each
import LayerStack.Proofs.Parameter.Sanitize
import LayerStack.Proofs.Parameter.Spelled
import LayerStack.Proofs.Shape.Counted
import LayerStack.Proofs.Loader.Delivery
import LayerStack.Proofs.Loss.Crossentropy
import LayerStack.Proofs.Dataset
import LayerStack.Proofs.Training.Evaluate
import LayerStack.Proofs.Model.Count
import LayerStack.Proofs.Optimizer.Apart
import LayerStack.Proofs.Optimizer.Average
import LayerStack.Proofs.Optimizer.Clip
import LayerStack.Proofs.Shape.Cover
import LayerStack.Proofs.Operator.Heads
import LayerStack.Proofs.Operator.Averages
import LayerStack.Proofs.Operator.Accumulate
import LayerStack.Proofs.Layer.Initializer
import LayerStack.Proofs.Memory.Reuse

import Plc.Block.Counter
import Plc.Block.Latch
import Plc.Block.Timer
import Plc.Library
import Plc.Settings
import Plc.Proofs.Block.OffDelay
import Plc.Proofs.Block.OnDelay
import Plc.Proofs.Block.Restart
import Plc.Proofs.Operator.Division
import Plc.Proofs.Reachable
import Plc.Proofs.Literal.Classify
import Plc.Proofs.Literal.Integer
import Plc.Proofs.Conversion.RoundTrip
import Plc.Proofs.Literal.ExplicitType
import Plc.Proofs.Binary.Whole
import Plc.Proofs.Literal.Duration
import Plc.Proofs.Library.Overwritten
import Plc.Proofs.Conversion.DecimalCode
import Plc.Proofs.Conversion.Retyped
import Plc.Proofs.Conversion.RealText
import Plc.Proofs.Block.Admission
import Plc.Proofs.Conversion.DurationText
import Plc.Proofs.Operator.TimeSpan
import Plc.Proofs.Library.Flags
import Plc.Proofs.Settings
import Plc.Proofs.Operator.Shift
import Plc.Proofs.Literal.Moment
import Plc.Proofs.Operator.Container
import Plc.Proofs.Literal.MomentForm
import Plc.Proofs.Operator.FirstPlace
import Plc.Proofs.Operator.CharString
import Plc.Proofs.Operator.Position
import Plc.Proofs.Operator.Concatenation
import Plc.Proofs.Conversion.Chain
import Plc.Proofs.Operator.TimeNumber
import Plc.Proofs.Operator.Saturation
import Plc.Proofs.Conversion.Truncation
import Plc.Proofs.Operator.BooleanAlgebra
import Plc.Proofs.Operator.Relation
import Plc.Proofs.Operator.Extreme
import Plc.Proofs.Operator.Multiplexer
import Plc.Proofs.Block.Counter
import Plc.Proofs.Block.Edge
import Plc.Proofs.Conversion.Name
import Plc.Proofs.Clock
import Plc.Proofs.Duration

import TensorUnit.DataType
import TensorUnit.Double

namespace TensorUnit.DataType

/-- Truncates toward zero and saturates; what is not a number becomes zero. -/
def toFixed (dt : DataType) (x : Double) : Int :=
  let y := x.number
  if y.isNaN then 0
  else
    let scaled := Double.truncate (y * .ofNat (2 ^ dt.binaryPoint))
    (Double.clamp (.ofInt dt.minRaw) (.ofInt dt.maxRaw) scaled).toInt32.toInt

def fromFixed (dt : DataType) (raw : Int) : Double :=
  .ofNumber (.ofInt raw / .ofNat (2 ^ dt.binaryPoint))

end TensorUnit.DataType

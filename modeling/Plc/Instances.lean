/-!
# Preferred instances

Powers of numbers and the equality of byte sequences are those of the core library. Mathematical
libraries bring instances of their own for both; these stand back here, so that a definition means the
same whatever else is imported beside it.
-/

namespace Plc

@[default_instance 20000]
instance (priority := 2000) natPower : Pow Nat Nat := instPowNat

@[default_instance 20000]
instance (priority := 2000) intPower : Pow Int Nat := instPowNat

instance (priority := 2000) decidableEqBytes : DecidableEq ByteArray := ByteArray.instDecidableEq

end Plc

-- powers, zeroes and the equality of byte arrays are those of the core library, whatever other
-- instances are at hand
attribute [instance (1100)] instPowNat Zero.ofOfNat0 ByteArray.instDecidableEq
attribute [default_instance (10100)] instPowNat

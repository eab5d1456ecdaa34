/-!
# The state between scans

A parser may ask to reset what is kept between scans, to save it into a buffer and to restore it
from bytes. A scan depends on its stream and its candidates alone, so the state is empty: it takes
no bytes to save, and any bytes restore it.
-/

namespace ScssTokens

/-- What is kept from one scan to the next: nothing. -/
structure ScanState where
  deriving DecidableEq, Repr, Inhabited

namespace ScanState

/-- Puts the state back to the initial one. -/
def reset (_ : ScanState) : ScanState := {}

/-- Saves the state into a buffer: the number of bytes written and the buffer afterwards. -/
def save (_ : ScanState) (buffer : List UInt8) : Nat × List UInt8 := (0, buffer)

/-- The state that saved bytes stand for. -/
def restore (_ : List UInt8) : ScanState := {}

end ScanState

end ScssTokens

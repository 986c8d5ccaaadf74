import Caneo.BitField
import Mathlib.Data.Rat.Defs

/-!
# Frames

`DataFrame` and `CanFrame` (`src/frame`): what a socket delivers, what a decoder adds to it, and
what the views, the logger and the model engine read. Time points are nanoseconds since the epoch.
-/

namespace Caneo

open BitField

structure DecodedSignal where
  name : String
  value : ℚ
  unit : String
  minVal : ℚ := 0
  maxVal : ℚ := 0
deriving DecidableEq

structure CanHeader where
  id : BitVec 32
  interface : String
  dlc : BitVec 8
deriving DecidableEq

structure CanFrame where
  header : CanHeader
  payload : Bytes
  decoded : List DecodedSignal := []
  msgName : String := ""
  timestamp : Int := 0
deriving DecidableEq

namespace CanFrame

def addDecoded (frame : CanFrame) (signal : DecodedSignal) : CanFrame :=
  { frame with decoded := frame.decoded ++ [signal] }

def setMsgName (frame : CanFrame) (name : String) : CanFrame := { frame with msgName := name }

def setTimestamp (frame : CanFrame) (ts : Int) : CanFrame := { frame with timestamp := ts }

end CanFrame

end Caneo

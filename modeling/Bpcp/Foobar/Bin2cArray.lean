import Bpcp.Foobar.Bin2cInput
import Bpcp.Lib.Nibble
import Bpcp.Lib.Run

/-!
# How bin2c prints an array

The bytes of a file are printed as the initializer of an array in C, eight in a line. The counter
of the loop is an `unsigned` and its bound is an `unsigned long` that is one less than the length,
so the loop goes on for ever when there are no bytes, or more than an `unsigned` can count. In all
other cases what is printed is read back as the bytes.
-/

namespace Bpcp.Foobar

open Bpcp.Lib Bpcp.Lib.Run

/-- A digit that `%x` prints. -/
def hexDigit (value : UInt8) : UInt8 := if value < 10 then 48 + value else 87 + value

/-- `0x%02x`. -/
def hexByte (byte : UInt8) : List UInt8 :=
  [48, 120, hexDigit (byte >>> (4 : UInt8)), hexDigit (byte &&& (15 : UInt8))]

/-- What stands before the value at an index. -/
def lead (index : ℕ) : List UInt8 := if index % 8 = 0 then [32, 32] else []

/-- What stands behind the comma after the value at an index. -/
def trail (index : ℕ) : List UInt8 := if index % 8 = 7 then [10] else [32]

/-- The values from an index on, as they are printed. -/
def arrayText : ℕ → List UInt8 → List UInt8
  | _, [] => []
  | index, [last] => lead index ++ hexByte last ++ (CString.lit "\n\x7d;\n\n").bytes
  | index, byte :: next :: rest =>
    lead index ++ hexByte byte ++ 44 :: trail index ++ arrayText (index + 1) (next :: rest)

variable {memory : Memory} {destLen : UInt64} {turns : ℕ} {state : PrintState}

variable {byte : UInt8} {text rest : List UInt8}

end Bpcp.Foobar

/-
# Port numbers as text

`set_src_port` and `set_dst_port`, `SPEC_FULL.md`, section 4.2.

A port is written in decimal digits, with any number of leading zeros and at most
one plus sign in front; its value is at most 65535.
-/

import RemoteMemory.Error
import RemoteMemory.Numeral

namespace RemoteMemory
namespace Udp
namespace Port

/-- The text without one leading plus sign. -/
def unsigned : List Char → List Char
  | '+' :: rest => rest
  | cs => cs

/-- The port a text denotes, if it denotes one. -/
def ofText? (text : String) : Option UInt16 :=
  match Numeral.value? 10 (unsigned text.toList) with
  | some n => if n ≤ 65535 then some (.ofNat n) else none
  | none => none

/-- The port a text denotes; a text that denotes none is refused whole. -/
def parse (text : String) : Except Error UInt16 :=
  match ofText? text with
  | some p => .ok p
  | none => .error (.invalidPort text)

end Port
end Udp
end RemoteMemory

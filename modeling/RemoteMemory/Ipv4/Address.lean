/-
# IPv4 addresses

`set_src_addr` and `set_dst_addr`, `SPEC_FULL.md`, section 4.2.

An address is four octets.  Its text is four decimal numbers from 0 to 255 joined
by dots, each of at most three digits and written without leading zeros:
`192.168.2.1`.
-/

import RemoteMemory.Octets
import RemoteMemory.Error
import RemoteMemory.Numeral

namespace RemoteMemory
namespace Ipv4

/-- An IPv4 address, first octet on the wire first. -/
structure Address where
  o0 : UInt8
  o1 : UInt8
  o2 : UInt8
  o3 : UInt8
deriving DecidableEq

namespace Address

/-- The address of four zero octets. -/
def zero : Address := ⟨0, 0, 0, 0⟩

/-- The four octets of an address. -/
def octets (a : Address) : Octets := [a.o0, a.o1, a.o2, a.o3]

/-- The two words of an address. -/
def words (a : Address) : List UInt16 := [Octets.word16 a.o0 a.o1, Octets.word16 a.o2 a.o3]

@[simp] theorem length_octets (a : Address) : a.octets.length = 4 := rfl

/-- The octet that a group of decimal digits denotes: at most three digits, no
leading zero, at most 255. -/
def octet? (group : List Char) : Option UInt8 :=
  if 3 < group.length ∨ (group.head? = some '0' ∧ 1 < group.length) then none
  else
    match Numeral.value? 10 group with
    | some n => if n ≤ 255 then some (.ofNat n) else none
    | none => none

/-- The address a text denotes, if it denotes one. -/
def ofText? (text : String) : Option Address :=
  match (text.toList.splitOn '.').mapM octet? with
  | some [a, b, c, d] => some ⟨a, b, c, d⟩
  | _ => none

/-- The address a text denotes (`parse_addr`); a text that denotes none is refused whole. -/
def parse (text : String) : Except Error Address :=
  match ofText? text with
  | some a => .ok a
  | none => .error (.invalidIpv4 text)

end Address

end Ipv4
end RemoteMemory

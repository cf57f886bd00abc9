/-
# Hardware addresses

`set_src_mac` and `set_dst_mac`, `SPEC_FULL.md`, section 4.2.

A hardware address is six octets.  Its text is six groups of one or two
hexadecimal digits of either case, joined by colons: `aa:bb:cc:dd:ee:ff`,
`2:0:0:0:0:1`.
-/

import RemoteMemory.Octets
import RemoteMemory.Error
import RemoteMemory.Numeral

namespace RemoteMemory
namespace Ethernet

/-- A hardware address, first octet on the wire first. -/
structure Mac where
  o0 : UInt8
  o1 : UInt8
  o2 : UInt8
  o3 : UInt8
  o4 : UInt8
  o5 : UInt8
deriving DecidableEq

namespace Mac

/-- The address of six zero octets. -/
def zero : Mac := ⟨0, 0, 0, 0, 0, 0⟩

/-- The six octets of an address. -/
def octets (m : Mac) : Octets := [m.o0, m.o1, m.o2, m.o3, m.o4, m.o5]

@[simp] theorem length_octets (m : Mac) : m.octets.length = 6 := rfl

theorem octets_injective {m m' : Mac} (h : m.octets = m'.octets) : m = m' := by
  cases m; cases m'; simp_all [octets]

/-- The code of an ASCII hexadecimal digit, of either case. -/
def isHexDigit (b : UInt8) : Bool :=
  (0x30 ≤ b && b ≤ 0x39) || (0x41 ≤ b && b ≤ 0x46) || (0x61 ≤ b && b ≤ 0x66)

/-- The octet that a group of hexadecimal digits denotes.  A group is measured and looked
at in UTF-8: it is one or two octets long, and these are codes of digits. -/
def octet? (group : List Char) : Option UInt8 :=
  let codes := group.flatMap String.utf8EncodeChar
  if codes.isEmpty || 2 < codes.length || !codes.all isHexDigit then none
  else
    match Numeral.value? 16 group with
    | some n => if n ≤ 255 then some (.ofNat n) else none
    | none => none

/-- One octet from each of the next `n` groups, and the groups behind them. -/
def readGroups? : Nat → List (List Char) → Option (Octets × List (List Char))
  | 0, groups => some ([], groups)
  | _ + 1, [] => none
  | n + 1, group :: groups =>
    match octet? group with
    | none => none
    | some o => (readGroups? n groups).map fun (os, rest) => (o :: os, rest)

/-- The address a text denotes, if it denotes one: the octets of six groups between
colons, with no group behind them. -/
def ofText? (text : String) : Option Mac :=
  match readGroups? 6 (text.toList.splitOn ':') with
  | some ([a, b, c, d, e, f], []) => some ⟨a, b, c, d, e, f⟩
  | _ => none

/-- The address a text denotes (`parse_mac`); a text that denotes none is refused whole. -/
def parse (text : String) : Except Error Mac :=
  match ofText? text with
  | some m => .ok m
  | none => .error (.invalidMac text)

end Mac

end Ethernet
end RemoteMemory

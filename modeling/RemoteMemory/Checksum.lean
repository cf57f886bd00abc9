/-
# The Internet checksum

`internet_checksum`, `pseudo_header_checksum` and `checksum`, `SPEC_FULL.md`, section 4.1.

The 16-bit one's-complement checksum that IPv4, UDP and TCP headers carry.  The
data is read as 16-bit words, most significant octet first, an odd last octet as
the high octet of a word.  The words are added in a 32-bit accumulator, the
carries above bit 15 are folded back in until none is left, and the result is
complemented.

There are three entry points over one accumulator:

| entry point | section 4.1 | data |
| --- | --- | --- |
| `checksum` | `checksum` | octets |
| `wordChecksum` | `internet_checksum` | words |
| `pseudoChecksum` | `pseudo_header_checksum` | words of two headers, octets of a payload |

The accumulator is exact for up to 65537 words, since `65537 * 65535 = 2^32 - 1`.
-/

import RemoteMemory.Octets

namespace RemoteMemory
namespace Checksum

/-- Add the words of an octet string to an accumulator (`sum_bytes`). -/
def addOctets (sum : UInt32) : Octets → UInt32
  | [] => sum
  | [a] => sum + (Octets.word16 a 0).toUInt32
  | a :: b :: rest => addOctets (sum + (Octets.word16 a b).toUInt32) rest

/-- Add words to an accumulator (`sum_words`). -/
def addWords (sum : UInt32) (ws : List UInt16) : UInt32 :=
  ws.foldl (fun acc w => acc + w.toUInt32) sum

/-- An octet string is summed as its words. -/
theorem addOctets_eq_addWords (sum : UInt32) (bs : Octets) :
    addOctets sum bs = addWords sum bs.words := by
  fun_induction addOctets sum bs with
  | case1 => rfl
  | case2 => rfl
  | case3 sum a b rest ih => rw [ih]; rfl

/-- Adding the carries above bit 15 to the low word makes a sum with carries
smaller. -/
theorem carry_lt {sum : UInt32} (h : 65536 ≤ sum) : sum % 65536 + sum / 65536 < sum := by
  rw [UInt32.le_iff_toNat_le] at h
  rw [UInt32.lt_iff_toNat_lt, UInt32.toNat_add, UInt32.toNat_mod, UInt32.toNat_div]
  have hs : sum.toNat < 2 ^ 32 := sum.toNat_lt
  simp only [UInt32.reduceToNat] at h ⊢
  rw [Nat.mod_eq_of_lt (by omega)]
  omega

/-- The 16-bit sum left when no carry is left to fold in (`fold`). -/
def fold (sum : UInt32) : UInt16 :=
  if h : 65536 ≤ sum then fold (sum % 65536 + sum / 65536) else sum.toUInt16
termination_by sum.toNat
decreasing_by exact UInt32.lt_iff_toNat_lt.1 (carry_lt h)

end Checksum

/-- The checksum of an octet string (`checksum`). -/
def checksum (data : Octets) : UInt16 :=
  ~~~ Checksum.fold (Checksum.addOctets 0 data)

/-- The checksum of a list of words (`internet_checksum`). -/
def wordChecksum (ws : List UInt16) : UInt16 :=
  ~~~ Checksum.fold (Checksum.addWords 0 ws)

/-- The checksum of a transport header and its payload under a pseudo header
(`pseudo_header_checksum`). -/
def pseudoChecksum (pseudo header : List UInt16) (payload : Octets) : UInt16 :=
  ~~~ Checksum.fold
    (Checksum.addOctets (Checksum.addWords (Checksum.addWords 0 pseudo) header) payload)

end RemoteMemory

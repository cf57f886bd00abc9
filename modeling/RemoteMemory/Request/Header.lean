/-
# The request header

`UaLinkHeader` with `set_attributes` and `align`, `SPEC_FULL.md`, sections 3 and 4.3.

| offset | size | field |
| ---: | ---: | --- |
| 0 | 1 | version and type |
| 1 | 1 | operation |
| 2 | 1 | tag |
| 3 | 1 | words less one |
| 4 | 1 | mask of the first word |
| 5 | 1 | mask of the last word |
| 6 | 8 | base address, least significant octet first |
| 14 | 2 | reserved, zero |

UALink requests and acknowledgments carry this header directly behind the link
header.  The range asked for (`address`, `payloadLength`) is kept beside the
fields that go on the wire; `align` computes the second from the first.  A header
read from the wire knows only the base address, which stands for the address.
-/

import RemoteMemory.Request.ByteRange

namespace RemoteMemory
namespace Request

/-- The version and type of every request. -/
def versionType : UInt8 := 0x10

/-- The request header, with the range it was made for. -/
structure Header where
  versionType : UInt8 := Request.versionType
  opcode : UInt8 := 0
  tag : UInt8 := 0
  /-- Words less one. -/
  requestLength : UInt8 := 0
  /-- Mask of the first word in the low octet, of the last word in the high one. -/
  masks : UInt16 := 0
  baseAddress : UInt64 := 0
  address : UInt64 := 0
  payloadLength : UInt64 := 0
deriving DecidableEq

namespace Header

/-- Octets of a request header. -/
def size : Nat := 16

/-- Ask for a range (`set_attributes`).  The fields on the wire stay behind until `align`. -/
def ask (h : Header) (range : ByteRange) (opcode tag : UInt8) : Header :=
  { h with
    versionType := Request.versionType
    opcode
    tag
    address := range.address
    payloadLength := range.length }

/-- The range asked for. -/
def range (h : Header) : ByteRange := ⟨h.address, h.payloadLength⟩

/-- The header with the base address, the word count and the masks of its range (`align`). -/
def align (h : Header) : Header :=
  { h with
    baseAddress := h.range.base
    requestLength := h.range.requestLength
    masks := h.range.masks }

/-- The bytes enabled in the first word. -/
def firstMask (h : Header) : UInt8 := h.masks.toUInt8

/-- The bytes enabled in the last word. -/
def lastMask (h : Header) : UInt8 := (h.masks >>> 8).toUInt8

/-- The header as it goes on the wire (`to_bytes`). -/
def octets (h : Header) : Octets :=
  [h.versionType, h.opcode, h.tag, h.requestLength, h.firstMask, h.lastMask] ++
    Octets.ofWord64 h.baseAddress ++ [0, 0]

/-- The header at the front of an octet string (`from_bytes`). -/
def ofOctets? : Octets → Option Header
  | versionType :: opcode :: tag :: requestLength :: first :: last ::
    b0 :: b1 :: b2 :: b3 :: b4 :: b5 :: b6 :: b7 :: _ :: _ :: _ =>
    let baseAddress := Octets.word64 b0 b1 b2 b3 b4 b5 b6 b7
    some { versionType
           opcode
           tag
           requestLength
           masks := Octets.word16 last first
           baseAddress
           address := baseAddress
           payloadLength := 0 }
  | _ => none

/-- **A receiver enables byte `n`** of the remote memory: it lies in a word of the
request, and the mask of that word, if the word is the first or the last, has its
bit set.  Only the base address, the word count and the masks are read. -/
def Enables (h : Header) (n : Nat) : Prop :=
  ∃ word bit : Nat, bit < 8 ∧ n = h.baseAddress.toNat + 8 * word + bit ∧
    word ≤ h.requestLength.toNat ∧
    (word = 0 → h.firstMask.toNat.testBit bit) ∧
    (word = h.requestLength.toNat → 0 < word → h.lastMask.toNat.testBit bit)

@[simp] theorem length_octets (h : Header) : h.octets.length = size := by
  simp [octets, size]

/-- **Every string of at least 16 octets has a header at its front.** -/
theorem isSome_ofOctets?_iff {bs : Octets} : (ofOctets? bs).isSome ↔ size ≤ bs.length := by
  constructor
  · intro h
    unfold ofOctets? at h
    split at h
    · simp [size]
    · cases h
  · intro h
    change 16 ≤ bs.length at h
    have hbs : bs[0] :: bs[1] :: bs[2] :: bs[3] :: bs[4] :: bs[5] :: bs[6] :: bs[7] :: bs[8] ::
        bs[9] :: bs[10] :: bs[11] :: bs[12] :: bs[13] :: bs[14] :: bs[15] :: bs.drop 16 = bs := by
      simp only [List.getElem_cons_drop, List.drop_zero]
    rw [← hbs]
    rfl

end Header

end Request
end RemoteMemory

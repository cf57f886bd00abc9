/-
# A byte range as aligned words

`Alignment::compute`, `SPEC_FULL.md`, section 4.3.

The remote side addresses memory in aligned words of eight bytes.  A request
for the bytes `address … address + length - 1` names the aligned base address, the
number of words it touches less one, and a mask each for the first and the last
word; bit `b` of a mask enables byte `b` of its word.  The words in between are
always enabled in full.

| shape | first mask | last mask |
| --- | --- | --- |
| inside one word | `length` ones from bit `offset` | 0 |
| first word of several | ones from bit `offset` to bit 7 | — |
| last word, ending inside | — | ones below bit `span % 8` |
| last word, full | — | 255 |

All sizes are 64-bit words and wrap; the number of words less one is cut to eight
bits, so it is exact for ranges that touch at most 256 words.
-/

import RemoteMemory.Octets

namespace RemoteMemory
namespace Request

/-- Bytes of a word of the remote memory. -/
def wordBytes : UInt64 := 8

/-- A mask of `count` ones from bit `start`. -/
def ones (start count : Nat) : UInt8 := .ofNat (((1 <<< count) - 1) <<< start)

/-- A range of the remote memory. -/
structure ByteRange where
  address : UInt64
  length : UInt64
deriving DecidableEq

namespace ByteRange

/-- Address of the first word that the range touches. -/
def base (r : ByteRange) : UInt64 := r.address / wordBytes * wordBytes

/-- Bytes of the first word in front of the range. -/
def offset (r : ByteRange) : UInt64 := r.address % wordBytes

/-- Bytes from the base to the end of the range.  The sum wraps, as in a build without
overflow checks; with them it ends the program where it would wrap. -/
def span (r : ByteRange) : UInt64 := r.offset + r.length

/-- Words that the range touches; an empty range touches one. -/
def words (r : ByteRange) : UInt64 :=
  max 1 (r.span / wordBytes + if r.span % wordBytes = 0 then 0 else 1)

/-- The number of words less one, cut to the eight bits of the header field. -/
def requestLength (r : ByteRange) : UInt8 := (r.words - 1).toUInt8

/-- Bytes of the range that lie in the first word. -/
def firstRun (r : ByteRange) : UInt64 := min r.length (wordBytes - r.offset)

/-- The bytes enabled in the first word. -/
def firstMask (r : ByteRange) : UInt8 := ones r.offset.toNat r.firstRun.toNat

/-- The bytes enabled in the last word, when it is not the first. -/
def lastMask (r : ByteRange) : UInt8 :=
  if r.words = 1 then 0
  else if r.span % wordBytes = 0 then 0xFF
  else ones 0 (r.span % wordBytes).toNat

/-- Both masks in one word, the first in the low octet (`attribute`). -/
def masks (r : ByteRange) : UInt16 := Octets.word16 r.lastMask r.firstMask

/-- Nine bytes from a word's start: all of it and the first byte of the next. -/
example : (⟨0x2000, 9⟩ : ByteRange).masks = 0x01FF ∧
    (⟨0x2000, 9⟩ : ByteRange).requestLength = 1 := by decide +kernel

/-- Two bytes across a word boundary. -/
example : (⟨0x2007, 2⟩ : ByteRange).masks = 0x0180 ∧
    (⟨0x2007, 2⟩ : ByteRange).base = 0x2000 := by decide +kernel

end ByteRange

end Request
end RemoteMemory

/-
# Buffers

The fragments of `read` and the responses of `wait_read`, `SPEC_FULL.md`, sections 3 and 4.5.

What an endpoint gathers or sends it keeps in buffers, and it asks for a buffer
whole, before the first record goes in.  A buffer is never longer than the
distance of two addresses that a signed 64-bit word holds, `maxSize`.  An operation
that needs a longer one has no answer.

`Fits` is that bound for records of one size; fewer records fit where more do
(`Fits.of_le`).
-/

namespace RemoteMemory
namespace Buffer

/-- Octets of the longest buffer: 2⁶³ − 1. -/
def maxSize : Nat := 9223372036854775807

/-- So many records of so many octets each fit into one buffer. -/
def Fits (count size : Nat) : Prop := count * size ≤ maxSize

instance (count size : Nat) : Decidable (Fits count size) := inferInstanceAs (Decidable (_ ≤ _))

theorem Fits.of_le {m n size : Nat} (h : m ≤ n) (hf : Fits n size) : Fits m size :=
  Nat.le_trans (Nat.mul_le_mul_right size h) hf

end Buffer
end RemoteMemory

/-
# The operations of a memory request

`Opcode`, `SPEC_FULL.md`, section 3.
-/

import RemoteMemory.Error

namespace RemoteMemory
namespace Request

/-- What a request asks for, or that it acknowledges one. -/
inductive Opcode where
  | read
  | write
  | ack
deriving DecidableEq

namespace Opcode

/-- The octet of an operation. -/
def value : Opcode → UInt8
  | .read => 1
  | .write => 2
  | .ack => 3

/-- The operation an octet names. -/
def ofValue (v : UInt8) : Except Error Opcode :=
  if v = 1 then .ok .read
  else if v = 2 then .ok .write
  else if v = 3 then .ok .ack
  else .error (.unknownOpcode v)

/-- **An octet names an operation exactly when it is that operation's octet.** -/
theorem ofValue_eq_ok_iff {v : UInt8} {o : Opcode} : ofValue v = .ok o ↔ v = o.value := by
  unfold ofValue
  constructor
  · intro h
    split at h <;> try split at h <;> try split at h
    all_goals cases o <;> simp_all [value]
  · rintro rfl
    cases o <;> rfl

end Opcode

end Request
end RemoteMemory

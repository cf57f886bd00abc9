/-
# Octet strings and the words inside them

The byte orders of the frame layout, `SPEC_FULL.md`, section 6.

A frame is a list of octets.  Headers hold 16- and 32-bit words most significant
octet first, the base address of a request least significant octet first:

| word | octets | order |
| --- | ---: | --- |
| `ofWord16`, `word16` | 2 | most significant first |
| `ofWord32`, `word32` | 4 | most significant first |
| `ofWord64`, `word64` | 8 | least significant first |

All three are `littleEndian` or its reversal at a fixed width.  The main
statements are that reading undoes writing (`ofLittleEndian_littleEndian`, exact
up to the width) and that writing undoes reading (`littleEndian_ofLittleEndian`);
the word forms are their instances.

A string of known length can be filled in place, field by field (`overwrite`).  Where
the fields lie one behind the other, they end up so in the string (`foldl_overwrite`).
-/

namespace RemoteMemory

/-- A string of octets, first on the wire first. -/
abbrev Octets := List UInt8

namespace Octets

/-- The `k` low octets of `n`, least significant first. -/
def littleEndian : Nat → Nat → Octets
  | 0, _ => []
  | k + 1, n => UInt8.ofNat n :: littleEndian k (n / 256)

/-- The number whose octets, least significant first, are given. -/
def ofLittleEndian : Octets → Nat
  | [] => 0
  | b :: bs => b.toNat + 256 * ofLittleEndian bs

/-- How many numbers `k` octets hold. -/
def capacity : Nat → Nat
  | 0 => 1
  | k + 1 => 256 * capacity k

@[simp] theorem length_littleEndian (k n : Nat) : (littleEndian k n).length = k := by
  induction k generalizing n with
  | zero => rfl
  | succ k ih => simp [littleEndian, ih]

/-- **Reading undoes writing**, up to what `k` octets hold. -/
theorem ofLittleEndian_littleEndian (k n : Nat) :
    ofLittleEndian (littleEndian k n) = n % capacity k := by
  induction k generalizing n with
  | zero => simp [littleEndian, ofLittleEndian, capacity, Nat.mod_one]
  | succ k ih =>
    have hb : (UInt8.ofNat n).toNat = n % 256 := UInt8.toNat_ofNat'
    rw [littleEndian, ofLittleEndian, ih, hb, capacity, Nat.mod_mul]

theorem ofLittleEndian_lt (bs : Octets) : ofLittleEndian bs < capacity bs.length := by
  induction bs with
  | nil => simp [ofLittleEndian, capacity]
  | cons b bs ih =>
    have hb : b.toNat < 256 := b.toNat_lt
    rw [ofLittleEndian, List.length_cons, capacity]
    omega

/-- **Writing undoes reading:** no two octet strings of one length hold the same
number. -/
theorem littleEndian_ofLittleEndian (bs : Octets) :
    littleEndian bs.length (ofLittleEndian bs) = bs := by
  induction bs with
  | nil => rfl
  | cons b bs ih =>
    have hb : b.toNat < 256 := b.toNat_lt
    have hlow : UInt8.ofNat (b.toNat + 256 * ofLittleEndian bs) = b :=
      UInt8.toNat_inj.1 (by rw [UInt8.toNat_ofNat']; omega)
    have hrest : (b.toNat + 256 * ofLittleEndian bs) / 256 = ofLittleEndian bs := by omega
    rw [List.length_cons, ofLittleEndian, littleEndian, hlow, hrest, ih]

/-- A 16-bit word, most significant octet first. -/
def ofWord16 (w : UInt16) : Octets := (littleEndian 2 w.toNat).reverse

/-- The 16-bit word of two octets, most significant first. -/
def word16 (a b : UInt8) : UInt16 := .ofNat (ofLittleEndian [b, a])

/-- A 32-bit word, most significant octet first. -/
def ofWord32 (w : UInt32) : Octets := (littleEndian 4 w.toNat).reverse

/-- The 32-bit word of four octets, most significant first. -/
def word32 (a b c d : UInt8) : UInt32 := .ofNat (ofLittleEndian [d, c, b, a])

/-- A 64-bit word, least significant octet first. -/
def ofWord64 (w : UInt64) : Octets := littleEndian 8 w.toNat

/-- The 64-bit word of eight octets, least significant first. -/
def word64 (a b c d e f g h : UInt8) : UInt64 := .ofNat (ofLittleEndian [a, b, c, d, e, f, g, h])

@[simp] theorem length_ofWord16 (w : UInt16) : (ofWord16 w).length = 2 := by simp [ofWord16]

@[simp] theorem length_ofWord32 (w : UInt32) : (ofWord32 w).length = 4 := by simp [ofWord32]

@[simp] theorem length_ofWord64 (w : UInt64) : (ofWord64 w).length = 8 := by simp [ofWord64]

theorem toNat_word16 (a b : UInt8) : (word16 a b).toNat = 256 * a.toNat + b.toNat := by
  have ha : a.toNat < 256 := a.toNat_lt
  have hb : b.toNat < 256 := b.toNat_lt
  simp only [word16, ofLittleEndian, UInt16.toNat_ofNat']
  omega

/-- A word is its two octets, the first shifted above the second. -/
theorem word16_eq_or (a b : UInt8) : word16 a b = (a.toUInt16 <<< 8) ||| b.toUInt16 := by
  have ha : a.toNat < 256 := a.toNat_lt
  have hhigh : (a.toUInt16 <<< 8).toNat = a.toNat <<< 8 := by
    rw [UInt16.toNat_shiftLeft, UInt8.toNat_toUInt16, Nat.shiftLeft_eq, Nat.shiftLeft_eq]
    change a.toNat * 256 % 65536 = a.toNat * 256
    omega
  apply UInt16.toNat_inj.1
  rw [toNat_word16, UInt16.toNat_or, hhigh, UInt8.toNat_toUInt16,
    ← Nat.shiftLeft_add_eq_or_of_lt b.toNat_lt, Nat.shiftLeft_eq, Nat.mul_comm]

/-- What is shifted out of an octet is shifted out of a word too, eight places higher. -/
theorem toUInt16_shiftLeft_shiftLeft (a : UInt8) :
    (a <<< 4).toUInt16 <<< 8 = a.toUInt16 <<< 12 := by
  apply UInt16.toNat_inj.1
  simp only [UInt16.toNat_shiftLeft, UInt8.toNat_toUInt16, UInt8.toNat_shiftLeft, Nat.shiftLeft_eq]
  change a.toNat * 16 % 256 * 256 % 65536 = a.toNat * 4096 % 65536
  omega

/-- A word whose first octet is packed of two numbers is packed of all three. -/
theorem word16_shiftLeft_or (a b c : UInt8) :
    word16 ((a <<< 4) ||| b) c = (a.toUInt16 <<< 12) ||| (b.toUInt16 <<< 8) ||| c.toUInt16 := by
  rw [word16_eq_or, UInt8.toUInt16_or, UInt16.shiftLeft_or, toUInt16_shiftLeft_shiftLeft]

@[simp] theorem ofWord16_word16 (a b : UInt8) : ofWord16 (word16 a b) = [a, b] := by
  have h : (word16 a b).toNat = ofLittleEndian [b, a] := by
    rw [toNat_word16]; simp only [ofLittleEndian]; omega
  rw [ofWord16, h, show 2 = [b, a].length from rfl, littleEndian_ofLittleEndian]
  rfl

@[simp] theorem ofWord32_word32 (a b c d : UInt8) : ofWord32 (word32 a b c d) = [a, b, c, d] := by
  have hl : ofLittleEndian [d, c, b, a] < 4294967296 := ofLittleEndian_lt [d, c, b, a]
  have h : (word32 a b c d).toNat = ofLittleEndian [d, c, b, a] :=
    UInt32.toNat_ofNat_of_lt' hl
  rw [ofWord32, h, show 4 = [d, c, b, a].length from rfl, littleEndian_ofLittleEndian]
  rfl

@[simp] theorem ofWord64_word64 (a b c d e f g h : UInt8) :
    ofWord64 (word64 a b c d e f g h) = [a, b, c, d, e, f, g, h] := by
  have hl : ofLittleEndian [a, b, c, d, e, f, g, h] < 18446744073709551616 :=
    ofLittleEndian_lt [a, b, c, d, e, f, g, h]
  have hw : (word64 a b c d e f g h).toNat = ofLittleEndian [a, b, c, d, e, f, g, h] :=
    UInt64.toNat_ofNat_of_lt' hl
  rw [ofWord64, hw, show 8 = [a, b, c, d, e, f, g, h].length from rfl, littleEndian_ofLittleEndian]

/-- Every 16-bit word is read from the two octets it is written as. -/
theorem exists_word16 (w : UInt16) : ∃ a b, ofWord16 w = [a, b] ∧ word16 a b = w := by
  refine ⟨_, _, rfl, UInt16.toNat_inj.1 ?_⟩
  have hw : w.toNat < 65536 := w.toNat_lt
  rw [toNat_word16, UInt8.toNat_ofNat', UInt8.toNat_ofNat']
  omega

theorem ofWord16_injective {w w' : UInt16} (h : ofWord16 w = ofWord16 w') : w = w' := by
  obtain ⟨a, b, hw, rfl⟩ := exists_word16 w
  obtain ⟨a', b', hw', rfl⟩ := exists_word16 w'
  rw [hw, hw'] at h
  simp_all

/-- Every 32-bit word is read from the four octets it is written as. -/
theorem exists_word32 (w : UInt32) :
    ∃ a b c d, ofWord32 w = [a, b, c, d] ∧ word32 a b c d = w := by
  refine ⟨_, _, _, _, rfl, ?_⟩
  have h := ofLittleEndian_littleEndian 4 w.toNat
  rw [Nat.mod_eq_of_lt (show w.toNat < capacity 4 from w.toNat_lt)] at h
  exact (congrArg UInt32.ofNat h).trans UInt32.ofNat_toNat

/-- Every 64-bit word is read from the eight octets it is written as. -/
theorem exists_word64 (w : UInt64) :
    ∃ a b c d e f g h, ofWord64 w = [a, b, c, d, e, f, g, h] ∧ word64 a b c d e f g h = w := by
  refine ⟨_, _, _, _, _, _, _, _, rfl, ?_⟩
  have h := ofLittleEndian_littleEndian 8 w.toNat
  rw [Nat.mod_eq_of_lt (show w.toNat < capacity 8 from w.toNat_lt)] at h
  exact (congrArg UInt64.ofNat h).trans UInt64.ofNat_toNat

/-- The 16-bit words of an octet string; an odd last octet is a high octet. -/
def words : Octets → List UInt16
  | [] => []
  | [a] => [word16 a 0]
  | a :: b :: rest => word16 a b :: words rest

/-- Exactly `n` octets: cut when longer, filled with zeros when shorter. -/
def resize (n : Nat) (bs : Octets) : Octets :=
  bs.take n ++ List.replicate (n - bs.length) 0

@[simp] theorem length_resize (n : Nat) (bs : Octets) : (resize n bs).length = n := by
  simp only [resize, List.length_append, List.length_take, List.length_replicate]
  omega

theorem resize_self {n : Nat} {bs : Octets} (h : bs.length = n) : resize n bs = bs := by
  simp [resize, ← h]

/-- The string with other octets in place of as many from `start` on. -/
def overwrite (buffer : Octets) (start : Nat) (bs : Octets) : Octets :=
  buffer.take start ++ bs ++ buffer.drop (start + bs.length)

theorem overwrite_append (front : Octets) {old bs : Octets} (h : old.length = bs.length)
    (rest : Octets) :
    overwrite (front ++ old ++ rest) front.length bs = front ++ bs ++ rest := by
  have hfront : (front ++ old ++ rest).take front.length = front := by
    rw [List.append_assoc, List.take_left]
  have hrest : (front ++ old ++ rest).drop (front.length + bs.length) = rest := by
    rw [← h, ← List.length_append, List.drop_left]
  rw [overwrite, hfront, hrest]

/-- Fields, each with its offset, that lie one behind the other from an offset on. -/
def Adjacent : Nat → List (Nat × Octets) → Prop
  | _, [] => True
  | offset, field :: fields => field.1 = offset ∧ Adjacent (offset + field.2.length) fields

/-- **Adjacent fields written over old octets** stand there one behind the other, and what
is in front of them and behind them stays. -/
theorem foldl_overwrite {fields : List (Nat × Octets)} {front old : Octets}
    (h : Adjacent front.length fields) (hold : old.length = (fields.flatMap Prod.snd).length)
    (rest : Octets) :
    fields.foldl (fun buffer field => buffer.overwrite field.1 field.2) (front ++ old ++ rest) =
      front ++ fields.flatMap Prod.snd ++ rest := by
  induction fields generalizing front old with
  | nil =>
    obtain rfl := List.eq_nil_of_length_eq_zero hold
    rfl
  | cons field fields ih =>
    obtain ⟨hstart, hfields⟩ := h
    rw [List.flatMap_cons, List.length_append] at hold
    have hhere : (old.take field.2.length).length = field.2.length := by
      rw [List.length_take]
      omega
    have hwrite : overwrite (front ++ old ++ rest) field.1 field.2 =
        front ++ field.2 ++ old.drop field.2.length ++ rest := by
      have h := overwrite_append front hhere (old.drop field.2.length ++ rest)
      rw [← List.append_assoc, List.append_assoc front, List.take_append_drop] at h
      rw [hstart, h, List.append_assoc (front ++ field.2)]
    rw [List.foldl_cons, hwrite, ih (by rwa [List.length_append])
      (by rw [List.length_drop]; omega), List.flatMap_cons]
    simp only [List.append_assoc]

end Octets

end RemoteMemory

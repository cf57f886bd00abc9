/-
# The checksum of octets, of words, and of a datagram

The three functions of `SPEC_FULL.md`, section 4.1.

The three entry points of the checksum read one sequence of words: as octets, as the words
themselves, or as the words of two headers and the octets of a payload.  The 32-bit accumulator
holds the exact sum of up to 65537 words, however many of them have been added
(`Checksum.toNat_addOctets`); then the carries are folded in, in passes of which each is made for
the carries that are left, and after two there are none (`Checksum.exists_le_two_fold_eq_iterate`).

| sum of the words | folded | checksum |
| --- | --- | --- |
| 0 | 0 | `0xFFFF` |
| `s > 0` | `(s - 1) % 65535 + 1` | the complement of that, never `0xFFFF` |

The main statement is `internet_checksum_exact`.
-/

import Mathlib
import RemoteMemory.Proofs.OnesComplement

namespace RemoteMemory

namespace Octets

/-- Words that are written as octets are read back, in front of others. -/
theorem words_flatMap_ofWord16_append (ws : List UInt16) (bs : Octets) :
    words (ws.flatMap ofWord16 ++ bs) = ws ++ words bs := by
  induction ws with
  | nil => rfl
  | cons w ws ih =>
    rw [List.flatMap_cons, List.append_assoc, words_ofWord16_append, ih]
    rfl

theorem words_replicate (n : ℕ) (b : UInt8) :
    words (List.replicate (2 * n) b) = List.replicate n (word16 b b) := by
  induction n with
  | zero => rfl
  | succ n ih =>
    rw [Nat.mul_succ, List.replicate_succ, List.replicate_succ, words_cons_cons, ih]
    rfl

end Octets

namespace Checksum

/-- **The sum of the words of octets:** those at even places are high octets, the others low
ones. -/
theorem total_words (bs : Octets) :
    total bs.words = ∑ i : Fin bs.length, (if i.val % 2 = 0 then 256 else 1) * bs[i].toNat := by
  fun_induction Octets.words bs with
  | case1 => rfl
  | case2 a => simp [Octets.toNat_word16]
  | case3 a b rest ih =>
    have hplace : ∀ i : ℕ, (i + 1 + 1) % 2 = i % 2 := fun i => by omega
    rw [total_cons, ih, Octets.toNat_word16]
    simp only [List.length_cons, Fin.sum_univ_succ, Fin.val_succ, hplace]
    simp [Nat.add_assoc]

/-- 131074 octets are 65537 words. -/
theorem fits_words {bs : Octets} (h : bs.length ≤ 131074) : Fits bs.words := by
  refine fits_of_length_le ?_
  rw [Octets.length_words]
  omega

/-- **No addition wraps:** the accumulator holds the exact sum of the octets added so far. -/
theorem toNat_addOctets {bs : Octets} (h : bs.length ≤ 131074) :
    (addOctets 0 bs).toNat = total bs.words := by
  rw [addOctets_eq_addWords]
  exact toNat_addWords_zero (fits_words h)

/-- Two passes leave no carry, whatever the accumulator holds. -/
theorem carry_carry_lt (sum : UInt32) : carry (carry sum) < 65536 := by
  have hs : sum.toNat < 4294967296 := sum.toNat_lt
  rw [UInt32.lt_iff_toNat_lt, toNat_carry, toNat_carry]
  simp only [UInt32.reduceToNat]
  omega

/-- **Folding is passes up to the first that leaves no carry.** -/
theorem fold_eq_iterate (sum : UInt32) :
    ∃ n, (∀ j < n, 65536 ≤ carry^[j] sum) ∧ carry^[n] sum < 65536 ∧
      fold sum = (carry^[n] sum).toUInt16 := by
  fun_induction fold sum with
  | case1 sum h ih =>
    obtain ⟨n, hbefore, hend, hfold⟩ := ih
    refine ⟨n + 1, fun j hj => ?_, hend, hfold⟩
    cases j with
    | zero => exact h
    | succ j => exact hbefore j (by omega)
  | case2 sum h => exact ⟨0, fun j hj => absurd hj (Nat.not_lt_zero j), UInt32.not_le.1 h, rfl⟩

/-- Folding ends after at most two passes. -/
theorem exists_le_two_fold_eq_iterate (sum : UInt32) :
    ∃ n ≤ 2, (∀ j < n, 65536 ≤ carry^[j] sum) ∧ carry^[n] sum < 65536 ∧
      fold sum = (carry^[n] sum).toUInt16 := by
  obtain ⟨n, hbefore, hend, hfold⟩ := fold_eq_iterate sum
  refine ⟨n, ?_, hbefore, hend, hfold⟩
  by_contra hmore
  exact absurd (hbefore 2 (by omega)) (UInt32.not_le.2 (carry_carry_lt sum))

end Checksum

open Checksum

/-- **The checksum is exact, from all three entry points.**  Up to 131074 octets are summed without
a wrap, each at an even place as a high octet; the sum is folded in at most two passes, and the
checksum is the complement of its residue modulo 65535, where only the sum 0 has the residue 0 and
every other multiple has 65535.  The checksum of words is that of the octets they are written as,
and the checksum of a datagram that of the octets of its headers and its payload, one behind the
other. -/
theorem internet_checksum_exact :
    (∀ data : Octets, data.length ≤ 131074 →
      let sum := total data.words
      sum = ∑ i : Fin data.length, (if i.val % 2 = 0 then 256 else 1) * data[i].toNat ∧
      (∀ k, (addOctets 0 (data.take k)).toNat = total (Octets.words (data.take k))) ∧
      sum ≤ 2 ^ 32 - 1 ∧
      (∃ n ≤ 2, (∀ j < n, 65536 ≤ carry^[j] (addOctets 0 data)) ∧
        carry^[n] (addOctets 0 data) < 65536 ∧
        fold (addOctets 0 data) = (carry^[n] (addOctets 0 data)).toUInt16) ∧
      (checksum data).toNat = 0xFFFF - if sum = 0 then 0 else (sum - 1) % 65535 + 1) ∧
    (∀ ws : List UInt16, wordChecksum ws = checksum (ws.flatMap Octets.ofWord16)) ∧
    ∀ (pseudo header : List UInt16) (payload : Octets),
      pseudoChecksum pseudo header payload =
        checksum (pseudo.flatMap Octets.ofWord16 ++ header.flatMap Octets.ofWord16 ++ payload) := by
  refine ⟨fun data hdata => ?_, fun ws => ?_, fun pseudo header payload => ?_⟩
  · have hfits := fits_words hdata
    refine ⟨total_words data, fun k => toNat_addOctets ((data.length_take_le' k).trans hdata),
      Nat.le_sub_one_of_lt hfits, exists_le_two_fold_eq_iterate _, ?_⟩
    rw [checksum_eq_wordChecksum]
    exact toNat_wordChecksum hfits
  · have hwords := Octets.words_flatMap_ofWord16_append ws []
    rw [List.append_nil, Octets.words, List.append_nil] at hwords
    rw [checksum_eq_wordChecksum, hwords]
  · rw [checksum_eq_wordChecksum, pseudoChecksum_eq_wordChecksum, List.append_assoc,
      List.append_assoc, Octets.words_flatMap_ofWord16_append,
      Octets.words_flatMap_ofWord16_append]

/-- The longest octet string all of ones fills the accumulator, and verifies to 0; words with
carries, and a datagram with an odd payload. -/
theorem internet_checksum_exact_full_accumulator :
    let full : Octets := List.replicate 131074 0xFF
    full.length ≤ 131074 ∧ (addOctets 0 full).toNat = 2 ^ 32 - 1 ∧ checksum full = 0 ∧
      wordChecksum [0xFFFF, 0xFFFF, 0x0001] = checksum [0xFF, 0xFF, 0xFF, 0xFF, 0x00, 0x01] ∧
      pseudoChecksum [0xC0A8, 0x0011] [0x0035] [0x12, 0x34, 0x56] =
        checksum [0xC0, 0xA8, 0x00, 0x11, 0x00, 0x35, 0x12, 0x34, 0x56] := by
  intro full
  obtain ⟨hdata, hwords, hdatagram⟩ := internet_checksum_exact
  have hlength : full.length ≤ 131074 := List.length_replicate.le
  obtain ⟨-, hsums, -, -, hchecksum⟩ := hdata full hlength
  have htotal : total full.words = 4294967295 := by
    rw [show full = List.replicate (2 * 65537) 0xFF from rfl, Octets.words_replicate]
    rw [total, List.map_replicate, List.sum_replicate]
    rfl
  refine ⟨hlength, ?_, ?_, hwords _, hdatagram _ _ _⟩
  · have hall := hsums full.length
    rw [List.take_length, htotal] at hall
    exact hall
  · rw [← UInt16.toNat_inj, hchecksum, htotal]
    rfl

end RemoteMemory

/-
# The Internet checksum is exact

`internet_checksum` and `pseudo_header_checksum`, `SPEC_FULL.md`, section 4.1.

Within the 65537 words that a 32-bit accumulator holds, no addition wraps: what is folded
is the exact sum of the words (`Checksum.toNat_addWords`).  Folding keeps the residue
modulo 65535, and of the two words for the residue 0 it gives the zero word to the sum 0
alone (`Checksum.toNat_fold`).  The three entry points see the same words, and so agree
(`checksum_eq_wordChecksum`, `pseudoChecksum_eq_wordChecksum`).

A receiver sums the words with the checksum among them.  The sum is then a positive
multiple of 65535, and folds to all ones: words that carry their own checksum verify to 0,
and so do words that carry all ones where their checksum is 0
(`wordChecksum_eq_zero_iff_of_total`).
-/

import Mathlib
import RemoteMemory.Checksum

namespace RemoteMemory

namespace Octets

/-- An octet string of even length is read as words of its own, whatever follows it. -/
theorem words_append {as : Octets} (h : as.length % 2 = 0) (bs : Octets) :
    words (as ++ bs) = words as ++ words bs := by
  fun_induction words as with
  | case1 => rfl
  | case2 a => simp at h
  | case3 a b rest ih =>
    have hrest : rest.length % 2 = 0 := by simp only [List.length_cons] at h; omega
    rw [List.cons_append, List.cons_append, words, ih hrest]
    rfl

@[simp] theorem words_ofWord16 (w : UInt16) : words (ofWord16 w) = [w] := by
  obtain ⟨a, b, hw, rfl⟩ := exists_word16 w
  rw [hw]
  rfl

@[simp] theorem words_ofWord16_append (w : UInt16) (bs : Octets) :
    words (ofWord16 w ++ bs) = w :: words bs := by
  rw [words_append (by simp), words_ofWord16]
  rfl

@[simp] theorem words_cons_cons (a b : UInt8) (bs : Octets) :
    words (a :: b :: bs) = word16 a b :: words bs := rfl

theorem length_words (bs : Octets) : bs.words.length = (bs.length + 1) / 2 := by
  fun_induction words bs with
  | case1 => rfl
  | case2 a => simp
  | case3 a b rest ih =>
    simp only [List.length_cons, ih]
    omega

end Octets

namespace Checksum

/-- The sum of words, as a number of any size. -/
def total (ws : List UInt16) : ℕ := (ws.map UInt16.toNat).sum

@[simp] theorem total_nil : total [] = 0 := rfl

@[simp] theorem total_cons (w : UInt16) (ws : List UInt16) :
    total (w :: ws) = w.toNat + total ws := by
  simp [total]

@[simp] theorem total_append (ws ws' : List UInt16) : total (ws ++ ws') = total ws + total ws' := by
  simp [total]

theorem total_le (ws : List UInt16) : total ws ≤ 65535 * ws.length := by
  induction ws with
  | nil => simp
  | cons w ws ih =>
    have hw : w.toNat < 65536 := w.toNat_lt
    rw [total_cons, List.length_cons]
    omega

/-- The accumulator holds any sum of so many words. -/
def Fits (ws : List UInt16) : Prop := total ws < 4294967296

/-- 65537 words always fit: their sum is at most 2³² − 1. -/
theorem fits_of_length_le {ws : List UInt16} (h : ws.length ≤ 65537) : Fits ws := by
  have hle := total_le ws
  unfold Fits
  omega

/-- **The accumulator is exact** for as long as the sum fits into it. -/
theorem toNat_addWords {sum : UInt32} {ws : List UInt16}
    (h : sum.toNat + total ws < 4294967296) : (addWords sum ws).toNat = sum.toNat + total ws := by
  induction ws generalizing sum with
  | nil => rfl
  | cons w ws ih =>
    rw [total_cons] at h ⊢
    have hstep : (sum + w.toUInt32).toNat = sum.toNat + w.toNat := by
      rw [UInt32.toNat_add, UInt16.toNat_toUInt32]
      exact Nat.mod_eq_of_lt (by omega)
    have hrest : (addWords (sum + w.toUInt32) ws).toNat = (sum + w.toUInt32).toNat + total ws :=
      ih (by omega)
    rw [hstep, Nat.add_assoc] at hrest
    exact hrest

/-- From nothing the accumulator comes to the sum of the words. -/
theorem toNat_addWords_zero {ws : List UInt16} (h : Fits ws) :
    (addWords 0 ws).toNat = total ws := by
  have hbound : (0 : UInt32).toNat + total ws < 4294967296 := (Nat.zero_add _).trans_lt h
  exact (toNat_addWords hbound).trans (Nat.zero_add _)

/-- The word that a sum folds to: the residue modulo 65535, with 65535 in place of 0 for
every sum but 0 itself. -/
def residue (n : ℕ) : ℕ := if n = 0 then 0 else (n - 1) % 65535 + 1

theorem residue_of_lt {n : ℕ} (h : n < 65536) : residue n = n := by
  unfold residue
  split_ifs with h0
  · exact h0.symm
  · omega

theorem residue_le (n : ℕ) : residue n ≤ 65535 := by
  unfold residue
  split_ifs
  · omega
  · have := Nat.mod_lt (n - 1) (show 0 < 65535 by decide)
    omega

/-- Carries that are folded in leave the residue as it is. -/
theorem residue_carry (n : ℕ) : residue (n % 65536 + n / 65536) = residue n := by
  unfold residue
  split_ifs with h h' h' <;> omega

/-- One pass of folding: the carries above bit 15 are added to the low word. -/
def carry (sum : UInt32) : UInt32 := sum % 65536 + sum / 65536

theorem toNat_carry (sum : UInt32) :
    (carry sum).toNat = sum.toNat % 65536 + sum.toNat / 65536 := by
  have hs : sum.toNat < 4294967296 := sum.toNat_lt
  rw [carry, UInt32.toNat_add, UInt32.toNat_mod, UInt32.toNat_div]
  exact Nat.mod_eq_of_lt (by simp only [UInt32.reduceToNat]; omega)

/-- **Folding gives the residue of the sum.** -/
theorem toNat_fold (sum : UInt32) : (fold sum).toNat = residue sum.toNat := by
  fun_induction fold sum with
  | case1 sum h ih =>
    change (fold (carry sum)).toNat = residue (carry sum).toNat at ih
    rw [← carry, ih, toNat_carry, residue_carry]
  | case2 sum h =>
    have hs : sum.toNat < 65536 := by
      rw [UInt32.le_iff_toNat_le] at h
      exact Nat.not_le.1 h
    rw [residue_of_lt hs, UInt32.toNat_toUInt16]
    exact Nat.mod_eq_of_lt hs

end Checksum

open Checksum

/-- An octet string has the checksum of its words. -/
theorem checksum_eq_wordChecksum (bs : Octets) : checksum bs = wordChecksum bs.words := by
  rw [checksum, addOctets_eq_addWords]
  rfl

/-- A transport checksum is the checksum of all the words under it. -/
theorem pseudoChecksum_eq_wordChecksum (pseudo header : List UInt16) (payload : Octets) :
    pseudoChecksum pseudo header payload = wordChecksum (pseudo ++ header ++ payload.words) := by
  rw [pseudoChecksum, addOctets_eq_addWords, wordChecksum]
  simp only [addWords, List.foldl_append]

/-- **The checksum is the complement of the residue of the exact sum.** -/
theorem toNat_wordChecksum {ws : List UInt16} (h : Fits ws) :
    (wordChecksum ws).toNat = 65535 - residue (total ws) := by
  rw [wordChecksum, UInt16.toNat_not, toNat_fold, toNat_addWords_zero h]
  rfl

/-- Words verify to 0 exactly if their sum is a positive multiple of 65535. -/
theorem wordChecksum_eq_zero_iff {ws : List UInt16} (h : Fits ws) :
    wordChecksum ws = 0 ↔ 0 < total ws ∧ total ws % 65535 = 0 := by
  have hzero : wordChecksum ws = 0 ↔ residue (total ws) = 65535 := by
    have hle := residue_le (total ws)
    rw [← UInt16.toNat_inj, toNat_wordChecksum h, UInt16.toNat_zero]
    omega
  rw [hzero]
  unfold residue
  split_ifs with h0
  · simp [h0]
  · omega

/-- **Which checksums verify.**  Words that sum to the sum of some words and of a word beside them
verify to 0 exactly if that word is the checksum of the others; and where the checksum is 0, also
if it is all ones, the other word that leaves the residue as it is. -/
theorem wordChecksum_eq_zero_iff_of_total {ws ws' : List UInt16} (h : Fits ws') {c : UInt16}
    (hsum : total ws' = total ws + c.toNat) :
    wordChecksum ws' = 0 ↔ c = wordChecksum ws ∨ wordChecksum ws = 0 ∧ c = 0xFFFF := by
  have hfits : Fits ws := by unfold Fits at h ⊢; omega
  have hc : c.toNat < 65536 := c.toNat_lt
  rw [wordChecksum_eq_zero_iff h, hsum, ← UInt16.toNat_inj, ← UInt16.toNat_inj,
    ← UInt16.toNat_inj, toNat_wordChecksum hfits, UInt16.toNat_zero,
    show (0xFFFF : UInt16).toNat = 65535 from rfl]
  unfold residue
  split_ifs with h0 <;> omega

end RemoteMemory

/-
# One corrupted octet

`checksum`, "used for verification", `SPEC_FULL.md`, section 4.1.

Sums of words that leave different residues modulo 65535 fold to different words.  Two words stand
for the residue 0, but the zero word comes of the sum 0 alone.  So octets have one checksum exactly
if their sums leave one residue and are both 0 or both positive (`checksum_eq_checksum_iff`).

An octet counts in the sum by its place (`Checksum.weight`), and another octet in that place moves
the sum by the difference of the two, as often as they count (`Checksum.total_words_set`):

| octet | counts | a change moves the sum by |
| --- | ---: | ---: |
| high, an odd last one among them | 256 times | 256 to 65280 |
| low | once | 1 to 255 |

That is never 0 and always less than 65535, so the residues differ.  A receiver that sums what it
gets and looks for 0 notices every change of a single octet (`corrupted_octet_changes_checksum`).
Two octets it may miss: beside other words, a word of zeros and a word of ones are the same to the
checksum.
-/

import Mathlib
import RemoteMemory.Proofs.InternetChecksum
import RemoteMemory.Proofs.Receiver

namespace RemoteMemory

namespace Checksum

/-- Sums fold to one word exactly if they leave one residue modulo 65535, where the sum 0 is
alone. -/
theorem residue_eq_residue_iff {m n : ℕ} :
    residue m = residue n ↔ (m = 0 ↔ n = 0) ∧ m ≡ n [MOD 65535] := by
  unfold residue Nat.ModEq
  split_ifs with hm hn hn
  · simp [hm, hn]
  · simp [hm, hn]
  · simp [hm, hn]
  · simp only [hm, hn, iff_self, true_and]
    omega

/-- How often the octet at a place counts in the sum of the words. -/
def weight (i : ℕ) : ℕ := if i % 2 = 0 then 256 else 1

@[simp] theorem weight_zero : weight 0 = 256 := rfl

@[simp] theorem weight_one : weight 1 = 1 := rfl

@[simp] theorem weight_add_two (i : ℕ) : weight (i + 1 + 1) = weight i := by
  have hplace : (i + 1 + 1) % 2 = i % 2 := by omega
  rw [weight, weight, hplace]

theorem weight_eq_or (i : ℕ) : weight i = 256 ∨ weight i = 1 := by
  unfold weight
  split_ifs
  · exact .inl rfl
  · exact .inr rfl

/-- **The sum with another octet in one place:** the old octet is taken out of it as often as it
counts, and the new one put in as often. -/
theorem total_words_set {bs : Octets} {i : ℕ} (hi : i < bs.length) (b : UInt8) :
    total (Octets.words (bs.set i b)) + weight i * bs[i].toNat =
      total bs.words + weight i * b.toNat := by
  fun_induction Octets.words bs generalizing i with
  | case1 => exact absurd hi (Nat.not_lt_zero i)
  | case2 a =>
    obtain rfl : i = 0 := Nat.lt_one_iff.1 hi
    simp only [List.set_cons_zero, List.getElem_cons_zero, Octets.words, total_cons, total_nil,
      Octets.toNat_word16, UInt8.toNat_zero, weight_zero]
    omega
  | case3 a c rest ih =>
    rcases i with _ | _ | i
    · simp only [List.set_cons_zero, List.getElem_cons_zero, Octets.words_cons_cons, total_cons,
        Octets.toNat_word16, weight_zero]
      omega
    · simp only [List.set_cons_succ, List.set_cons_zero, List.getElem_cons_succ,
        List.getElem_cons_zero, Octets.words_cons_cons, total_cons, Octets.toNat_word16,
        Nat.zero_add, weight_one]
      omega
    · -- behind two octets the places are counted as before, and so are the weights
      have hrest : i < rest.length := by
        simp only [List.length_cons] at hi
        omega
      have hsum := ih hrest
      simp only [List.set_cons_succ, List.getElem_cons_succ, Octets.words_cons_cons, total_cons,
        weight_add_two]
      omega

/-- A changed octet moves the sum, by less than 65535. -/
theorem total_words_set_near {bs : Octets} {i : ℕ} (hi : i < bs.length) {b : UInt8}
    (hb : b ≠ bs[i]) :
    total (Octets.words (bs.set i b)) ≠ total bs.words ∧
      total (Octets.words (bs.set i b)) < total bs.words + 65535 ∧
      total bs.words < total (Octets.words (bs.set i b)) + 65535 := by
  have hsum := total_words_set hi b
  have hold : bs[i].toNat < 256 := bs[i].toNat_lt
  have hnew : b.toNat < 256 := b.toNat_lt
  have hother : b.toNat ≠ bs[i].toNat := fun h => hb (UInt8.toNat_inj.1 h)
  rcases weight_eq_or i with hweight | hweight <;> rw [hweight] at hsum <;> omega

end Checksum

open Checksum

/-! ### Which octets have one checksum -/

/-- **Octets have one checksum** exactly if the sums of their words leave one residue modulo 65535,
and are both 0 or both positive. -/
theorem checksum_eq_checksum_iff {data data' : Octets} (h : data.length ≤ 131074)
    (h' : data'.length ≤ 131074) :
    checksum data = checksum data' ↔
      (total data.words = 0 ↔ total data'.words = 0) ∧
        total data.words ≡ total data'.words [MOD 65535] := by
  have hle := residue_le (total data.words)
  have hle' := residue_le (total data'.words)
  rw [← residue_eq_residue_iff, checksum_eq_wordChecksum, checksum_eq_wordChecksum,
    ← UInt16.toNat_inj, toNat_wordChecksum (fits_words h), toNat_wordChecksum (fits_words h')]
  omega

/-- A word of zeros beside others may turn into one of ones. -/
example : checksum [0x00, 0x00, 0x12, 0x34] = checksum [0xFF, 0xFF, 0x12, 0x34] :=
  (checksum_eq_checksum_iff (by decide) (by decide)).2 (by decide)

/-- Octets verify to 0 exactly if the sum of their words is a positive multiple of 65535. -/
theorem checksum_eq_zero_iff {data : Octets} (h : data.length ≤ 131074) :
    checksum data = 0 ↔ 0 < total data.words ∧ total data.words % 65535 = 0 := by
  rw [checksum_eq_wordChecksum]
  exact wordChecksum_eq_zero_iff (fits_words h)

/-! ### A changed octet -/

/-- **A changed octet changes the checksum.** -/
theorem checksum_set_ne {data : Octets} (h : data.length ≤ 131074) {i : ℕ} (hi : i < data.length)
    {b : UInt8} (hb : b ≠ data[i]) : checksum (data.set i b) ≠ checksum data := by
  have hset : (data.set i b).length ≤ 131074 := by rwa [List.length_set]
  obtain ⟨hne, habove, hbelow⟩ := total_words_set_near hi hb
  rw [ne_eq, checksum_eq_checksum_iff hset h]
  rintro ⟨-, hmod⟩
  -- sums of one residue that are less than 65535 apart are the same
  unfold Nat.ModEq at hmod
  omega

namespace Octets

/-- An octet of a string, changed, is changed in every part of the string that holds it. -/
theorem take_drop_set (bs : Octets) {start i : ℕ} (h : start ≤ i) (size : ℕ) (b : UInt8) :
    ((bs.set i b).drop start).take size = ((bs.drop start).take size).set (i - start) b := by
  rw [List.drop_set, if_neg (Nat.not_lt.2 h), List.take_set]

end Octets

/-- A changed octet changes the checksum of every part of a frame that holds it. -/
theorem checksum_part_set_ne {frame : Octets} {start size i : ℕ} (hsize : size ≤ 131074)
    (hi : i < frame.length) (hstart : start ≤ i) (hend : i < start + size) {b : UInt8}
    (hb : b ≠ frame[i]) :
    checksum (((frame.set i b).drop start).take size) ≠
      checksum ((frame.drop start).take size) := by
  have hpart : ((frame.drop start).take size).length ≤ 131074 :=
    (List.length_take_le size _).trans hsize
  have hin : i - start < ((frame.drop start).take size).length := by
    rw [List.length_take, List.length_drop]
    omega
  have hold : ((frame.drop start).take size)[i - start] = frame[i] := by
    rw [List.getElem_take, List.getElem_drop]
    congr 1
    omega
  rw [Octets.take_drop_set frame hstart]
  exact checksum_set_ne hpart hin (hold ▸ hb)

/-- **No corrupted octet goes unnoticed.**  In up to 131074 octets, any other octet in place of any
one of them gives another checksum.  So a part of a frame that verifies to 0, such as the header of
an IPv4 packet, does not verify any more with an octet in it changed.  Nor does a layer that
verifies to 0 under the addresses of an IPv4 header, a protocol and a length, whether the octet is
one of the layer or one of those put in front of it. -/
theorem corrupted_octet_changes_checksum :
    (∀ (data : Octets) (i : ℕ) (hi : i < data.length) (b : UInt8), data.length ≤ 131074 →
      b ≠ data[i] → checksum (data.set i b) ≠ checksum data) ∧
    (∀ (frame : Octets) (start size i : ℕ) (hi : i < frame.length) (b : UInt8),
      size ≤ 131074 → start ≤ i → i < start + size → b ≠ frame[i] →
      checksum ((frame.drop start).take size) = 0 →
      checksum (((frame.set i b).drop start).take size) ≠ 0) ∧
    ∀ (ip : Ipv4.Header) (protocol : UInt8) (length : UInt16) (layer : Octets) (i : ℕ)
      (hi : i < (ip.covered protocol length layer).length) (b : UInt8),
      (ip.covered protocol length layer).length ≤ 131074 →
      b ≠ (ip.covered protocol length layer)[i] →
      checksum (ip.covered protocol length layer) = 0 →
      checksum ((ip.covered protocol length layer).set i b) ≠ 0 := by
  refine ⟨fun data i hi b h hb => checksum_set_ne h hi hb,
    fun frame start size i hi b hsize hstart hend hb hzero => ?_,
    fun ip protocol length layer i hi b h hb hzero => ?_⟩
  · have hne := checksum_part_set_ne hsize hi hstart hend hb
    rwa [hzero] at hne
  · have hne := checksum_set_ne h hi hb
    rwa [hzero] at hne

/-- The last of as many octets as are summed exactly; an octet of the checksum in a header behind
14 others, inverted; and an odd last octet of a payload. -/
theorem corrupted_octet_changes_checksum_last_octet :
    let full : Octets := List.replicate 131074 0xFF
    let frame : Octets :=
      [2, 0, 0, 0, 0, 2, 2, 0, 0, 0, 0, 1, 0x08, 0x00,
        0x45, 0, 0, 28, 0, 0, 0, 0, 64, 17, 0x7A, 0xD2, 0, 0, 0, 0, 0, 0, 0, 0]
    let ip : Ipv4.Header := { src := ⟨10, 0, 0, 1⟩, dst := ⟨10, 0, 0, 2⟩ }
    let layer : Octets := [0x83, 0x6C, 0, 53, 0, 11, 0, 0, 0x12, 0x34, 0x56]
    checksum (full.set 131073 0xFE) ≠ checksum full ∧
      checksum ((frame.drop 14).take 20) = 0 ∧
      checksum (((frame.set 24 0x85).drop 14).take 20) ≠ 0 ∧
      checksum (ip.covered 17 11 layer) = 0 ∧
      checksum ((ip.covered 17 11 layer).set 22 0x57) ≠ 0 := by
  intro full frame ip layer
  obtain ⟨hdata, hpart, hlayer⟩ := corrupted_octet_changes_checksum
  have hfull : full.length = 131074 := List.length_replicate
  have hlast : 131073 < full.length := by omega
  have hones : full[131073] = 0xFF := List.getElem_replicate _
  have hheader : checksum ((frame.drop 14).take 20) = 0 :=
    (checksum_eq_zero_iff (by decide)).2 (by decide)
  have hcovered : checksum (ip.covered 17 11 layer) = 0 :=
    (checksum_eq_zero_iff (by decide)).2 (by decide)
  refine ⟨hdata full 131073 hlast 0xFE hfull.le ?_, hheader,
    hpart frame 14 20 24 (by decide) 0x85 (by decide) (by decide) (by decide) (by decide) hheader,
    hcovered, hlayer ip 17 11 layer 22 (by decide) 0x57 (by decide) (by decide) hcovered⟩
  rw [hones]
  decide

end RemoteMemory

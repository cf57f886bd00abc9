/-
# The bytes a request enables

`Alignment::compute`, `SPEC_FULL.md`, sections 3 and 4.3.

A request names a byte range by four fields: base address, words less one, and a
mask each for the first and the last word.  This module says in `Nat` what the
fields are and, from them, which bytes a receiver enables (`Header.Enables`).

| field | value |
| --- | --- |
| base | `8 * (address / 8)` |
| words | `⌈(address % 8 + length) / 8⌉`, at least one |
| bit `b` of the first mask | `offset ≤ b < offset + length` |
| bit `b` of the last mask | byte `b` of the last word is in front of the end |

While the words less one fit into eight bits, which is while the range ends within
2048 bytes of the base, every byte of the words is enabled exactly if it lies in the
range (`Header.enables_align_iff`), in all four shapes: one word, a first word cut
by the offset, a full last word, a partial one.  So the fields determine a range
that is not empty, and `align_exact` says all of it at once.
-/

import Mathlib
import RemoteMemory.Request.Header

namespace RemoteMemory
namespace Request

/-- **Bit `bit` of a run of ones** is set from `start` on, `count` times, and not past
the eighth bit. -/
theorem testBit_ones (start count bit : ℕ) :
    (ones start count).toNat.testBit bit = true ↔
      bit < 8 ∧ start ≤ bit ∧ bit < start + count := by
  have h : (ones start count).toNat = ((2 ^ count - 1) <<< start) % 2 ^ 8 := by
    rw [ones, UInt8.toNat_ofNat', Nat.one_shiftLeft]
  rw [h, Nat.testBit_mod_two_pow, Nat.testBit_shiftLeft, Nat.testBit_two_pow_sub_one]
  simp only [Bool.and_eq_true, decide_eq_true_eq]
  omega

theorem toNat_max (a b : UInt64) : (max a b).toNat = max a.toNat b.toNat := by
  change (if a ≤ b then b else a).toNat = _
  split_ifs with h <;> rw [UInt64.le_iff_toNat_le] at h <;> omega

theorem toNat_min (a b : UInt64) : (min a b).toNat = min a.toNat b.toNat := by
  change (if a ≤ b then a else b).toNat = _
  split_ifs with h <;> rw [UInt64.le_iff_toNat_le] at h <;> omega

namespace ByteRange

variable (r : ByteRange)

theorem toNat_base : r.base.toNat = 8 * (r.address.toNat / 8) := by
  have h := r.address.toNat_lt
  have hd : (r.address / wordBytes).toNat = r.address.toNat / 8 := by simp [wordBytes]
  rw [base, UInt64.toNat_mul, hd, show wordBytes.toNat = 8 from rfl]
  omega

theorem toNat_offset : r.offset.toNat = r.address.toNat % 8 := by
  simp [offset, wordBytes]

theorem toNat_span (h : r.offset.toNat + r.length.toNat < 2 ^ 64) :
    r.span.toNat = r.offset.toNat + r.length.toNat := by
  rw [span, UInt64.toNat_add, Nat.mod_eq_of_lt h]

theorem toNat_span_mod : (r.span % wordBytes).toNat = r.span.toNat % 8 := by
  simp [wordBytes]

theorem span_mod_eq_zero_iff : r.span % wordBytes = 0 ↔ r.span.toNat % 8 = 0 := by
  rw [← UInt64.toNat_inj, toNat_span_mod]
  rfl

/-- The words are those up to the last byte, and one if there is none. -/
theorem toNat_words (h : r.offset.toNat + r.length.toNat < 2 ^ 64) :
    r.words.toNat = max 1 ((r.offset.toNat + r.length.toNat + 7) / 8) := by
  have hs := r.toNat_span h
  have hd : (r.span / wordBytes).toNat = r.span.toNat / 8 := by simp [wordBytes]
  rw [words, toNat_max, UInt64.toNat_add, hd, UInt64.toNat_one]
  split_ifs with h0
  · rw [span_mod_eq_zero_iff] at h0
    rw [UInt64.toNat_zero]
    omega
  · rw [span_mod_eq_zero_iff] at h0
    rw [UInt64.toNat_one]
    omega

theorem toNat_requestLength (h : r.offset.toNat + r.length.toNat < 2 ^ 64) :
    r.requestLength.toNat = (r.words.toNat - 1) % 256 := by
  have hw := r.toNat_words h
  have h1 : (1 : UInt64) ≤ r.words := by
    rw [UInt64.le_iff_toNat_le, UInt64.toNat_one]; omega
  rw [requestLength, UInt64.toNat_toUInt8, UInt64.toNat_sub_of_le _ _ h1, UInt64.toNat_one]

theorem toNat_firstRun : r.firstRun.toNat = min r.length.toNat (8 - r.offset.toNat) := by
  have ho := r.toNat_offset
  have h8 : (wordBytes - r.offset).toNat = 8 - r.offset.toNat := by
    rw [UInt64.toNat_sub_of_le _ _ (by rw [UInt64.le_iff_toNat_le, ho]; simp [wordBytes]; omega)]
    rfl
  rw [firstRun, toNat_min, h8]

/-- **The first mask enables the bytes of the first word that lie in the range.** -/
theorem testBit_firstMask (bit : ℕ) :
    r.firstMask.toNat.testBit bit = true ↔
      bit < 8 ∧ r.offset.toNat ≤ bit ∧ bit < r.offset.toNat + r.length.toNat := by
  rw [firstMask, testBit_ones, toNat_firstRun]
  omega

/-- **The last mask enables the bytes of the last word in front of the end,** if the
range has a second word. -/
theorem testBit_lastMask (h : r.offset.toNat + r.length.toNat < 2 ^ 64) (hw : 1 < r.words.toNat)
    (bit : ℕ) :
    r.lastMask.toNat.testBit bit = true ↔
      bit < 8 ∧ 8 * (r.words.toNat - 1) + bit < r.offset.toNat + r.length.toNat := by
  have hs := r.toNat_span h
  have hn := r.toNat_words h
  have h1 : r.words ≠ 1 := fun h1 => by rw [h1] at hw; simp at hw
  rw [lastMask, if_neg h1]
  split_ifs with h0
  · rw [span_mod_eq_zero_iff] at h0
    rw [show (0xFF : UInt8) = ones 0 8 from rfl, testBit_ones]
    omega
  · rw [span_mod_eq_zero_iff] at h0
    rw [testBit_ones, toNat_span_mod]
    omega

end ByteRange

namespace Header

@[simp] theorem firstMask_align (h : Header) : h.align.firstMask = h.range.firstMask := by
  have hw := Octets.toNat_word16 h.range.lastMask h.range.firstMask
  have hf := h.range.firstMask.toNat_lt
  apply UInt8.toNat_inj.1
  rw [firstMask, UInt16.toNat_toUInt8]
  change (Octets.word16 h.range.lastMask h.range.firstMask).toNat % 256 = _
  omega

@[simp] theorem lastMask_align (h : Header) : h.align.lastMask = h.range.lastMask := by
  have hw := Octets.toNat_word16 h.range.lastMask h.range.firstMask
  have hf := h.range.firstMask.toNat_lt
  have hl := h.range.lastMask.toNat_lt
  apply UInt8.toNat_inj.1
  rw [lastMask, UInt16.toNat_toUInt8, UInt16.toNat_shiftRight]
  change (Octets.word16 h.range.lastMask h.range.firstMask).toNat >>> 8 % 256 = _
  rw [Nat.shiftRight_eq_div_pow]
  omega

/-- **An aligned request enables exactly its range,** if the range ends within 2048
bytes of the base. -/
theorem enables_align_iff {h : Header} (hs : h.range.offset.toNat + h.payloadLength.toNat ≤ 2048)
    (n : ℕ) :
    h.align.Enables n ↔ h.address.toNat ≤ n ∧ n < h.address.toNat + h.payloadLength.toNat := by
  have hlt : h.range.offset.toNat + h.range.length.toNat < 2 ^ 64 :=
    Nat.lt_of_le_of_lt hs (by norm_num)
  have hw := h.range.toNat_words hlt
  have hr := h.range.toNat_requestLength hlt
  have hb := h.range.toNat_base
  have ho := h.range.toNat_offset
  have ha : h.range.address = h.address := rfl
  have hl : h.range.length = h.payloadLength := rfl
  rw [ha] at hb ho
  rw [hl] at hw
  have hk : h.range.requestLength.toNat = h.range.words.toNat - 1 := by omega
  simp only [Enables, firstMask_align, lastMask_align, ByteRange.testBit_firstMask, hl]
  change (∃ word bit : ℕ, bit < 8 ∧ n = h.range.base.toNat + 8 * word + bit ∧
    word ≤ h.range.requestLength.toNat ∧ _ ∧ (word = h.range.requestLength.toNat → _)) ↔ _
  rw [hk]
  constructor
  · rintro ⟨word, bit, hbit, rfl, hword, hfirst, hlast⟩
    rcases Nat.eq_zero_or_pos word with rfl | hpos
    · have := hfirst rfl
      omega
    · rcases Nat.lt_or_ge word (h.range.words.toNat - 1) with hin | hend
      · omega
      · have := hlast (by omega) hpos
        rw [h.range.testBit_lastMask hlt (by omega), hl] at this
        omega
  · rintro ⟨hlow, hhigh⟩
    refine ⟨(n - h.range.base.toNat) / 8, (n - h.range.base.toNat) % 8, by omega, by omega,
      by omega, fun _ => by omega, fun hend hpos => ?_⟩
    rw [h.range.testBit_lastMask hlt (by omega), hl]
    omega

/-- Enabled bytes are read off base address, word count and masks alone. -/
theorem enables_congr {h h' : Header} (hb : h.baseAddress = h'.baseAddress)
    (hl : h.requestLength = h'.requestLength) (hm : h.masks = h'.masks) (n : ℕ) :
    h.Enables n ↔ h'.Enables n := by
  unfold Enables firstMask lastMask
  rw [hb, hl, hm]

/-- **A request for no bytes enables none,** in its one word. -/
theorem align_of_empty {h : Header} (h0 : h.payloadLength = 0) :
    (∀ n, ¬ h.align.Enables n) ∧ h.align.requestLength = 0 := by
  have hl : h.payloadLength.toNat = 0 := by rw [h0]; rfl
  have ho := h.range.toNat_offset
  refine ⟨fun n => ?_, UInt8.toNat_inj.1 ?_⟩
  · rw [enables_align_iff (by omega)]
    omega
  · have hlt : h.range.offset.toNat + h.range.length.toNat < 2 ^ 64 := by
      change _ + h.payloadLength.toNat < _
      omega
    have hw : h.range.words.toNat =
        max 1 ((h.range.offset.toNat + h.payloadLength.toNat + 7) / 8) :=
      h.range.toNat_words hlt
    have hr : h.align.requestLength.toNat = (h.range.words.toNat - 1) % 256 :=
      h.range.toNat_requestLength hlt
    rw [hr, UInt8.toNat_zero]
    omega

end Header

/-- **The word count of the header is exact** for the ranges that end within 2048 bytes
of the base, and for no others. -/
theorem ByteRange.requestLength_exact_iff {r : ByteRange}
    (h : r.offset.toNat + r.length.toNat < 2 ^ 64) :
    r.requestLength.toNat + 1 = r.words.toNat ↔ r.offset.toNat + r.length.toNat ≤ 2048 := by
  have hw := r.toNat_words h
  have hr := r.toNat_requestLength h
  omega

/-- **The fields on the wire determine the range,** if it is not empty and ends within
2048 bytes of the base. -/
theorem ByteRange.eq_of_fields {r r' : ByteRange} (hr : 1 ≤ r.length.toNat)
    (hr' : 1 ≤ r'.length.toNat) (hs : r.offset.toNat + r.length.toNat ≤ 2048)
    (hs' : r'.offset.toNat + r'.length.toNat ≤ 2048) (hb : r.base = r'.base)
    (hl : r.requestLength = r'.requestLength) (hm : r.masks = r'.masks) : r = r' := by
  have hsame : ∀ n, (r.address.toNat ≤ n ∧ n < r.address.toNat + r.length.toNat) ↔
      (r'.address.toNat ≤ n ∧ n < r'.address.toNat + r'.length.toNat) := by
    intro n
    let h : Header := { address := r.address, payloadLength := r.length }
    let h' : Header := { address := r'.address, payloadLength := r'.length }
    have hc : h.align.Enables n ↔ h'.align.Enables n := Header.enables_congr hb hl hm n
    exact (Header.enables_align_iff (h := h) hs n).symm.trans
      (hc.trans (Header.enables_align_iff (h := h') hs' n))
  have hfirst := (hsame r.address.toNat).1 (by omega)
  have hfirst' := (hsame r'.address.toNat).2 (by omega)
  have hlast := (hsame (r.address.toNat + r.length.toNat - 1)).1 (by omega)
  have hlast' := (hsame (r'.address.toNat + r'.length.toNat - 1)).2 (by omega)
  have ha : r.address = r'.address := UInt64.toNat_inj.1 (by omega)
  have hn : r.length = r'.length := UInt64.toNat_inj.1 (by omega)
  cases r
  cases r'
  simp_all

/-- **Alignment is exact.**  Where offset and length do not overflow, the word count of
the header is the number of words touched exactly for the ranges that end within 2048
bytes of the base.  For those, what a receiver enables is exactly the range, as numbers,
and so no two of them that are not empty have the same fields.  A request for no bytes
enables none. -/
theorem align_exact :
    (∀ r : ByteRange, r.offset.toNat + r.length.toNat < 2 ^ 64 →
      (r.requestLength.toNat + 1 = r.words.toNat ↔
        r.offset.toNat + r.length.toNat ≤ 2048)) ∧
    (∀ h : Header, h.range.offset.toNat + h.payloadLength.toNat ≤ 2048 → ∀ n : ℕ,
      (h.align.Enables n ↔
        h.address.toNat ≤ n ∧ n < h.address.toNat + h.payloadLength.toNat)) ∧
    (∀ r r' : ByteRange, 1 ≤ r.length.toNat → 1 ≤ r'.length.toNat →
      r.offset.toNat + r.length.toNat ≤ 2048 → r'.offset.toNat + r'.length.toNat ≤ 2048 →
      r.base = r'.base → r.requestLength = r'.requestLength → r.masks = r'.masks → r = r') ∧
    (∀ h : Header, h.payloadLength = 0 →
      (∀ n, ¬ h.align.Enables n) ∧ h.align.requestLength = 0) := by
  refine ⟨?_, ?_, ?_, ?_⟩
  · intro r h
    exact ByteRange.requestLength_exact_iff h
  · intro h hs n
    exact Header.enables_align_iff hs n
  · intro r r' hr hr' hs hs' hb hl hm
    exact ByteRange.eq_of_fields hr hr' hs hs' hb hl hm
  · intro h h0
    exact Header.align_of_empty h0

/-- The longest payload from the last byte of a word, and nine bytes that pass the end
of the address space. -/
theorem align_exact_at_word_end :
    (⟨0x2007, 226⟩ : ByteRange).requestLength.toNat + 1 = (⟨0x2007, 226⟩ : ByteRange).words.toNat ∧
    ({ address := 0xFFFFFFFFFFFFFFFE, payloadLength := 9 } : Header).align.Enables
      18446744073709551622 ∧
    (⟨0x2000 + 7, 1 + 1⟩ : ByteRange) = ⟨0x2007, 2⟩ ∧
    ¬ ({ address := 0x2007, payloadLength := 0 } : Header).align.Enables 0x2007 :=
  ⟨(align_exact.1 ⟨0x2007, 226⟩ (by decide)).2 (by decide),
    (align_exact.2.1 { address := 0xFFFFFFFFFFFFFFFE, payloadLength := 9 } (by decide)
      18446744073709551622).2 (by decide),
    align_exact.2.2.1 ⟨0x2000 + 7, 1 + 1⟩ ⟨0x2007, 2⟩ (by decide) (by decide) (by decide)
      (by decide) rfl rfl rfl,
    (align_exact.2.2.2 { address := 0x2007, payloadLength := 0 } rfl).1 0x2007⟩

end Request
end RemoteMemory

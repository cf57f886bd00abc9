/-
# Which texts are hardware addresses

`set_src_mac` and `set_dst_mac`, `SPEC_FULL.md`, section 4.2.

A hardware address is written as six groups of one or two hexadecimal digits, of either case, joined
by colons; a group is the octet its digits denote (`Denotes`, `Spells`).  The reader takes one group
after another and refuses a text at the first thing that is not as it should be:

| the text has | refused |
| --- | --- |
| fewer than six groups | where one is missing |
| a group that is empty or longer than two octets | by its length |
| a sign, a blank, any other character in a group | by the octets of the character |
| a seventh group, be it empty | behind the sixth |

A group is measured in octets of UTF-8 but read in characters.  One character can be as long as two
digits, so the length alone does not count digits; the octets do, since none of a character beyond
ASCII is the code of a digit (`exists_utf8EncodeChar`, `all_isHexDigit_iff`).  Once only digits are
left, two of them are at most 255 (`octet?_eq_some_iff`).  So the reader accepts the spellings of
addresses and nothing else (`parse_accepts_exactly_spellings`).
-/

import Mathlib
import RemoteMemory.Ethernet.Header

namespace RemoteMemory
namespace Ethernet
namespace Mac

/-! ### The grammar -/

/-- The hexadecimal digits, each at the place of its value. -/
def lowerDigits : List Char :=
  ['0', '1', '2', '3', '4', '5', '6', '7', '8', '9', 'a', 'b', 'c', 'd', 'e', 'f']

/-- The same digits in upper case. -/
def upperDigits : List Char :=
  ['0', '1', '2', '3', '4', '5', '6', '7', '8', '9', 'A', 'B', 'C', 'D', 'E', 'F']

/-- A hexadecimal digit, of either case, and its value. -/
def IsDigit (c : Char) (value : ℕ) : Prop :=
  lowerDigits[value]? = some c ∨ upperDigits[value]? = some c

instance (c : Char) (value : ℕ) : Decidable (IsDigit c value) :=
  inferInstanceAs (Decidable (_ ∨ _))

/-- A group of one or two digits, and the octet it denotes: with one digit its value, with two the
octet whose halves are their values. -/
inductive Denotes : List Char → UInt8 → Prop
  | one {c : Char} {o : UInt8} (h : IsDigit c o.toNat) : Denotes [c] o
  | two {high low : Char} {o : UInt8} (hhigh : IsDigit high (o.toNat / 16))
      (hlow : IsDigit low (o.toNat % 16)) : Denotes [high, low] o

/-- A text spells an address: it is one group for each octet, in order, joined by colons. -/
def Spells (text : String) (m : Mac) : Prop :=
  ∃ groups, List.Forall₂ Denotes groups m.octets ∧ text.toList = [':'].intercalate groups

/-! ### Digits -/

theorem IsDigit.lt {c : Char} {value : ℕ} (h : IsDigit c value) : value < 16 := by
  rcases h with h | h <;> exact (List.getElem?_eq_some_iff.1 h).1

/-- Every value below 16 has a digit. -/
theorem exists_isDigit {value : ℕ} (h : value < 16) : ∃ c, IsDigit c value :=
  ⟨_, .inl (List.getElem?_eq_getElem h)⟩

/-- **The codes of the digits.** -/
theorem isDigit_iff_toNat {c : Char} {value : ℕ} :
    IsDigit c value ↔ c.toNat = value + 48 ∧ value ≤ 9 ∨
      c.toNat = value + 87 ∧ 10 ≤ value ∧ value ≤ 15 ∨
      c.toNat = value + 55 ∧ 10 ≤ value ∧ value ≤ 15 := by
  constructor
  · intro h
    have hlt : value < 16 := h.lt
    rcases h with h | h
    all_goals
      interval_cases value <;> obtain rfl := Option.some.inj h <;> decide
  · rintro (⟨hcode, hle⟩ | ⟨hcode, hge, hle⟩ | ⟨hcode, hge, hle⟩) <;>
      rw [← Char.ofNat_toNat c, hcode]
    · interval_cases value <;> exact .inl rfl
    · interval_cases value <;> exact .inl rfl
    · interval_cases value <;> exact .inr rfl

/-- **A character is read as a digit** exactly if it is one, with its value. -/
theorem digit?_eq_some_iff {c : Char} {value : ℕ} :
    Numeral.digit? 16 c = some value ↔ IsDigit c value := by
  have hzero : '0' ≤ c ∧ c ≤ '9' ↔ 48 ≤ c.toNat ∧ c.toNat ≤ 57 := Iff.rfl
  have hlower : 'a' ≤ c ∧ c ≤ 'f' ↔ 97 ≤ c.toNat ∧ c.toNat ≤ 102 := Iff.rfl
  have hupper : 'A' ≤ c ∧ c ≤ 'F' ↔ 65 ≤ c.toNat ∧ c.toNat ≤ 70 := Iff.rfl
  rw [isDigit_iff_toNat]
  simp only [Numeral.digit?, hzero, hlower, hupper, Option.ite_none_right_eq_some,
    Option.some.injEq]
  split_ifs <;> omega

/-- The octets that are codes of digits. -/
theorem isHexDigit_iff {b : UInt8} :
    isHexDigit b = true ↔ 48 ≤ b.toNat ∧ b.toNat ≤ 57 ∨ 65 ≤ b.toNat ∧ b.toNat ≤ 70 ∨
      97 ≤ b.toNat ∧ b.toNat ≤ 102 := by
  simp only [isHexDigit, Bool.or_eq_true, Bool.and_eq_true, decide_eq_true_eq, or_assoc]
  rfl

/-- **UTF-8 keeps ASCII apart:** a character of ASCII is written as one octet, its code, and every
other one begins with an octet that is no code of ASCII. -/
theorem exists_utf8EncodeChar (c : Char) :
    ∃ first rest, String.utf8EncodeChar c = first :: rest ∧
      (first.toNat = c.toNat ∧ rest = [] ∨ 128 ≤ first.toNat ∧ 128 ≤ c.toNat) := by
  have hcode : c.val.toNat = c.toNat := rfl
  simp only [String.utf8EncodeChar, hcode]
  split_ifs
  · refine ⟨_, _, rfl, .inl ⟨?_, rfl⟩⟩
    rw [UInt8.toNat_ofNat']
    omega
  all_goals
    refine ⟨_, _, rfl, .inr ⟨?_, by omega⟩⟩
    rw [UInt8.toNat_ofNat']
    omega

/-- The codes of digits of either case. -/
theorem exists_isDigit_iff {c : Char} :
    (∃ value, IsDigit c value) ↔ 48 ≤ c.toNat ∧ c.toNat ≤ 57 ∨ 65 ≤ c.toNat ∧ c.toNat ≤ 70 ∨
      97 ≤ c.toNat ∧ c.toNat ≤ 102 := by
  simp only [isDigit_iff_toNat]
  constructor
  · rintro ⟨value, h⟩
    omega
  · rintro (h | h | h)
    · exact ⟨c.toNat - 48, by omega⟩
    · exact ⟨c.toNat - 55, by omega⟩
    · exact ⟨c.toNat - 87, by omega⟩

/-- **A character is a digit exactly if its octets in UTF-8 are codes of digits.** -/
theorem all_isHexDigit_iff {c : Char} :
    (String.utf8EncodeChar c).all isHexDigit = true ↔ ∃ value, IsDigit c value := by
  obtain ⟨first, rest, hcodes, ⟨hcode, rfl⟩ | ⟨hfirst, habove⟩⟩ := exists_utf8EncodeChar c
  · rw [hcodes, List.all_cons, List.all_nil, Bool.and_true, isHexDigit_iff, exists_isDigit_iff,
      hcode]
  · rw [hcodes, List.all_cons, Bool.and_eq_true, isHexDigit_iff, exists_isDigit_iff]
    omega

/-- A digit is one octet in UTF-8. -/
theorem IsDigit.length_utf8EncodeChar {c : Char} {value : ℕ} (h : IsDigit c value) :
    (String.utf8EncodeChar c).length = 1 := by
  have hcode := exists_isDigit_iff.1 ⟨value, h⟩
  obtain ⟨first, rest, hcodes, ⟨-, rfl⟩ | ⟨-, habove⟩⟩ := exists_utf8EncodeChar c
  · rw [hcodes, List.length_singleton]
  · omega

/-! ### Groups -/

theorem all_codes_iff {group : List Char} :
    (group.flatMap String.utf8EncodeChar).all isHexDigit = true ↔
      ∀ c ∈ group, ∃ value, IsDigit c value := by
  rw [List.all_flatMap, List.all_eq_true]
  simp only [all_isHexDigit_iff]

/-- A group of digits is as many octets long as it has characters. -/
theorem length_codes {group : List Char} (h : ∀ c ∈ group, ∃ value, IsDigit c value) :
    (group.flatMap String.utf8EncodeChar).length = group.length := by
  induction group with
  | nil => rfl
  | cons c rest ih =>
    obtain ⟨⟨value, hc⟩, hrest⟩ := List.forall_mem_cons.1 h
    rw [List.flatMap_cons, List.length_append, hc.length_utf8EncodeChar, ih hrest,
      List.length_cons, Nat.add_comm]

/-- **What a group has to be:** one or two digits, and its number an octet. -/
theorem octet?_eq_some_iff_value? {group : List Char} {o : UInt8} :
    octet? group = some o ↔ (∀ c ∈ group, ∃ value, IsDigit c value) ∧ 1 ≤ group.length ∧
      group.length ≤ 2 ∧ ∃ n ≤ 255, Numeral.value? 16 group = some n ∧ UInt8.ofNat n = o := by
  simp only [octet?, Option.ite_none_left_eq_some, Bool.or_eq_true, not_or, Bool.not_eq_true',
    Bool.not_eq_false, decide_eq_true_eq, List.isEmpty_iff_length_eq_zero, all_codes_iff,
    Nat.not_lt]
  constructor
  · rintro ⟨⟨⟨hempty, hlong⟩, hdigits⟩, hvalue⟩
    rw [length_codes hdigits] at hempty hlong
    refine ⟨hdigits, by omega, hlong, ?_⟩
    cases hn : Numeral.value? 16 group with
    | none => simp [hn] at hvalue
    | some n =>
      simp only [hn, Option.ite_none_right_eq_some, Option.some.injEq] at hvalue
      exact ⟨n, hvalue.1, rfl, hvalue.2⟩
  · rintro ⟨hdigits, hempty, hlong, n, hn, hvalue, rfl⟩
    rw [length_codes hdigits, hvalue]
    exact ⟨⟨⟨by omega, hlong⟩, hdigits⟩, if_pos hn⟩

theorem value?_singleton {c : Char} {value : ℕ} (h : IsDigit c value) :
    Numeral.value? 16 [c] = some value := by
  simp [Numeral.value?, Numeral.ofDigits, digit?_eq_some_iff.2 h]

theorem value?_pair {c d : Char} {high low : ℕ} (hhigh : IsDigit c high) (hlow : IsDigit d low) :
    Numeral.value? 16 [c, d] = some (high * 16 + low) := by
  simp [Numeral.value?, Numeral.ofDigits, digit?_eq_some_iff.2 hhigh, digit?_eq_some_iff.2 hlow]

/-- **A group is read exactly as the octet it denotes.** -/
theorem octet?_eq_some_iff {group : List Char} {o : UInt8} :
    octet? group = some o ↔ Denotes group o := by
  rw [octet?_eq_some_iff_value?]
  constructor
  · rintro ⟨hdigits, hempty, hlong, n, hn, hvalue, rfl⟩
    have ho : (UInt8.ofNat n).toNat = n := UInt8.toNat_ofNat_of_lt' (Nat.lt_succ_of_le hn)
    match group, hempty, hlong with
    | [c], _, _ =>
      obtain ⟨value, hc⟩ := hdigits c (by simp)
      rw [value?_singleton hc] at hvalue
      obtain rfl := Option.some.inj hvalue
      refine .one ?_
      rwa [ho]
    | [c, d], _, _ =>
      obtain ⟨high, hc⟩ := hdigits c (by simp)
      obtain ⟨low, hd⟩ := hdigits d (by simp)
      have hlow := hd.lt
      rw [value?_pair hc hd] at hvalue
      have hvalue := Option.some.inj hvalue
      refine .two ?_ ?_
      · rwa [ho, show n / 16 = high by omega]
      · rwa [ho, show n % 16 = low by omega]
  · intro h
    have ho : o.toNat ≤ 255 := Nat.le_of_lt_succ o.toNat_lt
    cases h with
    | @one c o h =>
      refine ⟨?_, le_rfl, by simp, _, ho, value?_singleton h, UInt8.ofNat_toNat⟩
      simpa using ⟨_, h⟩
    | @two c d o hhigh hlow =>
      refine ⟨?_, by simp, le_rfl, _, ho, ?_, UInt8.ofNat_toNat⟩
      · simpa using ⟨⟨_, hhigh⟩, _, hlow⟩
      · rw [value?_pair hhigh hlow, Nat.div_add_mod' o.toNat 16]

/-- Every octet is denoted by some group. -/
theorem exists_denotes (o : UInt8) : ∃ group, Denotes group o := by
  have ho : o.toNat < 256 := o.toNat_lt
  obtain ⟨high, hhigh⟩ : ∃ c, IsDigit c (o.toNat / 16) := exists_isDigit (by omega)
  obtain ⟨low, hlow⟩ : ∃ c, IsDigit c (o.toNat % 16) := exists_isDigit (by omega)
  exact ⟨[high, low], .two hhigh hlow⟩

/-- No group holds a colon. -/
theorem Denotes.colon_not_mem {group : List Char} {o : UInt8} (h : Denotes group o) :
    ':' ∉ group := by
  intro hmem
  have hdigits := (octet?_eq_some_iff_value?.1 (octet?_eq_some_iff.2 h)).1
  have hcode := exists_isDigit_iff.1 (hdigits ':' hmem)
  revert hcode
  decide

theorem colon_not_mem {groups : List (List Char)} {os : Octets}
    (h : List.Forall₂ Denotes groups os) : ∀ group ∈ groups, ':' ∉ group := by
  induction h with
  | nil => exact List.forall_mem_nil _
  | cons hfirst _ ih => exact List.forall_mem_cons.2 ⟨hfirst.colon_not_mem, ih⟩

/-! ### Texts -/

/-- **Groups are read one for each octet,** in order, and those behind them are left. -/
theorem readGroups?_eq_some_iff {n : ℕ} {groups rest : List (List Char)} {os : Octets} :
    readGroups? n groups = some (os, rest) ↔
      ∃ front, groups = front ++ rest ∧ front.length = n ∧ List.Forall₂ Denotes front os := by
  -- Along the loop: no octet left to fill, no group left, a group refused, a group read.
  fun_induction readGroups? n groups generalizing os rest with
  | case1 groups =>
    constructor
    · rintro ⟨⟩
      exact ⟨[], rfl, rfl, .nil⟩
    · rintro ⟨front, rfl, hlength, hfront⟩
      obtain rfl := List.eq_nil_of_length_eq_zero hlength
      cases hfront
      rfl
  | case2 n =>
    constructor
    · rintro ⟨⟩
    · rintro ⟨front, hnil, hlength, -⟩
      obtain ⟨rfl, -⟩ := List.nil_eq_append_iff.1 hnil
      cases hlength
  | case3 n group groups hgroup =>
    constructor
    · rintro ⟨⟩
    · rintro ⟨front, hfront, hlength, hall⟩
      cases hall with
      | nil => cases hlength
      | cons hfirst _ =>
        obtain ⟨rfl, -⟩ := List.cons.inj hfront
        rw [octet?_eq_some_iff.2 hfirst] at hgroup
        cases hgroup
  | case4 n group groups o hgroup ih =>
    rw [Option.map_eq_some_iff]
    constructor
    · rintro ⟨⟨os', rest'⟩, hread, heq⟩
      obtain ⟨rfl, rfl⟩ := Prod.mk.inj heq
      obtain ⟨front, rfl, rfl, hall⟩ := ih.1 hread
      exact ⟨group :: front, rfl, rfl, .cons (octet?_eq_some_iff.1 hgroup) hall⟩
    · rintro ⟨front, hfront, hlength, hall⟩
      cases hall with
      | nil => cases hlength
      | @cons _ o' front' os' hfirst hall =>
        obtain ⟨rfl, rfl⟩ := List.cons.inj hfront
        have ho := octet?_eq_some_iff.2 hfirst
        rw [hgroup] at ho
        obtain rfl := Option.some.inj ho
        exact ⟨(os', rest), ih.2 ⟨front', rfl, Nat.succ.inj hlength, hall⟩, rfl⟩

/-- **A text is read as an address exactly if it spells it.** -/
theorem ofText?_eq_some_iff {text : String} {m : Mac} : ofText? text = some m ↔ Spells text m := by
  constructor
  · intro h
    unfold ofText? at h
    split at h
    · rename_i hread
      obtain rfl := Option.some.inj h
      obtain ⟨front, hsplit, -, hall⟩ := readGroups?_eq_some_iff.1 hread
      rw [List.append_nil] at hsplit
      refine ⟨front, hall, ?_⟩
      rw [← hsplit, List.intercalate_splitOn]
    · cases h
  · rintro ⟨groups, hall, htext⟩
    have hlength : groups.length = 6 := hall.length_eq
    have hsplit : text.toList.splitOn ':' = groups := by
      rw [htext]
      exact List.splitOn_intercalate ':' (colon_not_mem hall) (List.ne_nil_of_length_pos (by omega))
    have hread : readGroups? 6 groups = some (m.octets, []) :=
      readGroups?_eq_some_iff.2 ⟨groups, (List.append_nil _).symm, hlength, hall⟩
    rw [ofText?, hsplit, hread]
    rfl

theorem parse_eq_ok_iff {text : String} {m : Mac} : parse text = .ok m ↔ Spells text m := by
  rw [← ofText?_eq_some_iff, parse]
  cases ofText? text <;> simp

theorem parse_eq_error_iff {text : String} {cause : Error} :
    parse text = .error cause ↔ cause = .invalidMac text ∧ ∀ m, ¬ Spells text m := by
  simp only [← ofText?_eq_some_iff, parse]
  cases ofText? text <;> simp [eq_comm]

/-- A text that spells an address has five colons. -/
theorem Spells.count_colon {text : String} {m : Mac} (h : Spells text m) :
    text.toList.count ':' = 5 := by
  obtain ⟨groups, hall, htext⟩ := h
  have hcolon := colon_not_mem hall
  rw [htext]
  have hlength : groups.length = 6 := hall.length_eq
  match groups, hlength with
  | [a, b, c, d, e, f], _ =>
    simp only [List.forall_mem_cons, ← List.count_eq_zero] at hcolon
    simp [List.intercalate, List.count_append, hcolon]

theorem putMac_of_spells {text : String} {m : Mac} (hs : Spells text m)
    (put : Header → Mac → Header) (h : Header) :
    Header.putMac put h text = (.ok (), put h m) := by
  rw [Header.putMac, parse_eq_ok_iff.2 hs]

theorem putMac_of_not_spells {text : String} (hs : ∀ m, ¬ Spells text m)
    (put : Header → Mac → Header) (h : Header) :
    Header.putMac put h text = (.error (.invalidMac text), h) := by
  rw [Header.putMac, parse_eq_error_iff.2 ⟨rfl, hs⟩]

/-- Every address has a spelling. -/
theorem exists_forall₂_denotes (os : Octets) : ∃ groups, List.Forall₂ Denotes groups os := by
  choose spell hspell using exists_denotes
  exact ⟨os.map spell, List.forall₂_map_left_iff.2 (List.forall₂_same.2 fun o _ => hspell o)⟩

/-- **A text is read as an address exactly if it spells it.**  Such a text has five colons, and is
put into the source or the destination of a header, whose other fields stay.  Every other text is
refused and named whole in the error, and the header stays as it was.  Every address has a spelling,
and every spelling of it is read as the address. -/
theorem parse_accepts_exactly_spellings :
    (∀ text : String,
      (∀ m, parse text = .ok m ↔ Spells text m) ∧
      (∀ m, Spells text m →
        text.toList.count ':' = 5 ∧
        ∀ h : Header, h.putSource text = (.ok (), { h with src := m }) ∧
          h.putDestination text = (.ok (), { h with dst := m })) ∧
      ((∀ m, ¬ Spells text m) →
        parse text = .error (.invalidMac text) ∧
        ∀ h : Header, h.putSource text = (.error (.invalidMac text), h) ∧
          h.putDestination text = (.error (.invalidMac text), h))) ∧
    ∀ m : Mac,
      (∃ groups, List.Forall₂ Denotes groups m.octets) ∧
      ∀ groups, List.Forall₂ Denotes groups m.octets →
        parse (String.ofList ([':'].intercalate groups)) = .ok m := by
  refine ⟨fun text => ⟨fun m => parse_eq_ok_iff, fun m hs => ⟨hs.count_colon, fun h => ?_⟩,
    fun hs => ⟨parse_eq_error_iff.2 ⟨rfl, hs⟩, fun h => ?_⟩⟩,
    fun m => ⟨exists_forall₂_denotes m.octets, fun groups hall => ?_⟩⟩
  · exact ⟨putMac_of_spells hs _ h, putMac_of_spells hs _ h⟩
  · exact ⟨putMac_of_not_spells hs _ h, putMac_of_not_spells hs _ h⟩
  · exact parse_eq_ok_iff.2 ⟨groups, hall, String.toList_ofList⟩

/-- Groups of one and two digits, of both cases, are read.  A last group of one character that is
two octets long is refused, and the header stays. -/
theorem parse_accepts_exactly_spellings_mixed :
    let m : Mac := ⟨2, 0xAB, 0, 0xFF, 9, 0x0D⟩
    Spells "2:aB:0:Ff:9:0d" m ∧
      parse "2:aB:0:Ff:9:0d" = .ok m ∧
      ({} : Header).putSource "2:aB:0:Ff:9:0d" = (.ok (), { src := m }) ∧
      (∀ m, ¬ Spells "02:00:00:00:00:é" m) ∧
      ({} : Header).putSource "02:00:00:00:00:é" =
        (.error (.invalidMac "02:00:00:00:00:é"), {}) := by
  intro m
  have hspells : Spells "2:aB:0:Ff:9:0d" m := by
    have hgroups : List.Forall₂ Denotes [['2'], ['a', 'B'], ['0'], ['F', 'f'], ['9'], ['0', 'd']]
        [2, 0xAB, 0, 0xFF, 9, 0x0D] :=
      .cons (.one (by decide)) <| .cons (.two (by decide) (by decide)) <|
        .cons (.one (by decide)) <| .cons (.two (by decide) (by decide)) <|
        .cons (.one (by decide)) <| .cons (.two (by decide) (by decide)) .nil
    exact ⟨_, hgroups, by decide⟩
  have hrefused : parse "02:00:00:00:00:é" = .error (.invalidMac "02:00:00:00:00:é") := by
    decide +kernel
  have hnone : ∀ m, ¬ Spells "02:00:00:00:00:é" m := by
    intro m hs
    have hok := ((parse_accepts_exactly_spellings.1 _).1 m).2 hs
    rw [hrefused] at hok
    cases hok
  exact ⟨hspells, ((parse_accepts_exactly_spellings.1 _).1 m).2 hspells,
    (((parse_accepts_exactly_spellings.1 _).2.1 m hspells).2 {}).1, hnone,
    (((parse_accepts_exactly_spellings.1 _).2.2 hnone).2 {}).1⟩

end Mac
end Ethernet
end RemoteMemory

/-
# Numerals in ASCII digits

The digits of `set_src_mac`, `set_src_addr` and `set_src_port`, `SPEC_FULL.md`, section 4.2.

Addresses and ports are written with the ASCII digits `0`-`9` and, in base
sixteen, the letters `a`-`f` of either case.  No other character is a digit:
neither a sign, a blank nor a digit of another script.
-/

namespace RemoteMemory
namespace Numeral

/-- The value of an ASCII digit or letter, if it is a digit of the base. -/
def digit? (base : Nat) (c : Char) : Option Nat :=
  let v :=
    if '0' ≤ c ∧ c ≤ '9' then c.toNat - 48
    else if 'a' ≤ c ∧ c ≤ 'f' then c.toNat - 87
    else if 'A' ≤ c ∧ c ≤ 'F' then c.toNat - 55
    else base
  if v < base then some v else none

/-- The number that digits denote, most significant first. -/
def ofDigits (base : Nat) (ds : List Nat) : Nat :=
  ds.foldl (fun acc d => acc * base + d) 0

/-- The number a numeral denotes.  An empty text is no numeral. -/
def value? (base : Nat) : List Char → Option Nat
  | [] => none
  | c :: cs => ((c :: cs).mapM (digit? base)).map (ofDigits base)

example : digit? 16 'C' = some 12 ∧ digit? 10 'C' = none ∧ digit? 16 'g' = none := by decide

example : value? 16 ['0', 'f'] = some 15 ∧ value? 10 [] = none ∧ value? 10 ['+', '1'] = none := by
  decide

end Numeral
end RemoteMemory

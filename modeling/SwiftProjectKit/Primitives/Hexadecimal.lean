import Mathlib.Algebra.Ring.Nat
import Mathlib.Data.List.DropRight

-- Numbers that are written with hexadecimal digits.
namespace Hexadecimal

variable {c : Char} {cs cs' : List Char} {k : Nat}

def digit (c : Char) : Option Nat :=
  if '0'.toNat ≤ c.toNat ∧ c.toNat ≤ '9'.toNat then
    some <| c.toNat - '0'.toNat
  else if 'A'.toNat ≤ c.toNat ∧ c.toNat ≤ 'F'.toNat then
    some <| c.toNat - 'A'.toNat + 10
  else if 'a'.toNat ≤ c.toNat ∧ c.toNat ≤ 'f'.toNat then
    some <| c.toNat - 'a'.toNat + 10
  else
    none

def isDigit (c : Char) : Bool :=
  (digit c).isSome

def number (cs : List Char) : Nat :=
  cs.foldl (fun n c => 16 * n + (digit c).getD 0) 0

theorem digit_bounds {v : Nat} (h : digit c = some v) : v < 16 ∧ '0'.toNat ≤ c.toNat ∧ c.toNat ≤ 'f'.toNat := by
  have hv : '0'.toNat = 48 ∧ '9'.toNat = 57 ∧ 'A'.toNat = 65 ∧ 'F'.toNat = 70 ∧ 'a'.toNat = 97 ∧ 'f'.toNat = 102 := by
    decide
  grind [digit]

theorem getD_digit_lt : (digit c).getD 0 < 16 := by
  cases h : digit c
  case none   => decide
  case some v => exact digit_bounds h |>.left

theorem toNat_le_of_isDigit (h : isDigit c) : '0'.toNat ≤ c.toNat ∧ c.toNat ≤ 'f'.toNat := by
  have ⟨_, hd⟩ := Option.isSome_iff_exists.mp h
  exact digit_bounds hd |>.right

theorem number_append_singleton : number (cs ++ [c]) = 16 * number cs + (digit c).getD 0 := by
  rw [number, List.foldl_append, List.foldl_cons, List.foldl_nil, number]

theorem number_append : number (cs ++ cs') = number cs * 16 ^ cs'.length + number cs' := by
  induction cs' using List.reverseRecOn
  case nil => simp [number]
  case append_singleton cs' c hi =>
    rw [← List.append_assoc, number_append_singleton, hi, number_append_singleton, List.length_append,
      List.length_singleton, Nat.pow_succ]
    grind

theorem number_lt : number cs < 16 ^ cs.length := by
  induction cs using List.reverseRecOn
  case nil => decide
  case append_singleton cs c hi =>
    have hd := @getD_digit_lt c
    rw [number_append_singleton, List.length_append, List.length_singleton, Nat.pow_succ]
    omega

theorem number_div (h : cs'.length = k) : number (cs ++ cs') / 16 ^ k = number cs := by
  have hl := @number_lt cs'
  have hk : 0 < 16 ^ k := Nat.pow_pos <| by decide
  rw [h] at hl
  rw [number_append, h, Nat.add_comm, Nat.add_mul_div_right _ _ hk, Nat.div_eq_of_lt hl, Nat.zero_add]

theorem number_mod (h : cs'.length = k) : number (cs ++ cs') % 16 ^ k = number cs' := by
  have hl := @number_lt cs'
  rw [h] at hl
  rw [number_append, h, Nat.mul_add_mod_self_right, Nat.mod_eq_of_lt hl]

end Hexadecimal

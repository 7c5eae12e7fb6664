import SwiftProjectKit.Primitives.Numeral

-- Numbers that are written one after the other with dots between them.
namespace Dotted

variable {cs : List Char} {new : List Char}

def text (ns : List Nat) : List Char :=
  ['.'].intercalate <| ns.map <| Nat.toDigits 10

def replacingOccurrences (cs : List Char) (target : Char) (new : List Char) : List Char :=
  cs.flatMap fun c => if c = target then new else [c]

theorem replacingOccurrences_append {cs' : List Char} {target : Char} :
    replacingOccurrences (cs ++ cs') target new =
      replacingOccurrences cs target new ++ replacingOccurrences cs' target new :=
  List.flatMap_append

theorem replacingOccurrences_of_notMem {target : Char} (h : target ∉ cs) : replacingOccurrences cs target new = cs := by
  induction cs
  case nil => rfl
  case cons c cs hi =>
    have ⟨hc, hcs⟩ := not_or.mp <| mt List.mem_cons.mpr h
    rw [replacingOccurrences, List.flatMap_cons, if_neg (Ne.symm hc), ← replacingOccurrences, hi hcs]
    rfl

theorem replacingOccurrences_nil {target : Char} : replacingOccurrences cs target [] = cs.filter (· ≠ target) := by
  induction cs
  case nil => rfl
  case cons c cs hi =>
    rw [replacingOccurrences, List.flatMap_cons, ← replacingOccurrences, hi]
    by_cases hc : c = target <;> simp [hc]

theorem replacingOccurrences_text (ns : List Nat) :
    replacingOccurrences (text ns) '.' new = new.intercalate (ns.map <| Nat.toDigits 10) := by
  have hd (n : Nat) : '.' ∉ Nat.toDigits 10 n := Digits.point_notMem_of_isDigit isDigit_toDigits
  have hp : replacingOccurrences ['.'] '.' new = new := by simp [replacingOccurrences]
  rw [text]
  induction ns
  case nil => rfl
  case cons n ns hi =>
    cases ns
    case nil => simp [replacingOccurrences_of_notMem <| hd n]
    case cons =>
      simp only [List.map_cons, List.intercalate_cons_cons] at hi ⊢
      rw [replacingOccurrences_append, replacingOccurrences_append, replacingOccurrences_of_notMem <| hd n, hp, hi]

theorem filter_text (ns : List Nat) : (text ns).filter (· ≠ '.') = (ns.map <| Nat.toDigits 10).flatten := by
  rw [← replacingOccurrences_nil, replacingOccurrences_text]
  induction ns
  case nil => rfl
  case cons n ns hi => cases ns <;> simp_all

end Dotted

import SwiftProjectKit.Http.Until
import SwiftProjectKit.Primitives.Dotted

namespace Http.HttpRequestUntil

variable {v w : List Nat}

def digits (v : List Nat) : List Char :=
  (v.map <| Nat.toDigits 10).flatten

theorem digits_isDigit : ∀ c ∈ digits v, c.isDigit := by
  intro c hc
  have ⟨cs, hcs, hc⟩ := List.mem_flatten.mp hc
  have ⟨n, _, hn⟩ := List.mem_map.mp hcs
  exact isDigit_toDigits c <| hn ▸ hc

def field (v : List Nat) : List Char :=
  if (digits v).length ≤ 3 then '0' :: digits v else digits v

theorem platformVersion_text : (platformVersion <| .ofList <| Dotted.text v).toList =
    "0120".toList ++ field v ++ "0001".toList := by
  have hf : (Dotted.text v).filter (· ≠ '.') = digits v := Dotted.filter_text v
  rw [platformVersion, String.toList_ofList]
  simp only [hf, String.toList_append, String.toList_ofList, field]

theorem natValue_field : natValue (field v) = natValue (digits v) := by
  rw [field]
  split
  case isTrue  => exact natValue_zero_cons _
  case isFalse => rfl

theorem field_isDigit : ∀ c ∈ field v, c.isDigit := by
  intro c hc
  rw [field] at hc
  split at hc
  case isTrue =>
    cases hc
    case head    => rfl
    case tail hc => exact digits_isDigit c hc
  case isFalse => exact digits_isDigit c hc

theorem field_length (h : (digits v).length = 3 ∨ (digits v).length = 4) : (field v).length = 4 := by
  rw [field]
  split
  case isTrue hl =>
    rw [List.length_cons]
    omega
  case isFalse hl => omega

def HasLayout (header : String) : Prop :=
  ∃ application platform version channel : Digits,
    header.toList = application.chars ++ platform.chars ++ version.chars ++ channel.chars ∧
    application.chars.length = 2 ∧ platform.chars.length = 2 ∧ version.chars.length = 4 ∧ channel.chars.length = 4

theorem platformVersion_hasLayout (h : (digits v).length = 3 ∨ (digits v).length = 4) :
    HasLayout (platformVersion <| .ofList <| Dotted.text v) := by
  have hl := field_length h
  have hn : field v ≠ [] := List.ne_nil_of_length_pos <| by omega
  exact ⟨.padded 2 1, .padded 2 20, ⟨field v, hn, field_isDigit⟩, .padded 4 1, platformVersion_text, rfl, rfl, hl, rfl⟩

theorem platformVersion_inj (hl : (field v).length = (field w).length) :
    platformVersion (.ofList <| Dotted.text v) = platformVersion (.ofList <| Dotted.text w) ↔
      natValue (digits v) = natValue (digits w) := by
  rw [← String.toList_inj, platformVersion_text, platformVersion_text, List.append_left_inj, List.append_right_inj,
    ← natValue_field, ← natValue_field]
  exact ⟨congrArg natValue, eq_of_natValue_eq hl field_isDigit field_isDigit⟩

theorem platformVersion_identifies (hv : (digits v).length = 3 ∨ (digits v).length = 4)
    (hw : (digits w).length = 3 ∨ (digits w).length = 4) :
    HasLayout (platformVersion <| .ofList <| Dotted.text v) ∧
    HasLayout (platformVersion <| .ofList <| Dotted.text w) ∧
    (platformVersion (.ofList <| Dotted.text v) = platformVersion (.ofList <| Dotted.text w) ↔
      natValue (digits v) = natValue (digits w)) :=
  ⟨platformVersion_hasLayout hv, platformVersion_hasLayout hw,
    platformVersion_inj <| (field_length hv).trans (field_length hw).symm⟩

theorem sample_platformVersion :
    platformVersion (.ofList <| Dotted.text [1, 2, 3]) ≠ platformVersion (.ofList <| Dotted.text [1, 2, 14]) := by
  have h := platformVersion_identifies (v := [1, 2, 3]) (w := [1, 2, 14]) (by decide) (by decide)
  exact mt h.right.right.mp <| by decide

theorem platformVersion_collides :
    platformVersion (.ofList <| Dotted.text [1, 10, 0]) = platformVersion (.ofList <| Dotted.text [11, 0, 0]) ∧
    (platformVersion <| .ofList <| Dotted.text [1, 0]) = "01200100001" ∧ "01200100001".length = 11 := by
  decide

end Http.HttpRequestUntil

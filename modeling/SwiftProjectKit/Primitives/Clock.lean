import SwiftProjectKit.Primitives.Numeral

-- Times that are written as numbers with colons between them.
namespace Clock

variable {fields : List Digits} {field : Digits} {cs : List Char}

def text (fields : List Digits) : List Char :=
  [':'].intercalate <| fields.map Digits.chars

def parse (cs : List Char) : Option (List Digits) :=
  cs.splitOn ':' |>.mapM Digits.ofList

def seconds (fields : List Digits) : Nat :=
  fields.foldl (fun n field => 60 * n + natValue field.chars) 0

theorem seconds_pair {d d' : Digits} : seconds [d, d'] = 60 * natValue d.chars + natValue d'.chars := by
  simp [seconds]

theorem seconds_triple {d d' d'' : Digits} :
    seconds [d, d', d''] = 60 * (60 * natValue d.chars + natValue d'.chars) + natValue d''.chars := by
  simp [seconds]

theorem colon_notMem : ':' ∉ field.chars :=
  fun h => absurd (field.isDigit _ h) <| by decide

theorem mapM_ofList_eq_some {css : List (List Char)} :
    css.mapM Digits.ofList = some fields ↔ fields.map Digits.chars = css := by
  induction css generalizing fields
  case nil => cases fields <;> simp
  case cons cs css hi =>
    rw [List.mapM_cons]
    constructor
    case mp =>
      intro h
      have ⟨_, hf, h⟩ := Option.bind_eq_some_iff.mp h
      have ⟨_, hfs, h⟩ := Option.bind_eq_some_iff.mp h
      cases Option.some.inj h
      rw [List.map_cons, Digits.ofList_eq_some.mp hf, hi.mp hfs]
    case mpr =>
      intro h
      cases fields
      case nil => contradiction
      case cons field fields =>
        have ⟨hf, hfs⟩ := List.cons_eq_cons.mp h
        rw [Digits.ofList_eq_some.mpr hf, hi.mpr hfs]
        rfl

theorem parse_eq_some : parse cs = some fields ↔ fields ≠ [] ∧ text fields = cs := by
  rw [parse, mapM_ofList_eq_some]
  constructor
  case mp =>
    intro h
    refine ⟨fun hn => List.splitOn_ne_nil _ _ <| by rw [← h, hn]; rfl, ?_⟩
    rw [text, h, List.intercalate_splitOn]
  case mpr =>
    intro ⟨hn, h⟩
    have hc : ∀ cs ∈ fields.map Digits.chars, ':' ∉ cs := by
      intro cs hc
      have ⟨_, _, hf⟩ := List.mem_map.mp hc
      exact hf ▸ colon_notMem
    rw [← h, text, List.splitOn_intercalate _ hc <| mt List.map_eq_nil_iff.mp hn]

theorem parse_text (h : fields ≠ []) : parse (text fields) = some fields :=
  parse_eq_some.mpr ⟨h, rfl⟩

@[simp]
theorem text_singleton : text [field] = field.chars := by
  simp [text]

@[simp]
theorem text_cons_cons {field' : Digits} :
    text (field :: field' :: fields) = field.chars ++ ':' :: text (field' :: fields) := by
  simp [text]

theorem isDigit_of_mem_text {c : Char} (h : c ∈ text fields) : c = ':' ∨ c.isDigit := by
  induction fields
  case nil => contradiction
  case cons field fields hi =>
    cases fields
    case nil => exact .inr <| field.isDigit _ <| by simpa using h
    case cons =>
      rw [text_cons_cons, List.mem_append, List.mem_cons] at h
      exact h.elim (fun h => .inr <| field.isDigit _ h) fun h => h.elim .inl hi

theorem minus_notMem (h : parse cs = some fields) : '-' ∉ cs := by
  have ⟨_, ht⟩ := parse_eq_some.mp h
  intro hm
  cases isDigit_of_mem_text <| ht ▸ hm
  case inl hc => contradiction
  case inr hc => contradiction

end Clock

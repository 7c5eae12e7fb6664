import Mathlib.Data.List.Nodup

namespace Http

structure HTTPHeader where
  name  : String
  value : String
deriving DecidableEq

-- Header names consist of ASCII characters, for which this is Swift's `lowercased()`.
def lowercased (s : String) : List Char :=
  s.toList.map Char.toLower

namespace HTTPHeader

def isNamed (name : String) (header : HTTPHeader) : Bool :=
  lowercased header.name == lowercased name

theorem isNamed_iff {name : String} {header : HTTPHeader} :
    header.isNamed name ↔ lowercased header.name = lowercased name := by
  simp [isNamed]

end HTTPHeader

-- An order-preserving list of headers in which no name occurs twice. The list is private to
-- Alamofire's type and is built by `update` and `remove` only, which preserve this property.
structure HTTPHeaders where
  headers : List HTTPHeader
  nodup   : headers.map (lowercased ·.name) |>.Nodup

namespace HTTPHeaders

variable {hs : HTTPHeaders} {name name' : String}

def empty : HTTPHeaders where
  headers := []
  nodup   := List.nodup_nil

def index (hs : HTTPHeaders) (name : String) : Option Nat :=
  hs.headers.findIdx? (HTTPHeader.isNamed name)

theorem index_isNamed {i : Nat} (h : hs.index name = some i) :
    ∃ hi : i < hs.headers.length, hs.headers[i].isNamed name :=
  have ⟨hi, h, _⟩ := List.findIdx?_eq_some_iff_getElem.mp h
  ⟨hi, h⟩

theorem index_none (h : hs.index name = none) : ∀ hd ∈ hs.headers, ¬hd.isNamed name := by
  simpa [index, List.findIdx?_eq_none_iff] using h

theorem map_name_set {value : String} {i : Nat} (h : hs.index name = some i) :
    (hs.headers.set i ⟨name, value⟩).map (lowercased ·.name) =
    hs.headers.map (lowercased ·.name) := by
  have ⟨hi, h⟩ := index_isNamed h
  rw [List.map_set, ← HTTPHeader.isNamed_iff.mp h]
  apply List.ext_getElem <;> simp +contextual [List.getElem_set]

def update (hs : HTTPHeaders) (name value : String) : HTTPHeaders :=
  match h : hs.index name with
  | none => {
      headers := hs.headers ++ [⟨name, value⟩]
      nodup   := by
        rw [List.map_append, List.nodup_append]
        refine ⟨hs.nodup, by simp, fun a ha b hb => ?_⟩
        have ⟨hd, hm, ha⟩ := List.mem_map.mp ha
        have hn := mt HTTPHeader.isNamed_iff.mpr <| index_none h hd hm
        simp_all
    }
  | some i => {
      headers := hs.headers.set i ⟨name, value⟩
      nodup   := map_name_set h ▸ hs.nodup
    }

def remove (hs : HTTPHeaders) (name : String) : HTTPHeaders :=
  match hs.index name with
  | none => hs
  | some i => {
      headers := hs.headers.eraseIdx i
      nodup   := hs.nodup.sublist <| (List.eraseIdx_sublist _ _).map _
    }

def value (hs : HTTPHeaders) (name : String) : Option String :=
  hs.index name |>.bind (hs.headers[·]?) |>.map HTTPHeader.value

def ofDictionary (dictionary : List (String × String)) : HTTPHeaders :=
  dictionary.foldl (fun hs (name, value) => hs.update name value) empty

-- No name occurs twice, so there are no values to be united. Swift leaves the order of the
-- entries unspecified.
def dictionary (hs : HTTPHeaders) : List (String × String) :=
  hs.headers.map fun header => (header.name, header.value)

theorem isNamed_getElem_iff {i j : Nat} (h : hs.index name = some i) (hj : j < hs.headers.length) :
    hs.headers[j].isNamed name ↔ j = i := by
  have ⟨hi, h⟩ := index_isNamed h
  rw [HTTPHeader.isNamed_iff] at h ⊢
  constructor
  case mp =>
    intro h'
    have heq := List.inj_on_of_nodup_map hs.nodup (List.getElem_mem hj) (List.getElem_mem hi)
    exact (List.Nodup.of_map _ hs.nodup).getElem_inj_iff.mp <| heq <| h'.trans h.symm
  case mpr => rintro rfl; exact h

theorem mem_update_iff {value : String} {hd : HTTPHeader} :
    hd ∈ (hs.update name value).headers ↔
    hd = ⟨name, value⟩ ∨ (hd ∈ hs.headers ∧ ¬hd.isNamed name) := by
  unfold update
  split
  case h_1 h =>
    have := index_none h hd
    simp only [List.mem_append, List.mem_singleton]
    tauto
  case h_2 i h =>
    have ⟨hi, _⟩ := index_isNamed h
    simp only [List.mem_iff_getElem, List.length_set, List.getElem_set]
    constructor
    case mp =>
      rintro ⟨j, hj, rfl⟩
      by_cases hij : i = j
      case pos => simp [hij]
      case neg =>
        simp only [hij, if_false]
        exact .inr ⟨⟨j, hj, rfl⟩, mt (isNamed_getElem_iff h hj).mp (Ne.symm hij)⟩
    case mpr =>
      rintro (rfl | ⟨⟨j, hj, rfl⟩, hn⟩)
      · exact ⟨i, hi, by simp⟩
      · have hij := mt (isNamed_getElem_iff h hj).mpr hn
        exact ⟨j, hj, by simp [Ne.symm hij]⟩

theorem mem_remove_iff {hd : HTTPHeader} :
    hd ∈ (hs.remove name).headers ↔ hd ∈ hs.headers ∧ ¬hd.isNamed name := by
  unfold remove
  split
  case h_1 h =>
    have := index_none h hd
    tauto
  case h_2 i h =>
    rw [List.mem_eraseIdx_iff_getElem]
    constructor
    case mp =>
      rintro ⟨j, hj, hij, rfl⟩
      exact ⟨List.getElem_mem hj, mt (isNamed_getElem_iff h hj).mp hij⟩
    case mpr =>
      rintro ⟨hm, hn⟩
      obtain ⟨j, hj, rfl⟩ := List.mem_iff_getElem.mp hm
      exact ⟨j, hj, mt (isNamed_getElem_iff h hj).mpr hn, rfl⟩

theorem value_eq_some_iff {v : String} :
    hs.value name = some v ↔ ∃ hd ∈ hs.headers, hd.isNamed name ∧ hd.value = v := by
  simp only [value, Option.map_eq_some_iff, Option.bind_eq_some_iff]
  constructor
  case mp =>
    rintro ⟨hd, ⟨i, hi, hg⟩, rfl⟩
    have ⟨hl, h⟩ := index_isNamed hi
    obtain ⟨_, rfl⟩ := List.getElem?_eq_some_iff.mp hg
    exact ⟨_, List.getElem_mem hl, h, rfl⟩
  case mpr =>
    rintro ⟨hd, hm, h, rfl⟩
    obtain ⟨j, hj, rfl⟩ := List.mem_iff_getElem.mp hm
    cases hi : hs.index name
    case none   => exact absurd h <| index_none hi _ hm
    case some i =>
      cases isNamed_getElem_iff hi hj |>.mp h
      exact ⟨_, ⟨j, rfl, List.getElem?_eq_getElem hj⟩, rfl⟩

@[simp]
theorem value_update_self {value : String} : (hs.update name value).value name = some value := by
  rw [value_eq_some_iff]
  exact ⟨_, mem_update_iff.mpr <| .inl rfl, HTTPHeader.isNamed_iff.mpr rfl, rfl⟩

theorem value_update_of_ne {value : String} (h : lowercased name ≠ lowercased name') :
    (hs.update name value).value name' = hs.value name' := by
  ext v
  simp only [value_eq_some_iff, mem_update_iff, HTTPHeader.isNamed_iff]
  constructor
  case mp =>
    rintro ⟨hd, rfl | ⟨hm, _⟩, hn, hv⟩
    · exact absurd hn h
    · exact ⟨hd, hm, hn, hv⟩
  case mpr =>
    rintro ⟨hd, hm, hn, hv⟩
    exact ⟨hd, .inr ⟨hm, fun hn' => h <| hn'.symm.trans hn⟩, hn, hv⟩

@[simp]
theorem value_remove_self : (hs.remove name).value name = none := by
  rw [Option.eq_none_iff_forall_ne_some]
  intro v h
  have ⟨hd, hm, hn, _⟩ := value_eq_some_iff.mp h
  exact mem_remove_iff.mp hm |>.right hn

@[simp]
theorem value_empty : empty.value name = none :=
  rfl

theorem mem_foldl_update_iff {base : HTTPHeaders} {l : List HTTPHeader} {hd : HTTPHeader}
    (hn : l.map (lowercased ·.name) |>.Nodup) (hb : ∀ hd ∈ l, ∀ hd' ∈ base.headers, ¬hd'.isNamed hd.name) :
    hd ∈ (l.foldl (fun hs hd => hs.update hd.name hd.value) base).headers ↔
    hd ∈ base.headers ∨ hd ∈ l := by
  induction l generalizing base
  case nil => simp
  case cons x l hi =>
    have ⟨hx, hn⟩ := List.nodup_cons.mp hn
    rw [List.foldl_cons, hi hn, mem_update_iff, List.mem_cons]
    · have := hb x List.mem_cons_self hd
      tauto
    · intro y hy hd' hm hd_named
      rcases mem_update_iff.mp hm with rfl | ⟨hm, _⟩
      · exact hx <| List.mem_map.mpr ⟨y, hy, HTTPHeader.isNamed_iff.mp hd_named |>.symm⟩
      · exact hb y (List.mem_cons_of_mem _ hy) hd' hm hd_named

theorem value_ofDictionary_dictionary : (ofDictionary hs.dictionary).value name = hs.value name := by
  have h {hd} := @mem_foldl_update_iff empty hs.headers hd hs.nodup <| by
    intro _ _ _ h
    exact absurd h List.not_mem_nil
  ext v
  simp only [value_eq_some_iff, ofDictionary, dictionary, List.foldl_map, h]
  simp [empty]

end HTTPHeaders
end Http

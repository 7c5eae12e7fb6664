import SwiftProjectKit.Primitives.Pairs
import SwiftProjectKit.Http.Theorems.Sign

namespace Http

structure StringParameters where
  entries : List (String × String)
  nodup   : entries.map Prod.fst |>.Nodup

namespace StringParameters

variable {α : Type} {d d₁ d₂ : StringParameters} {key value : String}

def parameters (d : StringParameters) : Parameters α where
  entries := d.entries.map fun entry => (entry.fst, .string entry.snd)
  nodup   := by simpa [List.map_map, Function.comp_def] using d.nodup

def bindings (d : StringParameters) : List (String × String) :=
  d.entries.filter (!·.snd.isEmpty)

def SameBindings (d₁ d₂ : StringParameters) : Prop :=
  ∀ entry, entry ∈ d₁.bindings ↔ entry ∈ d₂.bindings

def sorted (d : StringParameters) : List (String × String) :=
  d.entries.insertionSort (fun e₁ e₂ => e₁.fst ≤ e₂.fst) |>.filter (!·.snd.isEmpty)

theorem sorted_perm : d.sorted.Perm d.bindings :=
  List.perm_insertionSort _ _ |>.filter _

theorem bindings_nodup : d.bindings.Nodup :=
  d.nodup.of_map.filter _

theorem sorted_pairwise : d.sorted.Pairwise fun e₁ e₂ => e₁.fst < e₂.fst := by
  let entries := d.entries.insertionSort fun e₁ e₂ => e₁.fst ≤ e₂.fst
  have hs : entries.map Prod.fst = (d.entries.map Prod.fst).insertionSort (· ≤ ·) :=
    List.map_insertionSort _ _ Prod.fst d.entries fun _ _ _ _ => Iff.rfl
  have hl : (entries.map Prod.fst).Pairwise (· ≤ ·) := hs ▸ List.pairwise_insertionSort _ _
  have hn : (entries.map Prod.fst).Nodup :=
    List.perm_insertionSort _ _ |>.map Prod.fst |>.nodup_iff.mpr d.nodup
  exact List.pairwise_map.mp (hl.imp₂ (fun _ _ => lt_of_le_of_ne) hn) |>.filter _

theorem SameBindings.sorted_eq (h : SameBindings d₁ d₂) : d₁.sorted = d₂.sorted := by
  have hp : d₁.bindings.Perm d₂.bindings :=
    List.perm_ext_iff_of_nodup bindings_nodup bindings_nodup |>.mpr h
  have hp : d₁.sorted.Perm d₂.sorted := sorted_perm.trans <| hp.trans sorted_perm.symm
  exact hp.eq_of_pairwise (fun _ _ _ _ h₁ h₂ => absurd h₁ h₂.asymm) sorted_pairwise sorted_pairwise

theorem sameBindings_of_sorted_eq (h : d₁.sorted = d₂.sorted) : SameBindings d₁ d₂ := by
  intro entry
  rw [← sorted_perm.mem_iff, h, sorted_perm.mem_iff]

variable [ToString α]

def words (entry : String × String) : List Char × List Char :=
  (entry.fst.toList, entry.snd.toList)

theorem parametersString_eq : HttpRequestUntil.parametersString (d.parameters : Parameters α) =
    String.ofList (Pairs.joined '=' '&' <| d.sorted.map words) := by
  let f (entry : String × String) : String × AnyValue α := (entry.fst, .string entry.snd)
  have hs : (d.parameters : Parameters α).sorted.filter Parameters.isSigned = d.sorted.map f := by
    have hm := List.map_insertionSort (fun e₁ e₂ : String × String => e₁.fst ≤ e₂.fst)
      (fun e₁ e₂ : String × AnyValue α => e₁.fst ≤ e₂.fst) f d.entries fun _ _ _ _ => Iff.rfl
    rw [Parameters.sorted, parameters, ← hm, List.filter_map]
    rfl
  rw [HttpRequestUntil.parametersString_eq_canonical, Parameters.canonical, hs, Parameters.joined]
  rw [← String.toList_inj, String.toList_intercalate, List.map_map, List.map_map, Pairs.joined, List.map_map]
  refine Eq.trans ?_ String.toList_ofList.symm
  congr 2
  funext entry
  simp [f, Parameters.pair, Pairs.pair, words, AnyValue.description]

-- Two strings that are signed can be told apart by reading them from left to right, or both from right to left.
def Readable (d₁ d₂ : StringParameters) : Prop :=
  (∀ entry ∈ d₁.bindings ++ d₂.bindings, '=' ∉ entry.fst.toList ∧ '&' ∉ entry.snd.toList) ∨
  (∀ entry ∈ d₁.bindings ++ d₂.bindings, '&' ∉ entry.fst.toList ∧ '=' ∉ entry.snd.toList)

instance : Decidable (Readable d₁ d₂) :=
  inferInstanceAs <| Decidable (_ ∨ _)

theorem words_injective : Function.Injective words := fun _ _ h =>
  have ⟨hf, hs⟩ := Prod.mk.inj h
  Prod.ext (String.toList_inj.mp hf) (String.toList_inj.mp hs)

theorem Readable.words_inj (h : Readable d₁ d₂)
    (hj : Pairs.joined '=' '&' (d₁.sorted.map words) = Pairs.joined '=' '&' (d₂.sorted.map words)) :
    d₁.sorted.map words = d₂.sorted.map words := by
  have hl {entry} (he : entry ∈ d₁.sorted) : entry ∈ d₁.bindings ++ d₂.bindings :=
    List.mem_append_left _ <| sorted_perm.mem_iff.mp he
  have hr {entry} (he : entry ∈ d₂.sorted) : entry ∈ d₁.bindings ++ d₂.bindings :=
    List.mem_append_right _ <| sorted_perm.mem_iff.mp he
  cases h
  case inl h =>
    apply Pairs.joined_injective (h := hj)
    · exact List.forall_mem_map.mpr fun entry he => h entry <| hl he
    · exact List.forall_mem_map.mpr fun entry he => h entry <| hr he
  case inr h =>
    apply Pairs.joined_injective_of_reversed (h := hj)
    all_goals simp only [List.forall_mem_map, Pairs.IsReadable, Pairs.reversed, List.mem_reverse]
    · exact fun entry he => (h entry <| hl he).symm
    · exact fun entry he => (h entry <| hr he).symm

theorem parametersString_identifies :
    (SameBindings d₁ d₂ → HttpRequestUntil.parametersString (d₁.parameters : Parameters α) =
      HttpRequestUntil.parametersString (d₂.parameters : Parameters α)) ∧
    (Readable d₁ d₂ → HttpRequestUntil.parametersString (d₁.parameters : Parameters α) =
      HttpRequestUntil.parametersString (d₂.parameters : Parameters α) → SameBindings d₁ d₂) := by
  rw [parametersString_eq, parametersString_eq]
  constructor
  case left => exact fun h => by rw [h.sorted_eq]
  case right =>
    intro hr h
    have h := hr.words_inj <| String.ofList_injective h
    exact sameBindings_of_sorted_eq <| List.map_injective_iff.mpr words_injective h

end StringParameters

namespace Sample

def single : StringParameters where
  entries := [("a", "1&b=2")]
  nodup   := by decide

def double : StringParameters where
  entries := [("b", "2"), ("c", ""), ("a", "1")]
  nodup   := by decide

def ordered : StringParameters where
  entries := [("a", "1"), ("b", "2")]
  nodup   := by decide

end Sample

namespace StringParameters

theorem sample_identifies :
    HttpRequestUntil.parametersString (Sample.double.parameters : Parameters Nat) =
      HttpRequestUntil.parametersString (Sample.ordered.parameters : Parameters Nat) ∧
    SameBindings Sample.double Sample.ordered :=
  have h : HttpRequestUntil.parametersString (Sample.double.parameters : Parameters Nat) =
      HttpRequestUntil.parametersString (Sample.ordered.parameters : Parameters Nat) := by decide
  ⟨h, parametersString_identifies.right (by decide) h⟩

theorem parametersString_collides :
    HttpRequestUntil.parametersString (Sample.single.parameters : Parameters Nat) =
      HttpRequestUntil.parametersString (Sample.double.parameters : Parameters Nat) ∧
    ¬SameBindings Sample.single Sample.double :=
  ⟨by decide, fun h => absurd (h ("b", "2")) (by decide)⟩

end StringParameters
end Http

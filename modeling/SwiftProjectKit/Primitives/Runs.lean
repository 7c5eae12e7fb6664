import Mathlib.Data.List.SplitBy

-- Maximal runs of consecutive elements of a list that have the same key.
namespace Runs

variable {α κ : Type*}

-- The `count` keys from index `start` on are `c`, and those next to them are not.
structure IsRun (keys : List κ) (c : κ) (start count : Nat) : Prop where
  inside : ∀ k < count, keys[start + k]? = some c
  left   : ∀ i, i + 1 = start → keys[i]? ≠ some c
  right  : keys[start + count]? ≠ some c

variable [DecidableEq κ]

-- The position of each key in its run, where the keys that come before the list end in a run of `n`
-- times the key `prev`.
def ranksFrom (prev : Option κ) (n : Nat) : List κ → List Nat
  | []      => []
  | c :: cs => if prev = some c then n :: ranksFrom prev (n + 1) cs else 0 :: ranksFrom (some c) 1 cs

def ranks (keys : List κ) : List Nat :=
  ranksFrom none 0 keys

variable {key : α → κ} {keys : List κ} {prev : Option κ} {c : κ} {start count n k : Nat}

@[simp]
theorem ranksFrom_length : (ranksFrom prev n keys).length = keys.length := by
  induction keys generalizing prev n
  case nil => rfl
  case cons c cs hi => by_cases h : prev = some c <;> simp [ranksFrom, h, hi]

@[simp]
theorem ranks_length : (ranks keys).length = keys.length :=
  ranksFrom_length

theorem ranksFrom_take : (ranksFrom prev n keys).take k = ranksFrom prev n (keys.take k) := by
  induction keys generalizing prev n k
  case nil => simp [ranksFrom]
  case cons c cs hi =>
    cases k
    case zero => rfl
    case succ k => by_cases h : prev = some c <;> simp [ranksFrom, h, hi]

theorem ranks_take : (ranks keys).take k = ranks (keys.take k) :=
  ranksFrom_take

theorem ranksFrom_continue (h : ∀ j ≤ k, keys[j]? = some c) :
    (ranksFrom (some c) n keys)[k]? = some (n + k) := by
  induction k generalizing keys n
  case zero =>
    cases keys
    case nil => simpa using h 0
    case cons =>
      cases Option.some.inj <| h 0 (Nat.zero_le _)
      simp [ranksFrom]
  case succ k hi =>
    cases keys
    case nil => simpa using h 0
    case cons c' cs =>
      cases Option.some.inj <| h 0 (Nat.zero_le _)
      have hj : ∀ j ≤ k, cs[j]? = some c := fun j hj => by simpa using h (j + 1) (by omega)
      simp only [ranksFrom, if_true, List.getElem?_cons_succ, hi hj]
      congr 1
      omega

theorem ranksFrom_start (hp : prev ≠ some c) (h : ∀ j ≤ k, keys[j]? = some c) :
    (ranksFrom prev n keys)[k]? = some k := by
  cases keys
  case nil => simpa using h 0
  case cons c' cs =>
    cases Option.some.inj <| h 0 (Nat.zero_le _)
    cases k
    case zero => simp [ranksFrom, hp]
    case succ k =>
      have hj : ∀ j ≤ k, cs[j]? = some c := fun j hj => by simpa using h (j + 1) (by omega)
      simp [ranksFrom, hp, ranksFrom_continue hj, Nat.add_comm]

theorem ranksFrom_of_left (hp : start = 0 → prev ≠ some c) (hl : ∀ i, i + 1 = start → keys[i]? ≠ some c)
    (h : ∀ j ≤ k, keys[start + j]? = some c) : (ranksFrom prev n keys)[start + k]? = some k := by
  induction start generalizing keys prev n
  case zero =>
    simp only [Nat.zero_add] at h ⊢
    exact ranksFrom_start (hp rfl) h
  case succ start hi =>
    cases keys
    case nil => simpa using h 0
    case cons c' cs =>
      have hj : ∀ j ≤ k, cs[start + j]? = some c := fun j hj => by
        simpa [Nat.add_right_comm] using h j hj
      have hl' : ∀ i, i + 1 = start → cs[i]? ≠ some c := fun i hi => by
        simpa using hl (i + 1) (by omega)
      -- The head of the list is what precedes the run if the run starts right after it.
      have hp' : start = 0 → some c' ≠ some c := fun hs => by simpa using hl 0 (by omega)
      have hk : start + 1 + k = start + k + 1 := by omega
      by_cases hc : prev = some c'
      case pos =>
        simp only [ranksFrom, hc, if_true, hk, List.getElem?_cons_succ]
        exact hi hp' hl' hj
      case neg =>
        simp only [ranksFrom, hc, if_false, hk, List.getElem?_cons_succ]
        exact hi hp' hl' hj

theorem IsRun.getElem?_ranks (h : IsRun keys c start count) (hk : k < count) :
    (ranks keys)[start + k]? = some k :=
  ranksFrom_of_left (fun _ => nofun) h.left fun j hj => h.inside j <| by omega

-- Numbering the elements of each run is the same as pairing each element with its rank.
theorem flatMap_zipIdx_loop (l : List α) (a : α) (g : List α) (gs : List (List α)) :
    (List.splitBy.loop (fun a b => key b == key a) l a g gs).flatMap (·.zipIdx) =
      gs.reverse.flatMap (·.zipIdx) ++ (a :: g).reverse.zipIdx ++
        l.zip (ranksFrom (some <| key a) (g.length + 1) (l.map key)) := by
  induction l generalizing a g gs
  case nil => simp [List.splitBy.loop]
  case cons b l hi =>
    by_cases h : key a = key b
    case pos => simp [List.splitBy.loop, h, hi, ranksFrom, List.zipIdx_append]
    case neg =>
      have hb : (key b == key a) = false := by simpa using Ne.symm h
      simp [List.splitBy.loop, h, hb, hi, ranksFrom]

theorem flatMap_zipIdx_splitBy (l : List α) :
    (l.splitBy fun a b => key b == key a).flatMap (·.zipIdx) = l.zip (ranks <| l.map key) := by
  cases l
  case nil => rfl
  case cons a l => simp [List.splitBy, flatMap_zipIdx_loop, ranks, ranksFrom]

end Runs

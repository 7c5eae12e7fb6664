import Mathlib.Data.Rat.Floor
import Mathlib.Tactic.Linarith
import Mathlib.Tactic.NormNum
import Mathlib.Tactic.Ring
import SwiftProjectKit.RichText.PickerCollectionView

namespace RichText
namespace RZPickerCollectionView

variable {K : Type*} [Field K] [LinearOrder K] {direction : ScrollDirection}
variable {s s' : RZPickerCollectionView K direction} {e : Event K direction} {es es' : List (Event K direction)}
variable {contentOffset : CGPoint K} {row : Int} {animated : Bool}

def Centered (s : RZPickerCollectionView K direction) : Prop :=
  ∀ row ∈ s.centerRow, s.selectedRow = row

-- The selected row is in the center, or the wheel is about to be scrolled to it if it exists.
def Settles (s : RZPickerCollectionView K direction) : Prop :=
  s.canSelect → s.Centered ∨ s.mainQueue.getLast?.map Prod.fst = some s.selectedRow ∨
    (s.mainQueue = [] ∧ ∀ contentOffset ∈ s.target s.selectedRow, s.animation = some contentOffset)

theorem centered_of_target (h : s.target s.selectedRow = some s.contentOffset) : s.Centered := by
  intro row hr
  have ⟨frame, hf, ho⟩ := Option.map_eq_some_iff.mp h
  have hc := s.collectionView.indexPathForItem_center _ frame hf
  rw [centerRow] at hr
  rw [ho, hr] at hc
  exact (Option.some.inj hc).symm

theorem scrollViewDidScroll_cases (s : RZPickerCollectionView K direction) :
    (s.scrollViewDidScroll = s ∧ (s.canSelect → s.Centered)) ∨
    ∃ row : Nat, s.centerRow = some row ∧ s.selectedRow ≠ row ∧ s.scrollViewDidScroll = { s with
      selectedRow       := row
      selectedItemCalls := s.selectedItemCalls ++ [row] } := by
  rw [scrollViewDidScroll]
  split
  case isFalse h => exact .inl ⟨rfl, fun hc => absurd hc h⟩
  case isTrue h =>
    cases hc : s.centerRow
    case none => exact .inl ⟨rfl, fun _ row hr => nomatch hc ▸ hr⟩
    case some row =>
      by_cases hr : (row : Int) = s.selectedRow
      case pos => exact .inl ⟨if_pos hr, fun _ row' hr' => by cases hc ▸ hr'; exact hr.symm⟩
      case neg => exact .inr ⟨row, rfl, Ne.symm hr, if_neg hr⟩

theorem setContentOffset_settles (h : contentOffset = s.contentOffset → s.Settles) :
    (s.setContentOffset contentOffset).Settles := by
  rw [setContentOffset]
  split
  case isTrue he => exact h he
  case isFalse   =>
    rcases scrollViewDidScroll_cases { s with contentOffset } with ⟨hs, hc⟩ | ⟨row, hr, _, hs⟩
    · exact hs.symm ▸ fun h => .inl <| hc h
    · rw [hs]
      exact fun _ => .inl fun row' hr' => congrArg Nat.cast <| Option.some.inj <| hr.symm.trans hr'

theorem selecteRow_settles : (s.selecteRow row animated).Settles :=
  fun _ => .inr <| .inl <| by simp [selecteRow]

theorem Settles.dequeue {others : List (Int × Bool)} (h : s.Settles) (hq : s.mainQueue = (row, animated) :: others)
    (hc : s.canSelect) : s.Centered ∨ others.getLast?.map Prod.fst = some s.selectedRow ∨
      (others = [] ∧ row = s.selectedRow) := by
  rcases h hc with hc | hl | ⟨hn, _⟩
  · exact .inl hc
  · cases others
    case nil  => exact .inr <| .inr ⟨rfl, by simpa [hq] using hl⟩
    case cons => exact .inr <| .inl <| by simpa [hq] using hl
  · nomatch hq ▸ hn

theorem Settles.scrollToRow {others : List (Int × Bool)} (h : s.Settles)
    (hq : s.mainQueue = (row, animated) :: others) :
    ({ s with mainQueue := others }.scrollToRow row animated).Settles := by
  rw [RZPickerCollectionView.scrollToRow]
  cases ht : s.target row
  case none =>
    have ht : target { s with mainQueue := others } row = none := ht
    rw [ht]
    intro hc
    rcases h.dequeue hq hc with hc | hl | ⟨hn, rfl⟩
    · exact .inl hc
    · exact .inr <| .inl hl
    · exact .inr <| .inr ⟨hn, fun _ ht' => nomatch ht ▸ ht'⟩
  case some o =>
    have ht : target { s with mainQueue := others } row = some o := ht
    rw [ht]
    cases animated
    case true =>
      intro hc
      rcases h.dequeue hq hc with hc | hl | ⟨hn, rfl⟩
      · exact .inl hc
      · exact .inr <| .inl hl
      · exact .inr <| .inr ⟨hn, fun _ ht' => ht.symm.trans ht'⟩
    case false =>
      refine setContentOffset_settles fun ho hc => ?_
      rcases h.dequeue hq hc with hc | hl | ⟨_, rfl⟩
      · exact .inl hc
      · exact .inr <| .inl hl
      · exact .inl <| centered_of_target <| ht.trans <| congrArg some ho

theorem Settles.endAnimation (h : s.Settles) (ha : s.animation = some contentOffset) :
    ({ s with animation := none }.setContentOffset contentOffset).Settles := by
  refine setContentOffset_settles fun ho hc => ?_
  rcases h hc with hc | hl | ⟨hn, ht⟩
  · exact .inl hc
  · exact .inr <| .inl hl
  · cases ht' : s.target s.selectedRow
    case none => exact .inr <| .inr ⟨hn, fun _ ht'' => nomatch ht' ▸ ht''⟩
    case some o =>
      have he : o = s.contentOffset := Option.some.inj <| (ht o ht').symm.trans <| ha.trans <| congrArg some ho
      exact .inl <| centered_of_target <| ht'.trans <| congrArg some he

theorem step_settles (h : s.Settles) (hs : s.step e = some s') : s'.Settles := by
  cases e
  case selecteRow => exact Option.some.inj hs ▸ selecteRow_settles
  case didSelectItem =>
    have ⟨_, hs⟩ := Option.ite_none_right_eq_some.mp hs
    exact Option.some.inj hs ▸ selecteRow_settles
  case runMainQueue =>
    cases hq : s.mainQueue <;> simp only [step, hq, reduceCtorEq] at hs
    exact Option.some.inj hs ▸ h.scrollToRow hq
  case drag =>
    have ⟨hn, hs⟩ := Option.ite_none_left_eq_some.mp hs
    exact Option.some.inj hs ▸ setContentOffset_settles fun ho => absurd ho hn
  case animate =>
    have ⟨_, hs⟩ := Option.ite_none_right_eq_some.mp hs
    exact Option.some.inj hs ▸ setContentOffset_settles fun _ => h
  case endAnimation =>
    have ⟨_, ha, hs⟩ := Option.map_eq_some_iff.mp hs
    exact hs ▸ h.endAnimation ha
  case layoutSubviews => exact Option.some.inj hs ▸ nofun
  case animatedFinish =>
    have ⟨_, hs⟩ := Option.ite_none_right_eq_some.mp hs
    exact Option.some.inj hs ▸ selecteRow_settles

-- Once a wheel has come to rest, the item in its center is the selected one, unless what was selected last is
-- no row of the wheel.
theorem exec_centered {collectionView : UICollectionView K direction}
    (h : exec { collectionView, contentOffset } es = some s) (hc : s.canSelect) (hq : s.mainQueue = [])
    (ha : s.animation = none) {row : Nat} (hr : s.centerRow = some row) :
    s.selectedRow = row ∨ s.target s.selectedRow = none := by
  have h₀ : Settles { collectionView, contentOffset } := nofun
  have hs : s.Settles := Run.invariant' step_settles h₀ h
  rcases hs hc with hs | hl | ⟨_, ht⟩
  · exact .inl <| hs row hr
  · simp [hq] at hl
  · refine .inr <| Option.eq_none_iff_forall_not_mem.mpr fun o ho => ?_
    nomatch ha ▸ ht o ho

def sampleCollectionView : UICollectionView Rat .horizontal where
  size                        := ⟨100, 40⟩
  layoutAttributesForItem row := if 0 ≤ row ∧ row < 3 then some ⟨⟨40 * row, 0⟩, ⟨40, 40⟩⟩ else none
  indexPathForItem point      := if 0 ≤ point.x ∧ point.x < 120 then some ⌊point.x / 40⌋.toNat else none
  indexPathForItem_center     := by
    intro row frame h
    have ⟨⟨h₀, h₃⟩, h⟩ := Option.ite_none_right_eq_some.mp h
    cases Option.some.inj h
    have hx : (40 * row - (100 / (2 : Nat) - 40 / (2 : Nat)) + 100 / (2 : Nat) : Rat) = 40 * row + 20 := by
      norm_num
      ring
    have h₀' : (0 : Rat) ≤ row := Int.cast_nonneg h₀
    have h₃' : (row : Rat) ≤ 2 := by exact_mod_cast Int.le_of_lt_add_one h₃
    have hf : ⌊(40 * row + 20 : Rat) / 40⌋ = row := by
      rw [Int.floor_eq_iff]
      constructor <;> linarith
    simp only [ScrollDirection.center, ScrollDirection.offset, hx, hf]
    rw [if_pos ⟨by linarith, by linarith⟩]
    simp [h₀]

def sampleRun : List (Event Rat .horizontal) :=
  [.selecteRow 1 false, .layoutSubviews sampleCollectionView ⟨-50, 0⟩, .runMainQueue, .animatedFinish, .runMainQueue,
    .didSelectItem 2, .runMainQueue, .animate ⟨15, 0⟩, .endAnimation]

theorem exec_centered_sample : ∃ s, exec { collectionView := sampleCollectionView, contentOffset := ⟨0, 0⟩ }
    sampleRun = some s ∧ s.selectedItemCalls = [1, 2] ∧ (s.selectedRow = 2 ∨ s.target s.selectedRow = none) := by
  have he : (exec { collectionView := sampleCollectionView, contentOffset := ⟨0, 0⟩ } sampleRun).map
      (fun s => (s.canSelect && s.mainQueue.isEmpty && s.animation.isNone, s.centerRow, s.selectedItemCalls)) =
      some (true, some 2, [1, 2]) := by
    decide +kernel
  have ⟨s, hs, h⟩ := Option.map_eq_some_iff.mp he
  have ⟨hc, hq, ha, hr, hi⟩ : s.canSelect ∧ s.mainQueue = [] ∧ s.animation = none ∧ s.centerRow = some 2 ∧
    s.selectedItemCalls = [1, 2] := by simpa [and_assoc] using h
  exact ⟨s, hs, hi, exec_centered hs hc hq ha hr⟩

def Event.selects : Event K direction → Bool
  | .selecteRow _ _ | .didSelectItem _ => true
  | _                                  => false

theorem setContentOffset_reported : ((s.setContentOffset contentOffset).selectedRow = s.selectedRow ∧
      (s.setContentOffset contentOffset).selectedItemCalls = s.selectedItemCalls) ∨
    ∃ row : Nat, s.selectedRow ≠ row ∧ (s.setContentOffset contentOffset).selectedRow = row ∧
      (s.setContentOffset contentOffset).selectedItemCalls = s.selectedItemCalls ++ [row] := by
  rw [setContentOffset]
  split
  case isTrue  => exact .inl ⟨rfl, rfl⟩
  case isFalse =>
    rcases scrollViewDidScroll_cases { s with contentOffset } with ⟨hs, _⟩ | ⟨row, _, hn, hs⟩
    · exact .inl ⟨hs.symm ▸ rfl, hs.symm ▸ rfl⟩
    · exact .inr ⟨row, hn, congrArg selectedRow hs, congrArg selectedItemCalls hs⟩

theorem scrollToRow_reported : ((s.scrollToRow row animated).selectedRow = s.selectedRow ∧
      (s.scrollToRow row animated).selectedItemCalls = s.selectedItemCalls) ∨
    ∃ row' : Nat, s.selectedRow ≠ row' ∧ (s.scrollToRow row animated).selectedRow = row' ∧
      (s.scrollToRow row animated).selectedItemCalls = s.selectedItemCalls ++ [row'] := by
  rw [scrollToRow]
  cases s.target row
  case none => exact .inl ⟨rfl, rfl⟩
  case some =>
    cases animated
    case true  => exact .inl ⟨rfl, rfl⟩
    case false => exact setContentOffset_reported (s := { s with animation := none })

theorem step_reported (he : e.selects = false) (hs : s.step e = some s') :
    (s'.selectedRow = s.selectedRow ∧ s'.selectedItemCalls = s.selectedItemCalls) ∨
    ∃ row : Nat, s.selectedRow ≠ row ∧ s'.selectedRow = row ∧
      s'.selectedItemCalls = s.selectedItemCalls ++ [row] := by
  cases e
  case selecteRow    => nomatch he
  case didSelectItem => nomatch he
  case runMainQueue =>
    cases hq : s.mainQueue <;> simp only [step, hq, reduceCtorEq] at hs
    exact Option.some.inj hs ▸ scrollToRow_reported (s := { s with mainQueue := _ })
  case drag =>
    have ⟨_, hs⟩ := Option.ite_none_left_eq_some.mp hs
    exact Option.some.inj hs ▸ setContentOffset_reported (s := { s with animation := none })
  case animate =>
    have ⟨_, hs⟩ := Option.ite_none_right_eq_some.mp hs
    exact Option.some.inj hs ▸ setContentOffset_reported
  case endAnimation =>
    have ⟨_, _, hs⟩ := Option.map_eq_some_iff.mp hs
    exact hs ▸ setContentOffset_reported (s := { s with animation := none })
  case layoutSubviews => exact .inl <| Option.some.inj hs ▸ ⟨rfl, rfl⟩
  case animatedFinish =>
    have ⟨_, hs⟩ := Option.ite_none_right_eq_some.mp hs
    exact .inl <| Option.some.inj hs ▸ ⟨rfl, rfl⟩

-- As long as no row is selected by a tap or by its owner, a wheel reports the changes of its selected row: each
-- report differs from what was selected before, and the last one is what is selected.
theorem exec_reports (he : ∀ e ∈ es, e.selects = false) (h : exec s es = some s') :
    ∃ rows : List Nat, s'.selectedItemCalls = s.selectedItemCalls ++ rows ∧
      (s.selectedRow :: rows.map Nat.cast).IsChain (· ≠ ·) ∧
      (s.selectedRow :: rows.map Nat.cast).getLast? = some s'.selectedRow := by
  induction es generalizing s
  case nil => exact ⟨[], by simp [Option.some.inj h]⟩
  case cons e es hi =>
    have ⟨he, hes⟩ := List.forall_mem_cons.mp he
    have ⟨s₁, hs, h⟩ := Run.exec_cons_eq_some.mp h
    have ⟨rows, hc, hn, hl⟩ := hi hes h
    rcases step_reported he hs with ⟨hr, hc₁⟩ | ⟨row, hd, hr, hc₁⟩
    · exact ⟨rows, hc₁ ▸ hc, hr ▸ hn, hr ▸ hl⟩
    · refine ⟨row :: rows, by simp [hc, hc₁], List.isChain_cons_cons.mpr ⟨hd, hr ▸ hn⟩, ?_⟩
      rw [List.map_cons, List.getLast?_cons_cons, ← hr, hl]

def dragRun : List (Event Rat .horizontal) :=
  [.layoutSubviews sampleCollectionView ⟨-50, 0⟩, .animatedFinish, .drag ⟨-30, 0⟩, .drag ⟨10, 0⟩]

theorem exec_reports_dragRun : ∃ s', exec { collectionView := sampleCollectionView, contentOffset := ⟨0, 0⟩ } dragRun =
    some s' ∧ s'.selectedRow = 1 ∧ ∃ rows : List Nat, s'.selectedItemCalls = rows ∧
      (-1 :: rows.map Nat.cast).getLast? = some s'.selectedRow := by
  have he : (exec { collectionView := sampleCollectionView, contentOffset := ⟨0, 0⟩ } dragRun).map selectedRow =
      some 1 := by
    decide +kernel
  have ⟨s', hs, hr⟩ := Option.map_eq_some_iff.mp he
  have ⟨rows, hc, _, hl⟩ := exec_reports (by simp [dragRun, Event.selects]) hs
  exact ⟨s', hs, hr, rows, hc, hl⟩

end RZPickerCollectionView
end RichText

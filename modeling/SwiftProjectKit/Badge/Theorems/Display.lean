import Mathlib.Data.List.Induction
import SwiftProjectKit.Badge.Model

namespace Badge

def Event.assigned : Event → Option (Option String)
  | setBadgeValue newValue => some newValue
  | completion             => none

def lastValue (es : List Event) : Option String :=
  es.filterMap Event.assigned |>.getLast?.join

def recent (es : List Event) : List (Option String) :=
  es.foldl (fun values e => match e with
    | .setBadgeValue newValue => values ++ [newValue]
    | .completion             => []) []

def IsShown (badgeValue : Option String) : Prop :=
  badgeValue ≠ none ∧ badgeValue ≠ some "" ∧ badgeValue ≠ some "0"

instance {badgeValue : Option String} : Decidable (IsShown badgeValue) :=
  inferInstanceAs <| Decidable (_ ∧ _ ∧ _)

def display (badgeValue : Option String) : Option (Option String) :=
  if IsShown badgeValue then some (badgeText badgeValue) else none

namespace State

structure Displays (s : State) (badgeValue : Option String) : Prop where
  button : badge s.button.badgeLabel = display badgeValue
  item   : badge s.item.badgeLabel = display badgeValue

-- A value that is to be shown is assigned after the last completion, and where none is to be shown,
-- nothing but empty values are assigned since then.
def Settles (es : List Event) : Prop :=
  if IsShown (lastValue es) then recent es ≠ [] else ∀ value ∈ recent es, value = none ∨ value = some ""

end State

variable {s s' : State} {e : Event} {es : List Event} {values : List (Option String)}
  {newValue badgeValue : Option String}

@[simp]
theorem lastValue_assigned : lastValue (es ++ [.setBadgeValue newValue]) = newValue := by
  simp [lastValue, Event.assigned]

@[simp]
theorem lastValue_completion : lastValue (es ++ [.completion]) = lastValue es := by
  simp [lastValue, Event.assigned]

@[simp]
theorem recent_assigned : recent (es ++ [.setBadgeValue newValue]) = recent es ++ [newValue] := by
  simp [recent]

@[simp]
theorem recent_completion : recent (es ++ [.completion]) = [] := by
  simp [recent]

theorem getLast?_recent (h : recent es ≠ []) : (recent es).getLast? = some (lastValue es) := by
  induction es using List.reverseRecOn
  case nil => contradiction
  case append_singleton es e _ =>
    cases e
    case setBadgeValue => simp
    case completion    => simp at h

def labelText (values : List (Option String)) : Option (Option String) :=
  values.filter (fun value => !(value.getD "").isEmpty) |>.getLast?.map badgeText

theorem labelText_append_of_isEmpty (h : (newValue.getD "").isEmpty) :
    labelText (values ++ [newValue]) = labelText values := by
  simp [labelText, h]

theorem labelText_append_of_not_isEmpty (h : (newValue.getD "").isEmpty = false) :
    labelText (values ++ [newValue]) = some (badgeText newValue) := by
  simp [labelText, h]

theorem labelText_eq_none_iff :
    labelText values = none ↔ ∀ value ∈ values, value = none ∨ value = some "" := by
  simp only [labelText, Option.map_eq_none_iff, List.getLast?_eq_none_iff, List.filter_eq_nil_iff]
  refine forall₂_congr fun value _ => ?_
  cases value <;> simp

theorem labelText_of_isShown (h : IsShown badgeValue) (hl : values.getLast? = some badgeValue) :
    labelText values = some (badgeText badgeValue) := by
  have ⟨values, hv⟩ := List.getLast?_eq_some_iff.mp hl
  have ⟨hn, he, _⟩ := h
  rw [hv, labelText_append_of_not_isEmpty]
  cases badgeValue
  case none => contradiction
  case some => simpa using he

structure UIButton.HasLabel (b : UIButton) (values : List (Option String)) : Prop where
  text    : b.badgeLabel.map (·.text) = labelText values
  visible : ∀ label ∈ b.badgeLabel, label.isHidden = false

theorem UIButton.HasLabel.badge_eq {b : UIButton} (h : b.HasLabel values) :
    badge b.badgeLabel = labelText values := by
  have ⟨ht, hv⟩ := h
  cases hl : b.badgeLabel
  case none       => simpa [hl, badge] using ht
  case some label => simpa [hl, badge, hv label hl] using ht

theorem UIButton.setBadgeValue_of_ne {b : UIButton} {value : String} (h : value ≠ "") :
    b.setBadgeValue (some value) = some { b with
      badgeValue := some value
      badgeLabel := some { b.badgeLabel.getD {} with text := badgeText (some value) } } := by
  have hn : value.isEmpty = false := by simpa using h
  have hb : (value == "") = false := by simpa using h
  cases hl : b.badgeLabel
  all_goals simp [setBadgeValue, hn, hb, hl, updateBadgeValue]

theorem UIButton.setBadgeValue_hasLabel {b b' : UIButton} (hb : b.HasLabel values)
    (h : b.setBadgeValue newValue = some b') : b'.HasLabel (values ++ [newValue]) := by
  have ⟨ht, hv⟩ := hb
  cases newValue
  case none =>
    cases Option.some.inj h
    exact ⟨by rwa [labelText_append_of_isEmpty rfl], hv⟩
  case some value =>
    by_cases he : value = ""
    case pos =>
      subst he
      cases Option.some.inj h
      exact ⟨by rwa [labelText_append_of_isEmpty rfl], hv⟩
    case neg =>
      have hs := setBadgeValue_of_ne (b := b) he
      cases Option.some.inj <| hs.symm.trans h
      refine ⟨?_, fun label hl => ?_⟩
      · rw [labelText_append_of_not_isEmpty (by simpa using he)]
        rfl
      · cases Option.some.inj hl
        cases hl : b.badgeLabel
        case none => rfl
        case some label => exact hv label hl

namespace UIBarButtonItem

variable {b : UIBarButtonItem} {l : UILabel}

theorem badge_refresh (h : b.shouldHideBadgeAtZero) : badge (some <| b.refresh l) = display b.badgeValue := by
  have hn : (b.badgeValue == none || b.badgeValue == some "" ||
      b.badgeValue == some "0" && b.shouldHideBadgeAtZero) ↔ ¬IsShown b.badgeValue := by
    simp only [h, Bool.and_true, Bool.or_eq_true, beq_iff_eq, IsShown]
    tauto
  rw [refresh, ite_congr (propext hn) (fun _ => rfl) fun _ => rfl, ite_not, display]
  split <;> rfl

theorem setBadgeValue_spec (h : b.shouldHideBadgeAtZero) (newValue : Option String) :
    badge (b.setBadgeValue newValue).badgeLabel = display newValue ∧
      (b.setBadgeValue newValue).shouldHideBadgeAtZero := by
  cases hl : b.badgeLabel
  case none =>
    simp only [setBadgeValue, updateBadgeValue, refreshBadge, label, hl]
    exact ⟨badge_refresh rfl, trivial⟩
  case some l =>
    simp only [setBadgeValue, updateBadgeValue, refreshBadge, label, hl]
    refine ⟨badge_refresh (b := { b with badgeLabel := _, badgeValue := newValue }) ?_, h⟩
    exact h

end UIBarButtonItem

namespace State

structure Tracks (es : List Event) (s : State) : Prop where
  button : s.button.HasLabel (recent es)
  item   : badge s.item.badgeLabel = display (lastValue es)
  hides  : s.item.shouldHideBadgeAtZero

theorem exec_tracks (h : exec {} es = some s) : Tracks es s := by
  induction es using List.reverseRecOn generalizing s
  case nil =>
    cases Option.some.inj h
    exact ⟨⟨rfl, nofun⟩, rfl, rfl⟩
  case append_singleton es e hi =>
    have ⟨s₁, hs, he⟩ := Option.bind_eq_some_iff.mp <| Run.exec_append.symm.trans h
    rw [Run.exec_singleton] at he
    have ⟨hb, hi, hh⟩ := hi hs
    cases e
    case setBadgeValue newValue =>
      have ⟨_, hn, he⟩ := Option.map_eq_some_iff.mp he
      have ⟨hd, hh⟩ := UIBarButtonItem.setBadgeValue_spec hh newValue
      rw [← he]
      refine ⟨?_, ?_, hh⟩
      · simpa using UIButton.setBadgeValue_hasLabel hb hn
      · simpa using hd
    case completion =>
      simp only [step, Option.ite_none_left_eq_some, Option.some.injEq] at he
      rw [← he.right]
      refine ⟨?_, by simpa using hi, hh⟩
      rw [recent_completion]
      exact ⟨rfl, nofun⟩

-- At any time, and in particular once all removals have ended, both badges display the last value
-- precisely if the assignments and the ends of the removals have come in a suitable order.
theorem displays_iff_settles (h : exec {} es = some s) : Displays s (lastValue es) ↔ Settles es := by
  have ⟨hb, hi, _⟩ := exec_tracks h
  have hd : Displays s (lastValue es) ↔ labelText (recent es) = display (lastValue es) := by
    rw [← hb.badge_eq]
    exact ⟨(·.button), (⟨·, hi⟩)⟩
  rw [hd, Settles, display]
  split
  case isFalse => exact labelText_eq_none_iff
  case isTrue hs =>
    constructor
    case mp =>
      intro hl hn
      simp [hn, labelText] at hl
    case mpr => exact fun hn => labelText_of_isShown hs <| getLast?_recent hn

theorem sample_displays :
    ∃ s, exec {} [.setBadgeValue "120", .setBadgeValue "", .completion] = some s ∧
      s.button.removals = 0 ∧ (Displays s (lastValue [.setBadgeValue "120", .setBadgeValue "", .completion]) ↔
        Settles [.setBadgeValue "120", .setBadgeValue "", .completion]) :=
  ⟨_, rfl, rfl, displays_iff_settles rfl⟩

theorem zero_not_displays : ∃ s, exec {} [.setBadgeValue "0"] = some s ∧ s.button.removals = 0 ∧
    ¬Displays s (lastValue [.setBadgeValue "0"]) :=
  ⟨_, rfl, rfl, fun h => absurd h.button (by decide)⟩

end State
end Badge

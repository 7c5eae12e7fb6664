import Mathlib.Algebra.Ring.Int.Defs
import Mathlib.Tactic.Common
import SwiftProjectKit.Primitives.Run

namespace Badge

-- `Int(description)`, which fails for numbers of more than 64 bits.
def int (description : String) : Option Int :=
  let (isNegative, digits) := match description.toList with
    | '-' :: cs => (true, cs)
    | '+' :: cs => (false, cs)
    | cs        => (false, cs)
  if digits.isEmpty || !digits.all Char.isDigit then
    none
  else
    let magnitude : Int := digits.foldl (fun n c => 10 * n + (c.toNat - '0'.toNat)) 0
    let value := if isNegative then -magnitude else magnitude
    if -2 ^ 63 ≤ value ∧ value < 2 ^ 63 then some value else none

structure UILabel where
  text     : Option String := none
  isHidden : Bool := false
deriving DecidableEq

def badgeText (badgeValue : Option String) : Option String :=
  if (badgeValue.bind int).getD 0 ≥ 99 then "99+" else badgeValue

def badge (badgeLabel : Option UILabel) : Option (Option String) :=
  badgeLabel.bind fun label => if label.isHidden then none else some label.text

structure UIButton where
  badgeLabel            : Option UILabel := none
  badgeValue            : Option String := none
  shouldHideBadgeAtZero : Bool := true
  removals              : Nat := 0
deriving DecidableEq

namespace UIButton

def removeBadge (b : UIButton) : UIButton :=
  { b with removals := b.removals + 1 }

-- The label that is there once the animation has ended is removed, even if the animation began before
-- there was that label.
def completion (b : UIButton) : UIButton :=
  { b with removals := b.removals - 1, badgeLabel := none }

-- Without a label, there is nothing to copy the frame from, which stops the program.
def updateBadgeValue (b : UIButton) : Option UIButton :=
  b.badgeLabel.map fun label =>
    { b with badgeLabel := some { label with text := badgeText b.badgeValue } }

def setBadgeValue (b : UIButton) (newValue : Option String) : Option UIButton :=
  let b : UIButton := { b with badgeValue := newValue }
  match newValue with
  | none        => some b
  | some badgeV =>
    if badgeV.isEmpty || badgeV == "" || badgeV == "" && b.shouldHideBadgeAtZero then
      some b.removeBadge
    else if b.badgeLabel.isNone then
      { b with badgeLabel := some {} : UIButton }.updateBadgeValue
    else
      b.updateBadgeValue

end UIButton

structure UIBarButtonItem where
  badgeLabel            : Option UILabel := none
  badgeValue            : Option String := none
  shouldHideBadgeAtZero : Bool := true
deriving DecidableEq

namespace UIBarButtonItem

def setText (b : UIBarButtonItem) (label : UILabel) : UILabel :=
  { label with text := badgeText b.badgeValue }

def refresh (b : UIBarButtonItem) (label : UILabel) : UILabel :=
  if b.badgeValue == none || b.badgeValue == some "" ||
      b.badgeValue == some "0" && b.shouldHideBadgeAtZero then
    { label with isHidden := true }
  else
    b.setText { label with isHidden := false }

-- The label is created when it is first read. The properties that are initialized then refresh it,
-- both before and after zero is hidden.
def label (b : UIBarButtonItem) : UILabel × UIBarButtonItem :=
  match b.badgeLabel with
  | some label => (label, b)
  | none       =>
    let label := b.refresh {}
    let b : UIBarButtonItem := { b with shouldHideBadgeAtZero := true }
    let label := b.refresh label
    (label, { b with badgeLabel := some label })

def updateBadgeValue (b : UIBarButtonItem) : UIBarButtonItem :=
  let (label, b) := b.label
  { b with badgeLabel := some <| b.setText label }

def refreshBadge (b : UIBarButtonItem) : UIBarButtonItem :=
  let (label, b) := b.label
  { b with badgeLabel := some <| b.refresh label }

def setBadgeValue (b : UIBarButtonItem) (newValue : Option String) : UIBarButtonItem :=
  { b with badgeValue := newValue : UIBarButtonItem }.updateBadgeValue.refreshBadge

end UIBarButtonItem

structure State where
  button : UIButton := {}
  item   : UIBarButtonItem := {}
deriving DecidableEq

inductive Event
  | setBadgeValue (newValue : Option String)
  | completion
deriving DecidableEq

namespace State

def step (s : State) : Event → Option State
  | .setBadgeValue newValue =>
    s.button.setBadgeValue newValue |>.map fun button => { button, item := s.item.setBadgeValue newValue }
  | .completion             =>
    if s.button.removals = 0 then none else some { s with button := s.button.completion }

abbrev exec : State → List Event → Option State :=
  Run.exec step

end State
end Badge

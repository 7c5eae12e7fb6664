import SwiftProjectKit.Primitives.Run
import SwiftProjectKit.RichText.PickerView

namespace RichText

variable {K : Type*} [Field K] [LinearOrder K]

def ScrollDirection.center (direction : ScrollDirection) (contentOffset : CGPoint K) (size : CGSize K) : CGPoint K :=
  match direction with
  | horizontal => ⟨contentOffset.x + size.width / (2 : Nat), size.height / (2 : Nat)⟩
  | vertical   => ⟨size.width / (2 : Nat), contentOffset.y + size.height / (2 : Nat)⟩

def ScrollDirection.offset (direction : ScrollDirection) (frame : CGRect K) (size : CGSize K) : CGPoint K :=
  match direction with
  | horizontal => ⟨frame.origin.x - (size.width / (2 : Nat) - frame.size.width / (2 : Nat)), 0⟩
  | vertical   => ⟨0, frame.origin.y - (size.height / (2 : Nat) - frame.size.height / (2 : Nat))⟩

-- The collection view of a wheel. The items reach across the wheel, so that each of them is found in the center
-- of the view when it is there.
structure UICollectionView (K : Type*) [Field K] [LinearOrder K] (direction : ScrollDirection) where
  size                    : CGSize K
  layoutAttributesForItem : Int → Option (CGRect K)
  indexPathForItem        : CGPoint K → Option Nat
  indexPathForItem_center : ∀ row frame, layoutAttributesForItem row = some frame →
    (indexPathForItem (direction.center (direction.offset frame size) size)).map Nat.cast = some row

-- A wheel, with the selections that wait on the main queue and whether they are animated, the offset to which
-- it is scrolling, and whether `animatedFinish` is to be performed.
structure RZPickerCollectionView (K : Type*) [Field K] [LinearOrder K] (direction : ScrollDirection) where
  collectionView    : UICollectionView K direction
  contentOffset     : CGPoint K
  selectedRow       : Int := -1
  canSelect         : Bool := false
  selectedItemCalls : List Nat := []
  mainQueue         : List (Int × Bool) := []
  animation         : Option (CGPoint K) := none
  isFinishing       : Bool := false

namespace RZPickerCollectionView

variable {direction : ScrollDirection} (s : RZPickerCollectionView K direction)

def centerRow : Option Nat :=
  s.collectionView.indexPathForItem <| direction.center s.contentOffset s.collectionView.size

def target (row : Int) : Option (CGPoint K) :=
  s.collectionView.layoutAttributesForItem row |>.map (direction.offset · s.collectionView.size)

def scrollViewDidScroll : RZPickerCollectionView K direction :=
  if s.canSelect then
    match s.centerRow with
    | some row =>
      if row = s.selectedRow then
        s
      else
        { s with selectedRow := row, selectedItemCalls := s.selectedItemCalls ++ [row] }
    | none => s
  else
    s

def setContentOffset (contentOffset : CGPoint K) : RZPickerCollectionView K direction :=
  if contentOffset = s.contentOffset then s else { s with contentOffset }.scrollViewDidScroll

def selecteRow (row : Int) (animated : Bool) : RZPickerCollectionView K direction :=
  { s with selectedRow := row, mainQueue := s.mainQueue ++ [(row, animated)] }

-- What `selecteRow` dispatches to the main queue. Nothing is done if there is no such row.
def scrollToRow (row : Int) (animated : Bool) : RZPickerCollectionView K direction :=
  match s.target row with
  | some contentOffset =>
    if animated then
      { s with animation := contentOffset }
    else
      { s with animation := none }.setContentOffset contentOffset
  | none => s

-- The layout may change the items and the offset.
def layoutSubviews (collectionView : UICollectionView K direction) (contentOffset : CGPoint K) :
    RZPickerCollectionView K direction :=
  { s with canSelect := false, collectionView, contentOffset, isFinishing := true }

def animatedFinish : RZPickerCollectionView K direction :=
  { s with canSelect := true, isFinishing := false }.selecteRow s.selectedRow false

inductive Event (K : Type*) [Field K] [LinearOrder K] (direction : ScrollDirection)
  | selecteRow (row : Int) (animated : Bool)
  | didSelectItem (row : Nat)
  | runMainQueue
  | drag (contentOffset : CGPoint K)
  | animate (contentOffset : CGPoint K)
  | endAnimation
  | layoutSubviews (collectionView : UICollectionView K direction) (contentOffset : CGPoint K)
  | animatedFinish

-- A row is selected by a tap or by the owner of the wheel. An animation is stopped by dragging, and takes the
-- wheel to its target otherwise.
def step : Event K direction → Option (RZPickerCollectionView K direction)
  | .selecteRow row animated => s.selecteRow row animated
  | .didSelectItem row       => if (s.target row).isSome then s.selecteRow row true else none
  | .runMainQueue            =>
    match s.mainQueue with
    | []                        => none
    | (row, animated) :: others => { s with mainQueue := others }.scrollToRow row animated
  | .drag contentOffset =>
    if contentOffset = s.contentOffset then none else { s with animation := none }.setContentOffset contentOffset
  | .animate contentOffset => if s.animation.isSome then s.setContentOffset contentOffset else none
  | .endAnimation          => s.animation.map fun contentOffset =>
    { s with animation := none }.setContentOffset contentOffset
  | .layoutSubviews collectionView contentOffset => s.layoutSubviews collectionView contentOffset
  | .animatedFinish => if s.isFinishing then s.animatedFinish else none

abbrev exec : RZPickerCollectionView K direction → List (Event K direction) →
    Option (RZPickerCollectionView K direction) :=
  Run.exec step

end RZPickerCollectionView
end RichText

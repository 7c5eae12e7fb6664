import Mathlib.Algebra.Order.Field.Basic

namespace RichText

structure CGPoint (K : Type*) where
  x : K
  y : K
deriving DecidableEq

structure CGSize (K : Type*) where
  width  : K
  height : K
deriving DecidableEq

structure CGRect (K : Type*) where
  origin : CGPoint K
  size   : CGSize K
deriving DecidableEq

structure UICollectionViewLayoutAttributes (K : Type*) where
  center : CGPoint K
deriving DecidableEq

inductive ScrollDirection
  | vertical
  | horizontal
deriving DecidableEq

variable {K : Type*} [Field K] [LinearOrder K]

def MAXFLOAT : K :=
  (2 ^ 128 - 2 ^ 104 : Nat)

-- The layout of the wheel, with what the layout that it is derived from provides. The collection view may have gone.
structure RZPickerCollectionFlowLayout (K : Type*) where
  scrollDirection             : ScrollDirection
  collectionViewSize          : Option (CGSize K)
  layoutAttributesForElements : CGRect K → Option (List (UICollectionViewLayoutAttributes K))

namespace RZPickerCollectionFlowLayout

-- The velocity has no influence.
def targetContentOffset (layout : RZPickerCollectionFlowLayout K) (proposedContentOffset : CGPoint K) : CGPoint K :=
  let collectionViewSize := layout.collectionViewSize.getD ⟨0, 0⟩
  let ppp := proposedContentOffset
  match layout.scrollDirection with
  | .horizontal =>
    let rect := ⟨⟨proposedContentOffset.x, 0⟩, collectionViewSize⟩
    let arr := layout.layoutAttributesForElements rect
    let centerX := proposedContentOffset.x + collectionViewSize.width / (2 : Nat)
    let minDelta := arr.getD [] |>.foldl
      (fun minDelta attrs => if |minDelta| ≥ |attrs.center.x - centerX| then attrs.center.x - centerX else minDelta)
      MAXFLOAT
    { ppp with x := ppp.x + minDelta }
  | .vertical =>
    let rect := ⟨⟨0, proposedContentOffset.y⟩, collectionViewSize⟩
    let arr := layout.layoutAttributesForElements rect
    let centerY := proposedContentOffset.y + collectionViewSize.height / (2 : Nat)
    let minDelta := arr.getD [] |>.foldl
      (fun minDelta attrs => if |minDelta| ≥ |attrs.center.y - centerY| then attrs.center.y - centerY else minDelta)
      MAXFLOAT
    { ppp with y := ppp.y + minDelta }

end RZPickerCollectionFlowLayout
end RichText

import Mathlib.Algebra.Order.Field.Basic

namespace Camera

structure CGSize (K : Type*) where
  width  : K
  height : K
deriving DecidableEq

-- The coordinates of a point are transformed to `a * x + c * y + tx` and `b * x + d * y + ty`.
structure CGAffineTransform (K : Type*) where
  a  : K
  b  : K
  c  : K
  d  : K
  tx : K
  ty : K
deriving DecidableEq

variable {K : Type*} [Field K] [LinearOrder K]

namespace CGAffineTransform

def apply (t : CGAffineTransform K) (p : K × K) : K × K :=
  ⟨t.a * p.1 + t.c * p.2 + t.tx, t.b * p.1 + t.d * p.2 + t.ty⟩

def translatedBy (t : CGAffineTransform K) (x y : K) : CGAffineTransform K :=
  { t with
    tx := t.a * x + t.c * y + t.tx
    ty := t.b * x + t.d * y + t.ty }

end CGAffineTransform

def transformSize (naturalSize : CGSize K) (transform : CGAffineTransform K) : CGSize K :=
  if transform.a * transform.d + transform.b * transform.c = -1 then
    ⟨min naturalSize.width naturalSize.height, max naturalSize.width naturalSize.height⟩
  else
    ⟨max naturalSize.width naturalSize.height, min naturalSize.width naturalSize.height⟩

def translatedBy (naturalSize : CGSize K) (transform : CGAffineTransform K) : CGAffineTransform K :=
  let x := if transform.a + transform.b = -1 then -naturalSize.width else 0
  let y := if transform.c + transform.d = -1 then -naturalSize.height else 0
  transform.translatedBy x y

structure AVMutableVideoComposition (K : Type*) where
  layerTransform : CGAffineTransform K
  renderSize     : CGSize K

def rotatoTo (naturalSize : CGSize K) (transform : CGAffineTransform K) : AVMutableVideoComposition K where
  layerTransform := translatedBy naturalSize transform
  renderSize     := transformSize naturalSize transform

end Camera

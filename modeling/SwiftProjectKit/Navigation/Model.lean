import SwiftProjectKit.Primitives.Heap
import SwiftProjectKit.Primitives.Run

namespace Navigation

open Heap (Ref)

inductive NavBackBtnType
  | white
  | black
deriving DecidableEq

def NavBackBtnType.rawValue : NavBackBtnType → String
  | white => "icon_back_white"
  | black => "icon_back_black"

inductive UIBarButtonItem
  | popAction (image : String)
  | custom (title : String)
deriving DecidableEq

structure UIViewController where
  backBtnType              : Option NavBackBtnType := none
  hidesBottomBarWhenPushed : Bool := false
  leftBarButtonItem        : Option UIBarButtonItem := none
deriving DecidableEq

def UIViewController.configure (viewController : UIViewController) (isFirstVC : Bool) :
    UIViewController :=
  let viewController := { viewController with hidesBottomBarWhenPushed := !isFirstVC }
  if viewController.leftBarButtonItem.isNone && !isFirstVC then
    let backBtnType := viewController.backBtnType.getD .black
    { viewController with leftBarButtonItem := some <| .popAction backBtnType.rawValue }
  else
    viewController

-- A navigation controller, with the controllers that it has ever given a back button.
structure BaseNavigationController where
  objects             : Heap UIViewController
  viewControllers     : List Ref := []
  backButtons         : List Ref := []
  popGestureIsEnabled : Bool := true

namespace BaseNavigationController

def isFirstVC (s : BaseNavigationController) (r : Ref) : Bool :=
  match s.viewControllers.idxOf? r with
  | some index => index == 0
  | none       => s.viewControllers.length == 0

def customsBackImageConfig (s : BaseNavigationController) (r : Ref) : BaseNavigationController :=
  let isFirstVC := s.isFirstVC r
  { s with
    objects     := s.objects.modify r (·.configure isFirstVC)
    backButtons :=
      if (s.objects.get r).leftBarButtonItem.isNone && !isFirstVC then
        s.backButtons ++ [r]
      else
        s.backButtons }

def setPopGesture (s : BaseNavigationController) (isEnabled : Bool) : BaseNavigationController :=
  { s with popGestureIsEnabled := isEnabled }

def pushViewController (s : BaseNavigationController) (r : Ref) : BaseNavigationController :=
  { s.customsBackImageConfig r |>.setPopGesture false with viewControllers := s.viewControllers ++ [r] }

-- All controllers are configured before any of them replaces the controllers that are there.
def setViewControllers (s : BaseNavigationController) (rs : List Ref) : BaseNavigationController :=
  { rs.foldl customsBackImageConfig s |>.setPopGesture false with viewControllers := rs }

def didShow (s : BaseNavigationController) : BaseNavigationController :=
  s.setPopGesture <| s.viewControllers.length != 1

-- Removing the last occurrence of a controller and adding another one, which is how a controller
-- replaces itself.
def replacing (s : BaseNavigationController) (r vc : Ref) : List Ref :=
  (s.viewControllers.reverse.erase r).reverse ++ [vc]

def removeSelf (s : BaseNavigationController) (r vc : Ref) : BaseNavigationController :=
  s.setViewControllers <| s.replacing r vc

def popViewController (s : BaseNavigationController) : BaseNavigationController :=
  if s.viewControllers.length ≤ 1 then
    s
  else
    { s with viewControllers := s.viewControllers.dropLast }

def popToViewController (s : BaseNavigationController) (index : Nat) : BaseNavigationController :=
  if s.viewControllers.length > index then
    { s with viewControllers := s.viewControllers.take (index + 1) }
  else
    s

def popToRootViewController (s : BaseNavigationController) : BaseNavigationController :=
  { s with viewControllers := s.viewControllers.take 1 }

end BaseNavigationController

inductive Event
  | pushViewController (r : Ref)
  | setViewControllers (rs : List Ref)
  | popViewController
  | popToViewController (index : Nat)
  | popToRootViewController
  | didShow

namespace BaseNavigationController

-- A navigation controller holds each controller at most once.
def step (s : BaseNavigationController) : Event → Option BaseNavigationController
  | .pushViewController r      => if r ∈ s.viewControllers then none else some <| s.pushViewController r
  | .setViewControllers rs     => if rs ≠ [] ∧ rs.Nodup then some <| s.setViewControllers rs else none
  | .popViewController         => s.popViewController
  | .popToViewController index => s.popToViewController index
  | .popToRootViewController   => s.popToRootViewController
  | .didShow                   => s.didShow

abbrev exec : BaseNavigationController → List Event → Option BaseNavigationController :=
  Run.exec step

def start (objects : Heap UIViewController) : BaseNavigationController :=
  { objects }

end BaseNavigationController
end Navigation

import SwiftProjectKit.Picker.Controller

namespace Picker

open Heap (Ref)

namespace State

def checkFlag (s : State) (b : Browser) : Bool :=
  s.isImageOrVideo && 0 < b.selectedModels.length

-- The browser once its check button is updated for the current page.
def settled (s : State) (b : Browser) (currentModel : Ref) : Browser :=
  let isHidden :=
    if s.checkFlag b then
      s.mediaType currentModel != b.selectedModels.head?.map s.mediaType
    else
      !(s.objects.get currentModel).isEnableSelected
  { b with isSelected := s.isSelected currentModel, isHidden, isSettled := true }

def scrollViewDidEndDecelerating (s : State) (b : Browser) : Option State :=
  b.models[b.currentIndex]?.map fun currentModel =>
    { s with browser := some <| s.settled b currentModel }

-- A tap on a cell of the picker opens the browser, which shows copies of the arrays of the picker.
def didSelectItem (s : State) (row : Nat) : Option State :=
  if row < s.phAssets.assets.length then
    s.scrollViewDidEndDecelerating
      { models := s.models, selectedModels := s.selectedModels, currentIndex := row }
  else
    none

def scroll (s : State) (b : Browser) (page : Nat) : Option State :=
  if page < b.models.length then
    some { s with browser := some { b with currentIndex := page, isSettled := false } }
  else
    none

def selectPage (s : State) (selectedModel : Ref) (b : Browser) (page : Ref × Nat) : Browser :=
  if s.identifier page.fst == s.identifier selectedModel then
    { b with currentIndex := page.snd, isSelected := true, isSettled := false }
  else
    b

-- A tap on a cell of the bottom bar. The pages are moved without an animation, so they do not
-- decelerate and the check button is not updated.
def didSelectBottomItem (s : State) (b : Browser) (row : Nat) : Option State :=
  b.selectedModels[row]?.map fun selectedModel =>
    { s with browser := some <| b.models.zipIdx.foldl (s.selectPage selectedModel) b }

def firstIndex (s : State) (b : Browser) (model : Ref) : Option Nat :=
  b.models.findIdx? (s.identifier · == s.identifier model)

-- The part of `selectedBtnClick` that follows the check of the limits.
def toggle (s : State) (b : Browser) (model : Ref) : Option State :=
  let isSelected := !b.isSelected
  let s := s.setIsSelected model isSelected
  let closer := if isSelected then s.selectedCloser else s.unSelectedCloser
  let selectedModels :=
    if isSelected then
      b.selectedModels ++ [model]
    else
      b.selectedModels.filter (s.identifier · != s.identifier model)
  let picker? := match s.firstIndex b model with
    | some i => closer i
    | none   => some s
  picker?.map fun s => { s with browser := some { b with isSelected, selectedModels } }

def selectedBtnClick (s : State) (b : Browser) : Option State :=
  b.models[b.currentIndex]?.bind fun model =>
    if b.isSelected then
      s.toggle b model
    else
      match s.limitAlert b.selectedModels (s.mediaType model) with
      | some title => s.presentAlert title
      | none       => s.toggle b model

end State
end Picker

import SwiftProjectKit.RichText.Theorems.Configure

namespace RichText

variable {options : FontOptions} {attributes : FontAttributes NSShadow} {item : RZToolBarItem}

namespace FontOptions

def fontNames (options : FontOptions) : List String :=
  [options.normalFont.fontName, options.obliqueFont.fontName, options.boldFont.fontName,
    options.boldObliqueFont.fontName]

theorem nodup_fontNames_iff : options.fontNames.Nodup ↔
    ∀ bold italic, options.fontIsBold (options.styleFont bold italic) = bold ∧
      options.fontIsItal (options.styleFont bold italic) = italic := by
  simp only [fontNames, fontIsBold, fontIsItal, styleFont, Bool.forall_bool]
  grind

theorem setUpViews_congr {α β : Type} {a : FontAttributes α} {b : FontAttributes β}
    (hb : a.font.any options.fontIsBold = b.font.any options.fontIsBold)
    (hi : a.font.any options.fontIsItal = b.font.any options.fontIsItal)
    (hu : (a.underlineStyle.getD 0 != 0) = (b.underlineStyle.getD 0 != 0))
    (hd : (a.strikethroughStyle.getD 0 != 0) = (b.strikethroughStyle.getD 0 != 0)) :
    options.setUpViews a = options.setUpViews b := by
  funext button
  cases button
  case bold      => exact hb
  case italic    => exact hi
  case underline => exact hu
  case delete    => exact hd

theorem any_getD_normalFont (hn : options.fontNames.Nodup) {font : Option UIFont} {size : CGFloat} :
    options.fontIsBold ((font.getD options.normalFont).withSize size) = font.any options.fontIsBold ∧
      options.fontIsItal ((font.getD options.normalFont).withSize size) = font.any options.fontIsItal := by
  cases font
  case none   => exact nodup_fontNames_iff.mp hn false false
  case some _ => exact ⟨rfl, rfl⟩

end FontOptions

namespace RZRichFontConfigureViewController

variable {s s' : RZRichFontConfigureViewController} {e : Event} {es : List Event} {wheel : Wheel} {index : Nat}

-- The buttons display the attributes of the configuration as well as those of their view, which hold no style that
-- stands for none.
structure Displays (options : FontOptions) (s : RZRichFontConfigureViewController) : Prop where
  attributes : options.setUpViews s.typingAttributes = s.fontStyleView.isSelected
  view       : options.setUpViews s.fontStyleView.typingAttributes = s.fontStyleView.isSelected
  underline  : s.fontStyleView.typingAttributes.underlineStyle ≠ some 0
  delete     : s.fontStyleView.typingAttributes.strikethroughStyle ≠ some 0

theorem selectedIndex_fontStyle (hn : options.fontNames.Nodup)
    (hs : s.selectedIndex options index wheel = some s') :
    s'.fontStyleView = s.fontStyleView ∧
      options.setUpViews s'.typingAttributes = options.setUpViews s.typingAttributes := by
  cases wheel <;> simp only [selectedIndex, Option.map_eq_some_iff, Option.some_inj] at hs
  case fontSize =>
    subst hs
    have hf := @FontOptions.any_getD_normalFont options hn s.typingAttributes.font (index + 10)
    exact ⟨rfl, FontOptions.setUpViews_congr hf.left hf.right rfl rfl⟩
  case shadowColor =>
    obtain ⟨_, _, rfl⟩ := hs
    split <;> exact ⟨rfl, FontOptions.setUpViews_congr rfl rfl rfl rfl⟩
  case fontColor | fontBackgroundColor | lineHeightMultiple | strokeColor =>
    obtain ⟨_, _, rfl⟩ := hs
    exact ⟨rfl, FontOptions.setUpViews_congr rfl rfl rfl rfl⟩
  all_goals exact hs ▸ ⟨rfl, FontOptions.setUpViews_congr rfl rfl rfl rfl⟩

theorem map_one_ne_zero {style : Option Int} (h : style ≠ some 0) :
    ((style.map fun _ => (1 : Int)).getD 0 != 0) = (style.getD 0 != 0) := by
  cases style <;> grind

theorem setUpViews_fontStyleChanged (hn : options.fontNames.Nodup) {attributes : FontAttributes ShadowReference}
    (hu : attributes.underlineStyle ≠ some 0) (hd : attributes.strikethroughStyle ≠ some 0) :
    options.setUpViews (s.fontStyleChanged options attributes).typingAttributes = options.setUpViews attributes :=
  have hf := FontOptions.any_getD_normalFont hn
  FontOptions.setUpViews_congr hf.left hf.right (map_one_ne_zero hu) (map_one_ne_zero hd)

theorem some_one_getD {selected : Bool} : ((if selected then some (1 : Int) else none).getD 0 != 0) = selected := by
  cases selected <;> rfl

theorem some_one_ne_zero {selected : Bool} : (if selected then some (1 : Int) else none) ≠ some 0 := by
  cases selected <;> decide

theorem btnClicked_displays (hn : options.fontNames.Nodup) {sender : StyleButton} (hd : s.Displays options) :
    (s.btnClicked options sender).Displays options := by
  have hv := congrFun hd.view
  have hs := FontOptions.nodup_fontNames_iff.mp hn
  have hview : options.setUpViews (s.btnClicked options sender).fontStyleView.typingAttributes =
      (s.btnClicked options sender).fontStyleView.isSelected := by
    funext button
    cases sender <;> cases button
    case bold.bold | italic.bold     => exact hs _ _ |>.left
    case bold.italic | italic.italic => exact hs _ _ |>.right
    case underline.underline | delete.delete => exact some_one_getD
    case underline.bold | delete.bold        => exact hv .bold
    case underline.italic | delete.italic    => exact hv .italic
    case bold.underline | italic.underline | delete.underline => exact hv .underline
    case bold.delete | italic.delete | underline.delete       => exact hv .delete
  have hu : (s.btnClicked options sender).fontStyleView.typingAttributes.underlineStyle ≠ some 0 := by
    cases sender
    case underline => exact some_one_ne_zero
    all_goals exact hd.underline
  have hd : (s.btnClicked options sender).fontStyleView.typingAttributes.strikethroughStyle ≠ some 0 := by
    cases sender
    case delete => exact some_one_ne_zero
    all_goals exact hd.delete
  exact {
    attributes := setUpViews_fontStyleChanged hn hu hd |>.trans hview
    view       := hview
    underline  := hu
    delete     := hd
  }

theorem step_displays (hn : options.fontNames.Nodup) (hd : s.Displays options) (hs : step options item s e = some s') :
    s'.Displays options := by
  cases e
  case select =>
    have ⟨_, hs⟩ := Option.ite_none_right_eq_some.mp hs
    have ⟨hv, ha⟩ := selectedIndex_fontStyle hn hs
    exact {
      attributes := ha.trans <| hd.attributes.trans <| hv ▸ rfl
      view       := hv ▸ hd.view
      underline  := hv ▸ hd.underline
      delete     := hv ▸ hd.delete
    }
  case click =>
    have ⟨_, hs⟩ := Option.ite_none_right_eq_some.mp hs
    exact Option.some.inj hs ▸ btnClicked_displays hn hd
  case align =>
    have ⟨_, hs⟩ := Option.ite_none_right_eq_some.mp hs
    cases hs
    exact {
      attributes := (FontOptions.setUpViews_congr rfl rfl rfl rfl).trans hd.attributes
      view       := hd.view
      underline  := hd.underline
      delete     := hd.delete
    }

variable [ParagraphStyles]

theorem configureViews_displays (hu : attributes.underlineStyle ≠ some 0)
    (hd : attributes.strikethroughStyle ≠ some 0) : (configureViews options attributes).Displays options where
  attributes := FontOptions.setUpViews_congr rfl rfl rfl rfl
  view       := FontOptions.setUpViews_congr rfl rfl rfl rfl
  underline  := hu
  delete     := hd

-- The buttons are displayed again as they were when the configuration was confirmed, if and only if there are four
-- fonts. Where one of them stands for two styles, as the bold one does by default, one style is displayed as both.
theorem exec_displays_iff (hb : isButtonShown options item .bold) (hi : isButtonShown options item .italic) :
    (∀ attributes es s, attributes.underlineStyle ≠ some 0 → attributes.strikethroughStyle ≠ some 0 →
      exec options item (configureViews options attributes) es = some s →
      options.setUpViews s.confirmed = s.fontStyleView.isSelected) ↔ options.fontNames.Nodup := by
  constructor
  case mp =>
    intro h
    have hx (es : List Event) {s : RZRichFontConfigureViewController}
        (hs : exec options item (configureViews options {}) es = some s) (button : StyleButton) :
        options.setUpViews s.confirmed button = s.fontStyleView.isSelected button :=
      congrFun (h _ _ _ (Option.some_ne_none 0).symm (Option.some_ne_none 0).symm hs) button
    have hs₁ (s : RZRichFontConfigureViewController) :
        step options item s (.click .bold) = s.btnClicked options .bold :=
      if_pos hb
    have hs₂ (s : RZRichFontConfigureViewController) :
        step options item s (.click .italic) = s.btnClicked options .italic :=
      if_pos hi
    -- Each style is reached from attributes without a font, the normal one by pressing a button twice.
    have h₀ := hx [.click .bold, .click .bold] <| by rw [exec, Run.exec, hs₁, Option.bind_some, Run.exec_singleton, hs₁]
    have h₁ := hx [.click .bold] <| by rw [exec, Run.exec_singleton, hs₁]
    have h₂ := hx [.click .italic] <| by rw [exec, Run.exec_singleton, hs₂]
    have h₃ := hx [.click .bold, .click .italic] <| by
      rw [exec, Run.exec, hs₁, Option.bind_some, Run.exec_singleton, hs₂]
    refine FontOptions.nodup_fontNames_iff.mpr fun bold italic => ?_
    cases bold <;> cases italic
    case false.false => exact ⟨h₀ .bold, h₀ .italic⟩
    case false.true  => exact ⟨h₂ .bold, h₂ .italic⟩
    case true.false  => exact ⟨h₁ .bold, h₁ .italic⟩
    case true.true   => exact ⟨h₃ .bold, h₃ .italic⟩
  case mpr =>
    intro hn attributes es s hu hd h
    have hs : s.Displays options := Run.invariant' (step_displays hn) (configureViews_displays hu hd) h
    exact hs.attributes

omit [ParagraphStyles] in
theorem exec_displays_sample : let _ := Sample.styles
    ¬∀ attributes es s, attributes.underlineStyle ≠ some 0 → attributes.strikethroughStyle ≠ some 0 →
      exec sampleOptions (sampleItem sampleOptions.fontStyleItems) (configureViews sampleOptions attributes) es =
        some s → sampleOptions.setUpViews s.confirmed = s.fontStyleView.isSelected := by
  let _ := Sample.styles
  have hn : ¬sampleOptions.fontNames.Nodup := by decide
  exact fun h => hn <| (exec_displays_iff (by decide) (by decide)).mp h

end RZRichFontConfigureViewController
end RichText

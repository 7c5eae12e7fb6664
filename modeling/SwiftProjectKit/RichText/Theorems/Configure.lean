import Mathlib.Data.List.Nodup
import SwiftProjectKit.Primitives.Register
import SwiftProjectKit.RichText.Configure
import SwiftProjectKit.RichText.Tabs

namespace RichText

variable {options : FontOptions} {attributes : FontAttributes NSShadow} {item : RZToolBarItem}

@[simp]
theorem truncate_natCast {n : Nat} : truncate n = n := by
  rw [truncate, if_pos n.cast_nonneg, Int.floor_natCast]

namespace FontOptions

theorem firstIndex_color {i : Nat} {color : RZRichColor} (hn : (options.colors.map RZRichColor.color).Nodup)
    (h : options.colors[i]? = some color) : options.firstIndex color.color = i := by
  have ⟨hi, hc⟩ := List.getElem?_eq_some_iff.mp h
  have hf : options.colors.findIdx? (·.color = color.color) = some i := by
    refine List.findIdx?_eq_some_iff_getElem.mpr ⟨hi, by simp [hc], fun j hj => ?_⟩
    have hd := List.nodup_iff_getElem?_ne_getElem?.mp hn j i hj <| by simpa
    simpa [h, hj.trans hi] using hd
  rw [firstIndex, hf, Option.getD_some]

end FontOptions

def Wheel.isPlain : Wheel → Bool
  | .strokeColor | .shadowColor | .shadowBlurRadius | .shadowOffsetY | .shadowOffsetX => false
  | .firstLineHeadIndent | .headIndent | .tailIndent => false
  | _ => true

def Wheel.isIndent : Wheel → Bool
  | .firstLineHeadIndent | .headIndent | .tailIndent => true
  | _ => false

-- Wheels that can be relied on. Indents are divided by the size of the font, which must not be changed and of which
-- the multiples must not be rounded.
def Wheel.Keeps (item : RZToolBarItem) (font : UIFont) (wheel : Wheel) : Prop :=
  wheel.isPlain ∨ wheel.isIndent ∧ RZRichFontConfigureViewController.isShown item .fontSize = false ∧
    ∃ n : Nat, 0 < n ∧ n ≤ 2 ^ 40 ∧ font.pointSize = n

theorem nearest_half {k : Int} (hk : |k| ≤ 2 ^ 53) : nearest (k / 2) = k / 2 :=
  Nearest.isNearest.eq_of_mem ⟨k, -1, by decide, hk, by rw [zpow_neg_one, div_eq_mul_inv]⟩

theorem nearest_intCast {k : Int} (hk : |k| ≤ 2 ^ 53) : nearest k = k :=
  Nearest.isNearest.eq_of_mem ⟨k, 0, by decide, hk, by rw [zpow_zero, mul_one]⟩

theorem indentRow_rowIndent {index n : Nat} (hi : index < 51) (h₀ : 0 < n) (hn : n ≤ 2 ^ 40) :
    indentRow (rowIndent index n) n = index := by
  have hn₀ : (n : Rat) ≠ 0 := by exact_mod_cast h₀.ne'
  have hp : index * n ≤ 50 * 2 ^ 40 := Nat.mul_le_mul (by omega) hn
  have h₁ : nearest ((index * 5 : Nat) / 10) = index / 2 := by
    have h := nearest_half (k := index) (by rw [Nat.abs_cast]; omega)
    rw [Int.cast_natCast] at h
    rw [← h]
    congr 1
    push_cast
    ring
  have h₂ : nearest (index / 2 * n) = index / 2 * n := by
    have h := nearest_half (k := (index * n : Nat)) (by rw [Nat.abs_cast]; omega)
    push_cast at h
    rwa [div_mul_eq_mul_div]
  have h₃ : nearest (index / 2) = index / 2 := nearest_half (k := index) (by rw [Nat.abs_cast]; omega)
  have h₄ : nearest (index / 2 * 10) = index * 5 := by
    have h := nearest_intCast (k := (index * 5 : Nat)) (by rw [Nat.abs_cast]; omega)
    push_cast at h
    rw [← h]
    congr 1
    ring
  have h₅ : nearest (index * 5 / 5) = index := by
    rw [mul_div_cancel_right₀ _ (by decide)]
    exact nearest_intCast (k := index) (by rw [Nat.abs_cast]; omega)
  rw [indentRow, rowIndent, h₁, h₂, mul_div_cancel_right₀ _ hn₀, h₃, h₄, h₅, truncate_natCast]

theorem truncate_tailIndent {index n : Nat} (hi : index < 51) (h₀ : 0 < n) (hn : n ≤ 2 ^ 40) :
    truncate (nearest (nearest (index * n) / n)) = index := by
  have hn₀ : (n : Rat) ≠ 0 := by exact_mod_cast h₀.ne'
  have hp : index * n ≤ 50 * 2 ^ 40 := Nat.mul_le_mul (by omega) hn
  have h₁ : nearest (index * n) = index * n := by
    have h := nearest_intCast (k := (index * n : Nat)) (by rw [Nat.abs_cast]; omega)
    push_cast at h
    exact h
  have h₂ : nearest index = index := nearest_intCast (k := index) (by rw [Nat.abs_cast]; omega)
  rw [h₁, mul_div_cancel_right₀ _ hn₀, h₂, truncate_natCast]

namespace RZRichFontConfigureViewController

variable {s s' : RZRichFontConfigureViewController} {e : Event} {es es' : List Event} {wheel : Wheel} {index : Nat}

def Event.row (wheel : Wheel) : Event → Option Nat
  | .select wheel' index => if wheel' = wheel then some index else none
  | .click _ | .align _  => none

theorem getD_ite_zero {α : Type*} [Zero α] [DecidableEq α] {v : α} :
    (if v = 0 then none else some v).getD 0 = v := by
  split
  case isTrue h  => exact h.symm
  case isFalse h => rfl

theorem truncate_toFloat_row {n : Nat} (h : n < 41) :
    truncate (Binary32.toFloat (Binary32.toFloat (Binary32.toFloat (n - 20 : Int) / 10) * 10)) + 20 = n := by
  have hd : ∀ n : Fin 41,
      truncate (Binary32.toFloat (Binary32.toFloat (Binary32.toFloat (n.val - 20 : Int) / 10) * 10)) + 20 = n.val := by
    decide +kernel
  exact hd ⟨n, h⟩

theorem findIdx?_lineHeightMultiples {v : CGFloat} (h : lineHeightMultiples[index]? = some v) :
    lineHeightMultiples.findIdx? (· = v) = some index := by
  have hd : ∀ index : Fin lineHeightMultiples.length, ∀ v ∈ lineHeightMultiples[index.val]?,
      lineHeightMultiples.findIdx? (· = v) = some index.val := by
    decide +kernel
  exact hd ⟨index, List.getElem?_eq_some_iff.mp h |>.fst⟩ v h

def Event.color (options : FontOptions) (wheel : Wheel) (e : Event) : Option RZRichColor :=
  e.row wheel |>.bind (options.colors[·]?)

def Event.number (wheel : Wheel) (max : Int) (e : Event) : Option Int :=
  (e.row wheel).map (· - max)

theorem step_value (hs : step options item s e = some s') : s'.value = (e.number .strokeWidth 10).getD s.value := by
  cases e
  case select wheel _ =>
    have ⟨_, hs⟩ := Option.ite_none_right_eq_some.mp hs
    cases wheel <;> simp only [selectedIndex, Option.map_eq_some_iff, Option.some_inj] at hs
    case shadowColor =>
      obtain ⟨_, _, rfl⟩ := hs
      split <;> rfl
    case fontColor | fontBackgroundColor | strokeColor | lineHeightMultiple =>
      obtain ⟨_, _, rfl⟩ := hs
      rfl
    all_goals exact hs ▸ rfl
  case click | align =>
    have ⟨_, hs⟩ := Option.ite_none_right_eq_some.mp hs
    exact Option.some.inj hs ▸ rfl

theorem step_strokeColor (hs : step options item s e = some s') :
    s'.typingAttributes.strokeColor = ((e.color options .strokeColor).map fun color =>
      if s.value = 0 then none else some color.color).getD s.typingAttributes.strokeColor := by
  cases e
  case select wheel _ =>
    have ⟨_, hs⟩ := Option.ite_none_right_eq_some.mp hs
    cases wheel <;> simp only [selectedIndex, Option.map_eq_some_iff, Option.some_inj] at hs
    case strokeColor =>
      obtain ⟨color, hc, rfl⟩ := hs
      simp [Event.color, Event.row, hc, updateAttributes]
    case shadowColor =>
      obtain ⟨_, _, rfl⟩ := hs
      split <;> rfl
    case fontColor | fontBackgroundColor | lineHeightMultiple =>
      obtain ⟨_, _, rfl⟩ := hs
      rfl
    all_goals exact hs ▸ rfl
  case click | align =>
    have ⟨_, hs⟩ := Option.ite_none_right_eq_some.mp hs
    exact Option.some.inj hs ▸ rfl

theorem strokeColor_eq (hn : ∀ e ∈ es, e.row .strokeColor = none) (h : exec options item s es = some s') :
    s'.typingAttributes.strokeColor = s.typingAttributes.strokeColor :=
  Register.read_eq (·.typingAttributes.strokeColor) hn h fun hr hs => by
    rw [step_strokeColor hs, Event.color, hr, Option.bind_none, Option.map_none, Option.getD_none]

def shadowColor (color : RZRichColor) : Option UIColor :=
  if color = ⟨0, 0, 0, 0⟩ then none else some color.color

theorem step_shadow (hs : step options item s e = some s') :
    s'.shadow = ⟨⟨((e.number .shadowOffsetX 100).map Int.cast).getD s.shadow.shadowOffset.width,
        ((e.number .shadowOffsetY 100).map Int.cast).getD s.shadow.shadowOffset.height⟩,
      ((e.number .shadowBlurRadius 0).map Int.cast).getD s.shadow.shadowBlurRadius,
      ((e.color options .shadowColor).map shadowColor).getD s.shadow.shadowColor⟩ ∧
    s'.typingAttributes.shadow = ((e.color options .shadowColor).map fun color =>
      (shadowColor color).map fun _ => .created).getD s.typingAttributes.shadow := by
  cases e
  case select wheel _ =>
    have ⟨_, hs⟩ := Option.ite_none_right_eq_some.mp hs
    cases wheel <;> simp only [selectedIndex, Option.map_eq_some_iff, Option.some_inj] at hs
    case shadowColor =>
      obtain ⟨color, hc, rfl⟩ := hs
      split <;> simp [Event.color, Event.number, Event.row, updateAttributes, shadowColor, *]
    case fontColor | fontBackgroundColor | lineHeightMultiple | strokeColor =>
      obtain ⟨_, _, rfl⟩ := hs
      exact ⟨rfl, rfl⟩
    case shadowBlurRadius | shadowOffsetX | shadowOffsetY =>
      subst hs
      simp [Event.color, Event.number, Event.row]
    all_goals exact hs ▸ ⟨rfl, rfl⟩
  case click | align =>
    have ⟨_, hs⟩ := Option.ite_none_right_eq_some.mp hs
    exact Option.some.inj hs ▸ ⟨rfl, rfl⟩

theorem confirmed_shadow : s.confirmed.shadow = s.typingAttributes.shadow.map (ShadowReference.shadow s.shadow) :=
  rfl

theorem map_shadow_given {created : NSShadow} {shadow : Option NSShadow} :
    (shadow.map ShadowReference.given).map (ShadowReference.shadow created) = shadow := by
  cases shadow <;> rfl

-- The system's fonts, of which the bold one stands for the bold and oblique one as well.
def sampleOptions : FontOptions where
  normalFont      := ⟨"normal", 17⟩
  obliqueFont     := ⟨"oblique", 17⟩
  boldFont        := ⟨"bold", 17⟩
  boldObliqueFont := ⟨"bold", 17⟩

def sampleItem (items : List RZTextViewFontStyle) : RZToolBarItem where
  type  := .font
  items := items

theorem nodup_colors_sampleOptions : (sampleOptions.colors.map RZRichColor.color).Nodup := by
  decide +kernel

variable [ParagraphStyles]

variable {font : UIFont}

-- The paragraph style that is configured is the one among the attributes. Where there is no font, the wheel displays
-- the size that the buttons give to it.
structure Consistent (options : FontOptions) (item : RZToolBarItem) (font : UIFont)
    (s : RZRichFontConfigureViewController) : Prop where
  paragraph : s.paragraph = s.confirmed.paragraph
  normal    : s.typingAttributes.font = none → options.normalFont.pointSize = 17
  pointSize : isShown item .fontSize = false →
    (s.typingAttributes.font.getD options.normalFont).pointSize = font.pointSize
  font      : s.font = font

theorem setParagraph_consistent {p : NSParagraphStyle} (hc : s.Consistent options item font) :
    (s.setParagraph p).Consistent options item font where
  paragraph := rfl
  normal    := hc.normal
  pointSize := hc.pointSize
  font      := hc.font

theorem selectedIndex_consistent (hc : s.Consistent options item font) (hw : isShown item wheel)
    (hs : s.selectedIndex options index wheel = some s') : s'.Consistent options item font := by
  cases wheel <;> simp only [selectedIndex, Option.map_eq_some_iff, Option.some_inj] at hs
  case fontSize =>
    exact hs ▸ { hc with paragraph := hc.paragraph, normal := nofun, pointSize := fun h => nomatch hw.symm.trans h }
  case baselineOffset | strokeWidth | expansion => exact hs ▸ { hc with paragraph := hc.paragraph }
  case shadowBlurRadius | shadowOffsetY | shadowOffsetX => exact hs ▸ { hc with paragraph := hc.paragraph }
  case lineSpacing | paragraphSpacing | paragraphSpacingBefore => exact hs ▸ setParagraph_consistent hc
  case firstLineHeadIndent | headIndent | tailIndent => exact hs ▸ setParagraph_consistent hc
  case fontColor | fontBackgroundColor | strokeColor =>
    obtain ⟨_, _, rfl⟩ := hs
    exact { hc with paragraph := hc.paragraph }
  case shadowColor =>
    obtain ⟨_, _, rfl⟩ := hs
    split <;> exact { hc with paragraph := hc.paragraph }
  case lineHeightMultiple =>
    obtain ⟨_, _, rfl⟩ := hs
    exact setParagraph_consistent hc

theorem currentIndex_selectedIndex (hn : (options.colors.map RZRichColor.color).Nodup)
    (hr : index < rows options wheel) (hs : s.selectedIndex options index wheel = some s') (hw : wheel.isPlain) :
    currentIndex options s'.confirmed wheel = index := by
  cases wheel <;> simp only [selectedIndex, Option.map_eq_some_iff, Option.some_inj] at hs
  case fontSize =>
    subst hs
    simp [currentIndex, confirmed, FontAttributes.mapShadow, updateAttributes, UIFont.withSize]
  case fontColor =>
    obtain ⟨_, hi, rfl⟩ := hs
    exact FontOptions.firstIndex_color hn hi
  case fontBackgroundColor =>
    obtain ⟨color, hi, rfl⟩ := hs
    refine Eq.trans (congrArg options.firstIndex ?_) <| FontOptions.firstIndex_color hn hi
    have hc : (if color = ⟨0, 0, 0, 0⟩ then none else some color.color).getD ⟨0, 0, 0, 0⟩ = color.color := by
      split
      case isTrue hc => simp [hc, RZRichColor.color]
      case isFalse   => rfl
    exact hc
  case baselineOffset =>
    subst hs
    exact eq_sub_iff_add_eq.mp getD_ite_zero
  case strokeWidth =>
    subst hs
    exact eq_sub_iff_add_eq.mp getD_ite_zero
  case expansion =>
    subst hs
    refine Eq.trans ?_ <| truncate_toFloat_row hr
    exact congrArg (fun v => truncate (Binary32.toFloat <| v * 10) + 20) getD_ite_zero
  case lineHeightMultiple =>
    obtain ⟨_, hi, rfl⟩ := hs
    exact congrArg (fun i : Option Nat => ((i.getD 0 : Nat) : Int)) <| findIdx?_lineHeightMultiples hi
  case lineSpacing | paragraphSpacing | paragraphSpacingBefore => exact hs ▸ truncate_natCast
  all_goals cases hw

theorem currentIndex_selectedIndex_indent {n : Nat} (hc : s.Consistent options item font)
    (hr : index < rows options wheel) (hs : s.selectedIndex options index wheel = some s') (hw : wheel.isIndent)
    (h : isShown item .fontSize = false) (h₀ : 0 < n) (hn : n ≤ 2 ^ 40) (hf : font.pointSize = n) :
    currentIndex options s'.confirmed wheel = index := by
  have hp : (s.typingAttributes.font.getD options.normalFont).pointSize = n := (hc.pointSize h).trans hf
  have hf : s.font.pointSize = n := hc.font ▸ hf
  cases wheel <;> simp only [selectedIndex, Option.map_eq_some_iff, Option.some_inj] at hs
  case firstLineHeadIndent | headIndent =>
    subst hs
    have hi := indentRow_rowIndent hr h₀ hn
    nth_rewrite 1 [← hf] at hi
    rwa [← hp] at hi
  case tailIndent =>
    subst hs
    have hi := truncate_tailIndent hr h₀ hn
    nth_rewrite 1 [← hf] at hi
    rwa [← hp] at hi
  all_goals cases hw

theorem currentIndex_selectedIndex_of_ne {wheel' : Wheel} (hc : s.Consistent options item font)
    (hs : s.selectedIndex options index wheel' = some s') (hs' : isShown item wheel') (hw : wheel.Keeps item font)
    (h : wheel' ≠ wheel) : currentIndex options s'.confirmed wheel = currentIndex options s.confirmed wheel := by
  have hw : wheel.isPlain ∨ wheel.isIndent ∧ wheel' ≠ .fontSize := hw.imp_right fun ⟨hi, hn, _⟩ =>
    ⟨hi, fun he => Bool.false_ne_true <| hn.symm.trans <| he ▸ hs'⟩
  cases wheel' <;> simp only [selectedIndex, Option.map_eq_some_iff, Option.some_inj] at hs
  case fontSize | baselineOffset | strokeWidth | expansion =>
    subst hs
    cases wheel <;> first | rfl | exact absurd rfl h | simp [Wheel.isPlain] at hw
  case shadowBlurRadius | shadowOffsetY | shadowOffsetX =>
    subst hs
    cases wheel <;> first | rfl | simp [Wheel.isPlain, Wheel.isIndent] at hw
  case fontColor | fontBackgroundColor | strokeColor =>
    obtain ⟨_, _, rfl⟩ := hs
    cases wheel <;> first | rfl | exact absurd rfl h
  case shadowColor =>
    obtain ⟨_, _, rfl⟩ := hs
    split <;> cases wheel <;> first | rfl | simp [Wheel.isPlain, Wheel.isIndent] at hw
  case lineSpacing | paragraphSpacing | paragraphSpacingBefore | firstLineHeadIndent | headIndent | tailIndent =>
    subst hs
    cases wheel <;> first | exact absurd rfl h | (simp only [currentIndex, ← hc.paragraph]; rfl)
  case lineHeightMultiple =>
    obtain ⟨_, _, rfl⟩ := hs
    cases wheel <;> first | exact absurd rfl h | (simp only [currentIndex, ← hc.paragraph]; rfl)

theorem btnClicked_pointSize {sender : StyleButton} (hc : s.Consistent options item font) :
    ((s.btnClicked options sender).typingAttributes.font.getD options.normalFont).pointSize =
      (s.typingAttributes.font.getD options.normalFont).pointSize := by
  have hf : s.typingAttributes.font.elim 17 UIFont.pointSize =
      (s.typingAttributes.font.getD options.normalFont).pointSize := by
    cases h : s.typingAttributes.font
    case none => exact (hc.normal h).symm
    case some => rfl
  exact hf

theorem btnClicked_consistent {sender : StyleButton} (hc : s.Consistent options item font) :
    (s.btnClicked options sender).Consistent options item font where
  paragraph := hc.paragraph
  normal    := nofun
  pointSize := fun h => (btnClicked_pointSize hc).trans <| hc.pointSize h
  font      := hc.font

theorem currentIndex_btnClicked {sender : StyleButton} (hc : s.Consistent options item font) :
    currentIndex options (s.btnClicked options sender).confirmed wheel = currentIndex options s.confirmed wheel := by
  have hf : ((s.btnClicked options sender).typingAttributes.font.getD options.normalFont).pointSize = _ :=
    btnClicked_pointSize hc
  cases wheel
  case fontSize => exact congrArg (truncate <| · - 10) hf
  case firstLineHeadIndent | headIndent => exact congrArg (indentRow _) hf
  case tailIndent => exact congrArg (truncate <| nearest <| _ / ·) hf
  all_goals rfl

theorem currentIndex_align {alignment : Int} (hc : s.Consistent options item font) :
    currentIndex options (s.setParagraph { s.paragraph with alignment }).confirmed wheel =
      currentIndex options s.confirmed wheel := by
  cases wheel <;> (simp only [currentIndex, ← hc.paragraph]; rfl)

theorem step_currentIndex (hn : (options.colors.map RZRichColor.color).Nodup) (hw : wheel.Keeps item font)
    (hc : s.Consistent options item font) (hs : step options item s e = some s') :
    s'.Consistent options item font ∧ currentIndex options s'.confirmed wheel =
      ((e.row wheel).map Nat.cast).getD (currentIndex options s.confirmed wheel) := by
  cases e
  case select wheel' index =>
    have ⟨⟨hs', hr⟩, hs⟩ := Option.ite_none_right_eq_some.mp hs
    refine ⟨selectedIndex_consistent hc hs' hs, ?_⟩
    by_cases h : wheel' = wheel
    case pos =>
      subst h
      rw [Event.row, if_pos rfl]
      cases hw
      case inl hw => exact currentIndex_selectedIndex hn hr hs hw
      case inr hw =>
        have ⟨hi, h, n, h₀, hn, hf⟩ := hw
        exact currentIndex_selectedIndex_indent hc hr hs hi h h₀ hn hf
    case neg =>
      rw [Event.row, if_neg h]
      exact currentIndex_selectedIndex_of_ne hc hs hs' hw h
  case click =>
    have ⟨_, hs⟩ := Option.ite_none_right_eq_some.mp hs
    exact Option.some.inj hs ▸ ⟨btnClicked_consistent hc, currentIndex_btnClicked hc⟩
  case align =>
    have ⟨_, hs⟩ := Option.ite_none_right_eq_some.mp hs
    exact Option.some.inj hs ▸ ⟨setParagraph_consistent hc, currentIndex_align hc⟩

theorem confirmed_configureViews : (configureViews options attributes).confirmed = attributes :=
  congrArg (fun shadow => { attributes with shadow }) map_shadow_given

theorem configureViews_consistent (hf : attributes.font = none → options.normalFont.pointSize = 17) :
    (configureViews options attributes).Consistent options item (attributes.font.getD options.normalFont) where
  paragraph := rfl
  normal    := hf
  pointSize := fun _ => rfl
  font      := rfl

-- When what was confirmed is configured again, a wheel starts with the row that was selected on it last, whatever was
-- selected and pressed besides. Those for the stroke's color and for the shadow are exceptions to this.
theorem exec_reopened (hn : (options.colors.map RZRichColor.color).Nodup)
    (hf : attributes.font = none → options.normalFont.pointSize = 17)
    (hw : wheel.Keeps item (attributes.font.getD options.normalFont))
    (h : exec options item (configureViews options attributes) es = some s) :
    currentIndex options s.confirmed wheel =
      Register.last (fun e => (e.row wheel).map Nat.cast) (currentIndex options attributes wheel) es := by
  have hr := Register.read_exec (configureViews_consistent hf) h <| step_currentIndex hn hw
  rwa [confirmed_configureViews] at hr

omit [ParagraphStyles] in
theorem exec_reopened_sample : let _ := Sample.styles
    let item : RZToolBarItem := ⟨.paragraph, some [.paragraphTailIndent, .paragraphAlignment, .paragraphlineSpace]⟩
    ∃ s, exec sampleOptions item (configureViews sampleOptions {})
      [.select .tailIndent 20, .align 1, .select .lineSpacing 3, .select .tailIndent 7] = some s ∧
      currentIndex sampleOptions s.confirmed .tailIndent = 7 ∧
      currentIndex sampleOptions s.confirmed .lineSpacing = 3 := by
  let _ := Sample.styles
  let item : RZToolBarItem := ⟨.paragraph, some [.paragraphTailIndent, .paragraphAlignment, .paragraphlineSpace]⟩
  have he : (exec sampleOptions item (configureViews sampleOptions {})
      [.select .tailIndent 20, .align 1, .select .lineSpacing 3, .select .tailIndent 7]).isSome := by
    decide +kernel
  have ⟨s, hs⟩ := Option.isSome_iff_exists.mp he
  have hi : Wheel.Keeps item sampleOptions.normalFont .tailIndent :=
    .inr ⟨rfl, by decide, 17, by decide, by decide, rfl⟩
  exact ⟨s, hs, exec_reopened nodup_colors_sampleOptions (fun _ => rfl) hi hs,
    exec_reopened nodup_colors_sampleOptions (fun _ => rfl) (.inl rfl) hs⟩

-- As long as no color is selected for the stroke, it keeps the one that there was. Otherwise the last one is confirmed
-- if the stroke has a width at that moment. What is selected afterwards neither brings the color back nor removes it,
-- not even a width.
theorem exec_strokeColor (h : exec options item (configureViews options attributes) es = some s) :
    ((∀ e ∈ es, e.row .strokeColor = none) → s.confirmed.strokeColor = attributes.strokeColor) ∧
      ∀ es₁ index es₂, es = es₁ ++ .select .strokeColor index :: es₂ → (∀ e ∈ es₂, e.row .strokeColor = none) →
        ∃ color, options.colors[index]? = some color ∧ s.confirmed.strokeColor =
          if Register.last (Event.number .strokeWidth 10) (attributes.strokeWidth.getD 0) es₁ = 0 then
            none
          else
            some color.color := by
  refine ⟨fun hn => strokeColor_eq hn h, ?_⟩
  rintro es₁ index es₂ rfl hn
  rw [exec, Run.exec_append] at h
  have ⟨s₁, h₁, h⟩ := Option.bind_eq_some_iff.mp h
  have ⟨s₂, hs, h₂⟩ := Run.exec_cons_eq_some.mp h
  have hv := Register.read_exec' h₁ step_value
  have ⟨_, hi⟩ := Option.ite_none_right_eq_some.mp hs
  have ⟨color, hi, _⟩ := Option.map_eq_some_iff.mp hi
  have hc : s₂.typingAttributes.strokeColor = if s₁.value = 0 then none else some color.color := by
    rw [step_strokeColor hs, Event.color, Event.row, if_pos rfl, Option.bind_some, hi, Option.map_some,
      Option.getD_some]
  exact ⟨color, hi, (strokeColor_eq hn h₂).trans <| hv ▸ hc⟩

omit [ParagraphStyles] in
theorem exec_strokeColor_sample : let _ := Sample.styles
    ∃ s, exec sampleOptions (sampleItem [.stroken]) (configureViews sampleOptions {})
      [.select .strokeColor 9, .select .strokeWidth 13] = some s ∧ s.confirmed.strokeColor = none := by
  let _ := Sample.styles
  have he : (exec sampleOptions (sampleItem [.stroken]) (configureViews sampleOptions {})
      [.select .strokeColor 9, .select .strokeWidth 13]).isSome := by
    decide +kernel
  have ⟨s, hs⟩ := Option.isSome_iff_exists.mp he
  have hn : ∀ e ∈ [Event.select .strokeWidth 13], e.row .strokeColor = none := by simp [Event.row]
  have ⟨_, _, hc⟩ := (exec_strokeColor hs).right [] 9 [.select .strokeWidth 13] rfl hn
  exact ⟨s, hs, hc⟩

-- The color of a shadow decides on it: as long as none is selected, the shadow stays the one that there was, whatever
-- is selected on the other wheels; and the color for no shadow removes it. Otherwise it has what was selected last, be
-- it before or after the color.
theorem exec_shadow (h : exec options item (configureViews options attributes) es = some s) :
    s.confirmed.shadow = (es.filterMap (Event.color options .shadowColor)).getLast?.elim attributes.shadow fun color =>
      (shadowColor color).map fun shadowColor => {
        shadowOffset.width  := Register.last (fun e => (e.number .shadowOffsetX 100).map Int.cast)
          attributes.shadowCopy.shadowOffset.width es
        shadowOffset.height := Register.last (fun e => (e.number .shadowOffsetY 100).map Int.cast)
          attributes.shadowCopy.shadowOffset.height es
        shadowBlurRadius    := Register.last (fun e => (e.number .shadowBlurRadius 0).map Int.cast)
          attributes.shadowCopy.shadowBlurRadius es
        shadowColor } := by
  have hx := Register.read_exec' h fun hs => congrArg (·.shadowOffset.width) (step_shadow hs).left
  have hy := Register.read_exec' h fun hs => congrArg (·.shadowOffset.height) (step_shadow hs).left
  have hb := Register.read_exec' h fun hs => congrArg (·.shadowBlurRadius) (step_shadow hs).left
  have hc := Register.read_exec' h fun hs => congrArg (·.shadowColor) (step_shadow hs).left
  have hr := Register.read_exec' h fun hs => (step_shadow hs).right
  rw [Register.last_map] at hc hr
  rw [confirmed_shadow, hr]
  cases hl : (es.filterMap <| Event.color options .shadowColor).getLast?
  case none => exact map_shadow_given
  case some color =>
    have he : s.shadow = ⟨⟨s.shadow.shadowOffset.width, s.shadow.shadowOffset.height⟩, s.shadow.shadowBlurRadius,
      s.shadow.shadowColor⟩ := rfl
    rw [hx, hy, hb, hc, hl] at he
    simp only [Option.elim_some] at he ⊢
    cases hs : shadowColor color
    case none => rfl
    case some => exact congrArg some <| he.trans <| hs ▸ rfl

omit [ParagraphStyles] in
theorem exec_shadow_sample : let _ := Sample.styles
    ∃ s, exec sampleOptions (sampleItem [.shadow]) (configureViews sampleOptions {})
      [.select .shadowBlurRadius 4, .select .shadowColor 1, .select .shadowOffsetX 103] = some s ∧
      s.confirmed.shadow = some ⟨⟨3, 0⟩, 4, some ⟨0, 0, 0, 1⟩⟩ := by
  let _ := Sample.styles
  have he : (exec sampleOptions (sampleItem [.shadow]) (configureViews sampleOptions {})
      [.select .shadowBlurRadius 4, .select .shadowColor 1, .select .shadowOffsetX 103]).isSome := by
    decide +kernel
  have ⟨s, hs⟩ := Option.isSome_iff_exists.mp he
  exact ⟨s, hs, exec_shadow hs |>.trans <| by decide +kernel⟩

end RZRichFontConfigureViewController
end RichText

import SwiftProjectKit.Navigation.Model

namespace Navigation
namespace BaseNavigationController

open Heap (Ref)

variable {s s' : BaseNavigationController} {e : Event} {r root vc : Ref} {rs : List Ref}

def hidesBottomBar (s : BaseNavigationController) (r : Ref) : Bool :=
  (s.objects.get r).hidesBottomBarWhenPushed

def leftItem (s : BaseNavigationController) (r : Ref) : Option UIBarButtonItem :=
  (s.objects.get r).leftBarButtonItem

-- The root shows the bottom bar and was never given a back button. All other controllers hide the
-- bottom bar and have a button.
structure IsConfigured (s : BaseNavigationController) : Prop where
  root   : ∀ r ∈ s.viewControllers.head?, s.hidesBottomBar r = false ∧ r ∉ s.backButtons
  others : ∀ r ∈ s.viewControllers.tail, s.hidesBottomBar r ∧ (s.leftItem r).isSome

def KeepsRoot (s : BaseNavigationController) : Event → Prop
  | .setViewControllers rs =>
    if s.viewControllers = [] then rs.length = 1 else rs.head? = s.viewControllers.head?
  | _ => True

theorem isFirstVC_of_nil (h : s.viewControllers = []) : s.isFirstVC r := by
  simp [isFirstVC, h]

theorem isFirstVC_iff (h : s.viewControllers.head? = some root) : s.isFirstVC r ↔ r = root := by
  have ⟨rs, hs⟩ := List.head?_eq_some_iff.mp h
  by_cases hr : root = r
  case pos => simp [isFirstVC, hs, hr, List.idxOf?_cons]
  case neg =>
    cases hi : rs.idxOf? r
    all_goals simp [isFirstVC, hs, hr, Ne.symm hr, List.idxOf?_cons, hi]

theorem configure_configure {vc : UIViewController} {isFirstVC : Bool} :
    (vc.configure isFirstVC).configure isFirstVC = vc.configure isFirstVC := by
  cases h : vc.leftBarButtonItem <;> cases isFirstVC <;> simp [UIViewController.configure, h]

theorem configure_hidesBottomBar {vc : UIViewController} {isFirstVC : Bool} :
    (vc.configure isFirstVC).hidesBottomBarWhenPushed = !isFirstVC := by
  simp only [UIViewController.configure]
  split <;> rfl

theorem configure_leftItem {vc : UIViewController} :
    (vc.configure false).leftBarButtonItem.isSome := by
  cases h : vc.leftBarButtonItem <;> simp [UIViewController.configure, h]

structure Configures (s : BaseNavigationController) (rs : List Ref) (s' : BaseNavigationController) :
    Prop where
  viewControllers : s'.viewControllers = s.viewControllers
  get_of_mem      : ∀ r ∈ rs, s'.objects.get r = (s.objects.get r).configure (s.isFirstVC r)
  get_of_not_mem  : ∀ r, r ∉ rs → s'.objects.get r = s.objects.get r
  backButtons     : ∀ r ∈ s'.backButtons, r ∈ s.backButtons ∨ r ∈ rs ∧ s.isFirstVC r = false

theorem customsBackImageConfig_configures (s : BaseNavigationController) (r : Ref) :
    Configures s [r] (s.customsBackImageConfig r) where
  viewControllers := rfl
  get_of_mem r' hr := by
    cases List.mem_singleton.mp hr
    simp only [customsBackImageConfig, Heap.modify_get_self]
  get_of_not_mem r' hr := by
    simp only [customsBackImageConfig, Heap.modify_get_of_ne <| List.ne_of_not_mem_cons hr]
  backButtons r' hr := by
    simp only [customsBackImageConfig] at hr
    split at hr
    case isFalse => exact .inl hr
    case isTrue hn =>
      simp only [Bool.and_eq_true, Bool.not_eq_true'] at hn
      cases List.mem_append.mp hr
      case inl hr => exact .inl hr
      case inr hr =>
        cases List.mem_singleton.mp hr
        exact .inr ⟨hr, hn.right⟩

theorem foldl_configures (s : BaseNavigationController) (rs : List Ref) :
    Configures s rs (rs.foldl customsBackImageConfig s) := by
  induction rs generalizing s
  case nil => exact ⟨rfl, nofun, fun _ _ => rfl, fun _ => .inl⟩
  case cons r rs hi =>
    have hc := customsBackImageConfig_configures s r
    have hi := hi (s.customsBackImageConfig r)
    have hf : ∀ r', (s.customsBackImageConfig r).isFirstVC r' = s.isFirstVC r' := fun _ => rfl
    refine ⟨hi.viewControllers, fun r' hr => ?_, fun r' hr => ?_, fun r' hr => ?_⟩
    · by_cases hm : r' ∈ rs
      case pos =>
        rw [List.foldl_cons, hi.get_of_mem r' hm, hf]
        by_cases he : r' ∈ [r]
        case pos => rw [hc.get_of_mem r' he, configure_configure]
        case neg => rw [hc.get_of_not_mem r' he]
      case neg =>
        have he : r' ∈ [r] := List.mem_singleton.mpr <| (List.mem_cons.mp hr).resolve_right hm
        rw [List.foldl_cons, hi.get_of_not_mem r' hm, hc.get_of_mem r' he]
    · have hm : r' ∉ rs := fun hm => hr <| List.mem_cons_of_mem _ hm
      have he : r' ∉ [r] := fun he => hr <| List.mem_cons.mpr <| .inl <| List.mem_singleton.mp he
      rw [List.foldl_cons, hi.get_of_not_mem r' hm, hc.get_of_not_mem r' he]
    · cases hi.backButtons r' hr
      case inr hr => exact .inr ⟨List.mem_cons_of_mem _ hr.left, hr.right⟩
      case inl hr =>
        cases hc.backButtons r' hr
        case inl hr => exact .inl hr
        case inr hr => exact .inr ⟨List.mem_cons.mpr <| .inl <| List.mem_singleton.mp hr.left, hr.right⟩

namespace Configures

variable (h : Configures s rs s')
include h

theorem hidesBottomBar (hr : r ∈ rs) : s'.hidesBottomBar r = !s.isFirstVC r := by
  rw [BaseNavigationController.hidesBottomBar, h.get_of_mem r hr, configure_hidesBottomBar]

theorem leftItem (hr : r ∈ rs) (hf : s.isFirstVC r = false) : (s'.leftItem r).isSome := by
  rw [BaseNavigationController.leftItem, h.get_of_mem r hr, hf]
  exact configure_leftItem

theorem hidesBottomBar_of_not_mem (hr : r ∉ rs) : s'.hidesBottomBar r = s.hidesBottomBar r := by
  rw [BaseNavigationController.hidesBottomBar, h.get_of_not_mem r hr]
  rfl

theorem leftItem_of_not_mem (hr : r ∉ rs) : s'.leftItem r = s.leftItem r := by
  rw [BaseNavigationController.leftItem, h.get_of_not_mem r hr]
  rfl

end Configures

theorem IsConfigured.pop (h : s.IsConfigured) (hp : rs <+: s.viewControllers) :
    IsConfigured { s with viewControllers := rs } := by
  have ⟨_, ht⟩ := hp
  cases rs
  case nil => exact ⟨nofun, nofun⟩
  case cons root rs =>
    refine ⟨fun r hr => h.root r ?_, fun r hr => h.others r ?_⟩
    · exact ht ▸ hr
    · exact ht ▸ List.mem_append_left _ hr

theorem pushViewController_isConfigured (h : s.IsConfigured)
    (hn : s.viewControllers = [] → s.backButtons = []) (hr : r ∉ s.viewControllers) :
    (s.pushViewController r).IsConfigured := by
  have hc := customsBackImageConfig_configures s r
  have hm := List.mem_singleton_self r
  cases hs : s.viewControllers
  case nil =>
    have hf := isFirstVC_of_nil (r := r) hs
    have hb : r ∉ (s.customsBackImageConfig r).backButtons := fun hb => by
      cases hc.backButtons r hb
      case inl hb => simp [hn hs] at hb
      case inr hb => simp [hf] at hb
    refine ⟨fun r' hr' => ?_, fun r' hr' => ?_⟩
    · have hr' : r = r' := by simpa [pushViewController, hs] using hr'
      exact hr' ▸ ⟨(hc.hidesBottomBar hm).trans <| by simp [hf], hb⟩
    · simp [pushViewController, hs] at hr'
  case cons root rs =>
    have hroot : s.viewControllers.head? = some root := by simp [hs]
    have hne : ∀ r' ∈ s.viewControllers, r' ∉ [r] := fun r' hr' he =>
      hr <| List.mem_singleton.mp he ▸ hr'
    have hf : s.isFirstVC r = false := by
      refine Bool.eq_false_iff.mpr fun hf => hr ?_
      rw [isFirstVC_iff hroot |>.mp hf, hs]
      exact List.mem_cons_self
    refine ⟨fun r' hr' => ?_, fun r' hr' => ?_⟩
    · have hr' : root = r' := by simpa [pushViewController, hs] using hr'
      have hroot := hr' ▸ hroot
      have ⟨hh, hb⟩ := h.root r' hroot
      have hn := hne r' <| List.mem_of_mem_head? hroot
      refine ⟨(hc.hidesBottomBar_of_not_mem hn).trans hh, fun hb' => ?_⟩
      cases hc.backButtons r' hb'
      case inl hb' => exact hb hb'
      case inr hb' => exact hn hb'.left
    · have hr' : r' ∈ rs ∨ r' = r := by simpa [pushViewController, hs] using hr'
      cases hr'
      case inr he =>
        subst he
        exact ⟨(hc.hidesBottomBar hm).trans <| by simp [hf], hc.leftItem hm hf⟩
      case inl hr' =>
        have ⟨hh, hl⟩ := h.others r' <| by simpa [hs] using hr'
        have hn := hne r' <| by simp [hs, hr']
        exact ⟨(hc.hidesBottomBar_of_not_mem hn).trans hh, (hc.leftItem_of_not_mem hn).symm ▸ hl⟩

-- Controllers that are set while there are none are all configured as if they were the root.
theorem setViewControllers_of_nil (hs : s.viewControllers = []) (hn : s.backButtons = [])
    (hrs : rs ≠ []) : (s.setViewControllers rs).IsConfigured ↔ rs.length = 1 := by
  have hc := foldl_configures s rs
  have hf : ∀ r, s.isFirstVC r := fun r => isFirstVC_of_nil hs
  have ⟨root, rs', hrs'⟩ := List.exists_cons_of_ne_nil hrs
  subst hrs'
  constructor
  case mp =>
    intro h
    cases rs'
    case nil => rfl
    case cons r rs' =>
      have hm : r ∈ root :: r :: rs' := by simp
      have hh := h.others r List.mem_cons_self |>.left
      have hh' := hc.hidesBottomBar hm
      rw [hf] at hh'
      exact absurd (hh'.symm.trans hh) Bool.false_ne_true
  case mpr =>
    intro hl
    cases List.length_eq_zero_iff.mp <| Nat.succ.inj hl
    refine ⟨fun r hr => ?_, nofun⟩
    cases Option.some.inj hr
    have hm := List.mem_singleton_self root
    refine ⟨(hc.hidesBottomBar hm).trans <| by rw [hf]; rfl, fun hb => ?_⟩
    cases hc.backButtons root hb
    case inl hb => simp [hn] at hb
    case inr hb => simp [hf] at hb

theorem setViewControllers_of_head? (h : s.IsConfigured) (hs : s.viewControllers.head? = some root)
    (hrs : rs ≠ []) (hd : rs.Nodup) :
    (s.setViewControllers rs).IsConfigured ↔ rs.head? = some root := by
  have hc := foldl_configures s rs
  have hf : ∀ r, s.isFirstVC r ↔ r = root := fun r => isFirstVC_iff hs
  have ⟨r₀, rs', hrs'⟩ := List.exists_cons_of_ne_nil hrs
  subst hrs'
  constructor
  case mp =>
    intro h
    have hh := h.root r₀ rfl |>.left
    have hh' := hc.hidesBottomBar List.mem_cons_self
    have hr : s.isFirstVC r₀ := by simpa using hh'.symm.trans hh
    exact congrArg some <| (hf r₀).mp hr
  case mpr =>
    intro hr
    cases Option.some.inj hr
    refine ⟨fun r hr => ?_, fun r hr => ?_⟩
    · cases Option.some.inj hr
      have hr := (hf root).mpr rfl
      refine ⟨(hc.hidesBottomBar List.mem_cons_self).trans <| by rw [hr]; rfl, fun hb => ?_⟩
      cases hc.backButtons root hb
      case inl hb => exact h.root root hs |>.right hb
      case inr hb => exact absurd (hr.symm.trans hb.right) (by simp)
    · have hm : r ∈ root :: rs' := List.mem_cons_of_mem _ hr
      have hne : r ≠ root := ne_of_mem_of_not_mem hr <| List.nodup_cons.mp hd |>.left
      have hr : s.isFirstVC r = false := Bool.eq_false_iff.mpr <| mt (hf r).mp hne
      exact ⟨(hc.hidesBottomBar hm).trans <| by rw [hr]; rfl, hc.leftItem hm hr⟩

def IsRooted (s : BaseNavigationController) : Prop :=
  s.viewControllers = [] → s.backButtons = []

theorem step_isRooted (h : s.IsRooted) (hs : s.step e = some s') : s'.IsRooted := by
  intro hn
  cases e
  case pushViewController =>
    simp only [step, Option.ite_none_left_eq_some, Option.some.injEq] at hs
    simp [← hs.right, pushViewController] at hn
  case setViewControllers rs =>
    simp only [step, Option.ite_none_right_eq_some, Option.some.injEq] at hs
    cases hs.right
    exact absurd hn hs.left.left
  case didShow =>
    cases Option.some.inj hs
    exact h hn
  case popViewController =>
    cases Option.some.inj hs
    rw [popViewController] at hn ⊢
    split at hn
    case isTrue hl  => rw [if_pos hl]; exact h hn
    case isFalse hl =>
      have hd := congrArg List.length hn
      rw [List.length_dropLast, List.length_nil] at hd
      omega
  case popToViewController =>
    cases Option.some.inj hs
    rw [popToViewController] at hn ⊢
    split at hn
    case isTrue hl  => rw [if_pos hl]; exact h <| by simpa using hn
    case isFalse hl => rw [if_neg hl]; exact h hn
  case popToRootViewController =>
    cases Option.some.inj hs
    exact h <| by simpa [popToRootViewController] using hn

theorem step_isConfigured_iff (h : s.IsRooted) (hc : s.IsConfigured) (hs : s.step e = some s') :
    s'.IsConfigured ↔ s.KeepsRoot e := by
  cases e
  case pushViewController =>
    simp only [step, Option.ite_none_left_eq_some, Option.some.injEq] at hs
    have ⟨hr, hs⟩ := hs
    exact iff_of_true (hs ▸ pushViewController_isConfigured hc h hr) trivial
  case setViewControllers rs =>
    simp only [step, Option.ite_none_right_eq_some, Option.some.injEq] at hs
    have ⟨⟨hrs, hd⟩, hs⟩ := hs
    rw [← hs, KeepsRoot]
    cases hl : s.viewControllers.head?
    case none =>
      have hl := List.head?_eq_none_iff.mp hl
      rw [if_pos hl, setViewControllers_of_nil hl (h hl) hrs]
    case some root =>
      have hn : s.viewControllers ≠ [] := fun hn => by simp [hn] at hl
      rw [if_neg hn, setViewControllers_of_head? hc hl hrs hd]
  case popViewController =>
    refine iff_of_true ?_ trivial
    cases Option.some.inj hs
    rw [popViewController]
    split
    case isTrue  => exact hc
    case isFalse => exact hc.pop <| List.dropLast_prefix _
  case popToViewController =>
    refine iff_of_true ?_ trivial
    cases Option.some.inj hs
    rw [popToViewController]
    split
    case isTrue  => exact hc.pop <| List.take_prefix _ _
    case isFalse => exact hc
  case popToRootViewController =>
    cases Option.some.inj hs
    exact iff_of_true (hc.pop <| List.take_prefix _ _) trivial
  case didShow =>
    cases Option.some.inj hs
    exact iff_of_true ⟨hc.root, hc.others⟩ trivial

theorem always_isConfigured_iff (objects : Heap UIViewController) (es : List Event) :
    Run.Always step IsConfigured (start objects) es ↔ Run.Meets step KeepsRoot (start objects) es :=
  Run.always_iff_meets step_isRooted step_isConfigured_iff (fun _ => rfl)
    ⟨nofun, nofun⟩

theorem keepsRoot_replacing_iff (hs : s.viewControllers = root :: rs) (hd : (root :: rs).Nodup)
    (hv : vc ≠ root) : s.KeepsRoot (.setViewControllers <| s.replacing r vc) ↔ r ≠ root := by
  have hr : ((root :: rs).reverse.erase r).reverse = (root :: rs).filter (· != r) := by
    rw [List.Nodup.erase_eq_filter <| List.nodup_reverse.mpr hd, ← List.filter_reverse,
      List.reverse_reverse]
  have hn : root ∉ rs.filter (· != r) := fun hm =>
    List.nodup_cons.mp hd |>.left <| List.mem_of_mem_filter hm
  simp only [KeepsRoot, replacing, hs, List.cons_ne_nil, if_false, List.head?_cons, hr]
  constructor
  case mp =>
    intro h he
    rw [List.filter_cons_of_neg (by simp [he])] at h
    cases List.mem_append.mp <| List.mem_of_mem_head? h
    case inl hm => exact hn hm
    case inr hm => exact hv (List.mem_singleton.mp hm).symm
  case mpr =>
    intro hr
    rw [List.filter_cons_of_pos (by simpa using Ne.symm hr)]
    rfl

-- The root replaces itself by a controller that is then configured as if it were not the root.
theorem removeSelf_not_isConfigured :
    ∃ s₁ s₂, exec (start ⟨fun _ => {}, 2⟩) [.pushViewController 0] = some s₁ ∧
      s₁.step (.setViewControllers <| s₁.replacing 0 1) = some s₂ ∧ s₂.viewControllers = [1] ∧
        s₂.hidesBottomBar 1 ∧ 1 ∈ s₂.backButtons ∧ ¬s₂.IsConfigured := by
  refine ⟨_, _, rfl, rfl, rfl, rfl, List.mem_singleton_self 1, fun h => ?_⟩
  exact Bool.false_ne_true (h.root 1 rfl).left.symm

end BaseNavigationController
end Navigation

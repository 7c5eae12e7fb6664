import Mathlib.Tactic.Abel
import SwiftProjectKit.Primitives.Deferred
import SwiftProjectKit.Primitives.Refinement
import SwiftProjectKit.Promise.Box

namespace PromiseKit

variable {H R : Type*}

namespace Sealant

def handlers : Sealant H R → List H
  | pending handlers => handlers
  | resolved _       => []

def value : Sealant H R → Option R
  | pending _      => none
  | resolved value => value

end Sealant

namespace Activity

def waiting : Activity H R → List H
  | «seal» _ => []
  | forEach bodies _ => bodies
  | pipe handler | inspect handler | sealed handler | resolve handler _ => [handler]

def Fits (sealant : Sealant H R) : Activity H R → Prop
  | forEach _ value | resolve _ value => sealant = .resolved value
  | sealed _ => sealant.value.isSome
  | _        => True

def work : Activity H R → Nat
  | «seal» _         => 2
  | forEach bodies _ => bodies.length + 1
  | pipe _           => 3
  | inspect _        => 2
  | sealed _         => 1
  | resolve _ _      => 1

end Activity

namespace EmptyBox

variable {s s' : EmptyBox H R} {e : Event H R} {es es' : List (Event H R)} {i : Nat}
variable {as as' : List (Activity H R)} {a : Activity H R}

inductive Performs (s : EmptyBox H R) (as as' : List (Activity H R)) : Activity H R → EmptyBox H R → Prop
  | settle {handlers : List H} {value : R} (hs : s.sealant = .pending handlers) :
    Performs s as as' (.seal value) {
      s with sealant := .resolved value, activities := as ++ .forEach handlers value :: as' }
  | refuse {value value' : R} (hs : s.sealant = .resolved value') :
    Performs s as as' (.seal value) { s with activities := as ++ as' }
  | finish {value : R} : Performs s as as' (.forEach [] value) { s with activities := as ++ as' }
  | body {body : H} {bodies : List H} {value : R} : Performs s as as' (.forEach (body :: bodies) value) {
      s.call body value with activities := as ++ .forEach bodies value :: as' }
  | inspect {handler : H} {handlers : List H} (hs : s.sealant = .pending handlers) :
    Performs s as as' (.pipe handler) { s with activities := as ++ .inspect handler :: as' }
  | resolve {handler : H} {value : R} (hs : s.sealant = .resolved value) :
    Performs s as as' (.pipe handler) { s with activities := as ++ .resolve handler value :: as' }
  | append {handler : H} {handlers : List H} (hs : s.sealant = .pending handlers) :
    Performs s as as' (.inspect handler) {
      s with sealant := .pending (handlers ++ [handler]), activities := as ++ as' }
  | sealed {handler : H} {value : R} (hs : s.sealant = .resolved value) :
    Performs s as as' (.inspect handler) { s with activities := as ++ .sealed handler :: as' }
  | late {handler : H} {value : R} (hs : s.sealant = .resolved value) :
    Performs s as as' (.sealed handler) { s.call handler value with activities := as ++ as' }
  | resolved {handler : H} {value : R} :
    Performs s as as' (.resolve handler value) { s.call handler value with activities := as ++ as' }

def Sound (s : EmptyBox H R) : Prop :=
  ∀ a ∈ s.activities, a.Fits s.sealant

theorem performs_perform (hs : s.Sound) (ha : s.activities = as ++ a :: as') :
    Performs s as as' a (s.perform as.length a) := by
  have hf : a.Fits s.sealant := hs a <| by simp [ha]
  have he : (as ++ a :: as').eraseIdx as.length = as ++ as' := by
    simp [List.eraseIdx_append_of_length_le]
  cases a
  case «seal» value =>
    cases hs : s.sealant
    case pending  => simpa [perform, goto, ha, hs] using Performs.settle hs
    case resolved => simpa [perform, leave, ha, hs, he] using Performs.refuse hs
  case forEach bodies value =>
    cases bodies
    case nil  => simpa [perform, leave, ha, he] using Performs.finish
    case cons => simpa [perform, goto, call, ha] using Performs.body
  case pipe handler =>
    cases hs : s.sealant
    case pending  => simpa [perform, goto, ha, hs] using Performs.inspect hs
    case resolved => simpa [perform, goto, ha, hs] using Performs.resolve hs
  case inspect handler =>
    cases hs : s.sealant
    case pending  => simpa [perform, leave, ha, hs, he] using Performs.append hs
    case resolved => simpa [perform, goto, ha, hs] using Performs.sealed hs
  case sealed handler =>
    cases hs : s.sealant
    case pending  => simp [Activity.Fits, hs, Sealant.value] at hf
    case resolved => simpa [perform, leave, call, ha, hs, he] using Performs.late hs
  case resolve => simpa [perform, leave, call, ha, he] using Performs.resolved

inductive Effect (s : EmptyBox H R) : Event H R → EmptyBox H R → Prop
  | «seal» {value : R} : Effect s (.seal value) { s with activities := s.activities ++ [.seal value] }
  | pipe {handler : H} : Effect s (.pipe handler) { s with activities := s.activities ++ [.pipe handler] }
  | perform {as as' : List (Activity H R)} {a : Activity H R} {s' : EmptyBox H R}
    (ha : s.activities = as ++ a :: as') (hp : Performs s as as' a s') : Effect s (.perform as.length) s'

theorem exists_activities (h : s.activities[i]? = some a) :
    ∃ as as', s.activities = as ++ a :: as' ∧ as.length = i := by
  have ⟨hl, ha⟩ := List.getElem?_eq_some_iff.mp h
  refine ⟨s.activities.take i, s.activities.drop (i + 1), ?_, List.length_take_of_le hl.le⟩
  rw [← ha, List.getElem_cons_drop, List.take_append_drop]

theorem step_effect (h : s.Sound) (hs : s.step e = some s') : Effect s e s' := by
  cases e
  case «seal» => exact Option.some.inj hs ▸ .seal
  case pipe   => exact Option.some.inj hs ▸ .pipe
  case perform i =>
    have ⟨a, hi, hs⟩ := Option.map_eq_some_iff.mp hs
    have ⟨as, as', ha, hi⟩ := exists_activities hi
    subst hs hi
    exact .perform ha <| performs_perform h ha

theorem Fits.mono {sealant sealant' : Sealant H R} (h : a.Fits sealant)
    (hs : ∀ value, sealant = .resolved value → sealant' = .resolved value) : a.Fits sealant' := by
  cases a
  case forEach => exact hs _ h
  case resolve => exact hs _ h
  case sealed  =>
    cases sealant
    case pending        => nomatch h
    case resolved value => exact hs value rfl ▸ rfl
  all_goals trivial

theorem Sound.drop (h : s.Sound) (ha : s.activities = as ++ a :: as') (ha' : s'.activities = as ++ as')
    (hs : ∀ value, s.sealant = .resolved value → s'.sealant = .resolved value) : s'.Sound := by
  intro b hb
  refine Fits.mono (h b ?_) hs
  rw [ha]
  rcases List.mem_append.mp (ha' ▸ hb) with hb | hb
  · exact List.mem_append_left _ hb
  · exact List.mem_append_right _ <| .tail _ hb

theorem Sound.replace {b : Activity H R} (h : s.Sound) (ha : s.activities = as ++ a :: as')
    (ha' : s'.activities = as ++ b :: as')
    (hs : ∀ value, s.sealant = .resolved value → s'.sealant = .resolved value) (hb : b.Fits s'.sealant) :
    s'.Sound := by
  have hd : Sound { s' with activities := as ++ as' } := h.drop ha rfl hs
  intro c hc
  rw [ha', List.mem_append, List.mem_cons, or_left_comm] at hc
  rcases hc with rfl | hc
  · exact hb
  · exact hd c <| List.mem_append.mpr hc

theorem Sound.add {b : Activity H R} (h : s.Sound) (hb : b.Fits s.sealant) :
    Sound { s with activities := s.activities ++ [b] } := by
  intro c hc
  rcases List.mem_append.mp hc with hc | hc
  · exact h c hc
  · exact List.mem_singleton.mp hc ▸ hb

theorem Effect.sound (he : Effect s e s') (h : s.Sound) : s'.Sound := by
  cases he
  case «seal» => exact h.add trivial
  case pipe   => exact h.add trivial
  case perform ha hp =>
    have hf := h _ (ha ▸ List.mem_append_right _ List.mem_cons_self)
    cases hp
    case settle hs  => exact h.replace ha rfl (by simp [hs]) rfl
    case refuse     => exact h.drop ha rfl fun _ => id
    case finish     => exact h.drop ha rfl fun _ => id
    case body       => exact h.replace ha rfl (fun _ => id) hf
    case inspect    => exact h.replace ha rfl (fun _ => id) trivial
    case resolve hs => exact h.replace ha rfl (fun _ => id) hs
    case append hs  => exact h.drop ha rfl (by simp [hs])
    case sealed hs  => exact h.replace ha rfl (fun _ => id) (by simp [Activity.Fits, hs, Sealant.value])
    case late       => exact h.drop ha rfl fun _ => id
    case resolved   => exact h.drop ha rfl fun _ => id

theorem exec_sound (h : s.Sound) (he : exec s es = some s') : s'.Sound :=
  Run.invariant' (fun hi hs => (step_effect hi hs).sound hi) h he

theorem sound_empty : Sound ({} : EmptyBox H R) :=
  nofun

structure Grows (s s' : EmptyBox H R) : Prop where
  calls   : s.calls <+: s'.calls
  sealant : ∀ value, s.sealant = .resolved value → s'.sealant = .resolved value

theorem Grows.refl (s : EmptyBox H R) : s.Grows s :=
  ⟨List.prefix_rfl, fun _ => id⟩

theorem Grows.trans {s₁ s₂ s₃ : EmptyBox H R} (h : s₁.Grows s₂) (h' : s₂.Grows s₃) : s₁.Grows s₃ :=
  ⟨h.calls.trans h'.calls, fun value hs => h'.sealant value <| h.sealant value hs⟩

theorem Effect.grows (he : Effect s e s') : s.Grows s' := by
  cases he
  case «seal» => exact ⟨List.prefix_rfl, fun _ => id⟩
  case pipe   => exact ⟨List.prefix_rfl, fun _ => id⟩
  case perform ha hp =>
    cases hp
    case settle hs => exact ⟨List.prefix_rfl, by simp [hs]⟩
    case append hs => exact ⟨List.prefix_rfl, by simp [hs]⟩
    case body      => exact ⟨List.prefix_append _ _, fun _ => id⟩
    case late      => exact ⟨List.prefix_append _ _, fun _ => id⟩
    case resolved  => exact ⟨List.prefix_append _ _, fun _ => id⟩
    all_goals exact ⟨List.prefix_rfl, fun _ => id⟩

theorem exec_grows (h : s.Sound) (he : exec s es = some s') : s.Grows s' :=
  Run.relates (r := Grows) Grows.refl Grows.trans
    (fun hi hs => ⟨(step_effect hi hs).sound hi, (step_effect hi hs).grows⟩) h he

-- The box as a value with the handlers that wait for it, wherever these are kept.
def deferred (s : EmptyBox H R) : Deferred.State H R where
  value   := s.sealant.value
  waiting := s.sealant.handlers + (s.activities.map fun a => (a.waiting : Multiset H)).sum
  calls   := s.calls

def Event.piped : Event H R → Option H
  | pipe handler => handler
  | _            => none

def rest (as as' : List (Activity H R)) : Multiset H :=
  ((as ++ as').map fun a => (a.waiting : Multiset H)).sum

theorem deferred_append {sealant : Sealant H R} {calls : List (H × R)} :
    deferred { sealant, activities := as ++ as', calls } = {
      value   := sealant.value
      waiting := sealant.handlers + rest as as'
      calls   := calls } :=
  rfl

theorem deferred_cons {sealant : Sealant H R} {calls : List (H × R)} :
    deferred { sealant, activities := as ++ a :: as', calls } = {
      value   := sealant.value
      waiting := sealant.handlers + (a.waiting + rest as as')
      calls   := calls } := by
  simp [deferred, rest, add_left_comm]

theorem deferred_eq (ha : s.activities = as ++ a :: as') : s.deferred = {
    value   := s.sealant.value
    waiting := s.sealant.handlers + (a.waiting + rest as as')
    calls   := s.calls } := by
  rw [← deferred_cons, ← ha]

structure Traced (es : List (Event H R)) (s : EmptyBox H R) : Prop where
  sound  : s.Sound
  source : ∀ value, s.sealant = .resolved value ∨ .seal value ∈ s.activities → .seal value ∈ es
  effect : ∀ value, .seal value ∈ es → s.sealant.value.isSome ∨ .seal value ∈ s.activities

theorem traced_empty : Traced [] ({} : EmptyBox H R) :=
  ⟨sound_empty, by simp, nofun⟩

theorem Effect.traced (he : Effect s e s') (h : s.Traced es) : s'.Traced (es ++ [e]) := by
  have ⟨hs, h₁, h₂⟩ := h
  refine ⟨he.sound hs, ?_, ?_⟩
  all_goals
    cases he
    case «seal» => grind
    case pipe   => grind
    case perform ha hp => cases hp <;> grind [call, Sealant.value]

theorem exec_traced (h : exec {} es = some s) : s.Traced es :=
  Run.invariant_of_events (fun h hs => (step_effect h.sound hs).traced h) traced_empty h

def work (s : EmptyBox H R) : Nat :=
  s.sealant.handlers.length + (s.activities.map Activity.work).sum

theorem Performs.work (hp : Performs s as as' a s') (ha : s.activities = as ++ a :: as') :
    s'.work < s.work := by
  cases hp
  all_goals simp +arith [EmptyBox.work, Activity.work, Sealant.handlers, call, *]

theorem exec_work {is : List Nat} (hs : s.Sound) (h : exec s (is.map .perform) = some s') :
    is.length + s'.work ≤ s.work := by
  induction is generalizing s
  case nil => exact Option.some.inj h ▸ (Nat.zero_add _).le
  case cons i is hi =>
    have ⟨s₁, he, h⟩ := Run.exec_cons_eq_some.mp h
    have he := step_effect hs he
    have hi := hi (he.sound hs) h
    cases he
    case perform ha hp =>
      have hw := hp.work ha
      rw [List.length_cons]
      omega

theorem activities_eq_nil_iff : s.activities = [] ↔ ∀ i, s.step (.perform i) = none := by
  simp only [step, Option.map_eq_none_iff]
  constructor
  case mp  => exact fun h i => h ▸ List.getElem?_nil
  case mpr => exact fun h => List.eq_nil_of_length_eq_zero <| Nat.le_zero.mp <| List.getElem?_eq_none_iff.mp (h 0)

theorem eq_map_of_snd_eq {calls : List (H × R)} {value : R} (h : ∀ c ∈ calls, c.snd = value) :
    calls = (calls.map Prod.fst).map (·, value) := by
  rw [List.map_map]
  refine (List.map_id calls).symm.trans <| List.map_congr_left fun c hc => ?_
  exact Prod.ext rfl (h c hc)

inductive Ordered (handlers : List H) (s : EmptyBox H R) : Prop
  | pending (more : List H) (hs : s.sealant = .pending (handlers ++ more))
  | resolved {value : R} (more called left : List H) (hs : s.sealant = .resolved value)
    (he : handlers ++ more = called ++ left) (hc : (called.map (·, value)).Sublist s.calls)
    (hl : left = [] ∨ .forEach left value ∈ s.activities)

theorem Ordered.resolved_mono {handlers more called left : List H} {value : R} (hg : s.Grows s')
    (hs : s.sealant = .resolved value) (he : handlers ++ more = called ++ left)
    (hc : (called.map (·, value)).Sublist s.calls) (hl : left = [] ∨ .forEach left value ∈ s'.activities) :
    s'.Ordered handlers :=
  .resolved more called left (hg.sealant value hs) he (hc.trans hg.calls.sublist) hl

theorem Effect.ordered {handlers : List H} (he : Effect s e s') (h : s.Ordered handlers) :
    s'.Ordered handlers := by
  have hg := he.grows
  cases h
  case pending more hs =>
    cases he
    case «seal» => exact .pending more hs
    case pipe   => exact .pending more hs
    case perform ha hp =>
      cases hp
      case settle hs' =>
        cases hs ▸ hs'
        exact .resolved more [] _ rfl rfl (List.nil_sublist _) (.inr <| by simp)
      case append handler _ hs' =>
        cases hs ▸ hs'
        exact .pending (more ++ [handler]) <| by simp
      case refuse hs'  => nomatch hs ▸ hs'
      case late hs'    => nomatch hs ▸ hs'
      all_goals exact .pending more hs
  case resolved value more called left hs hm hc hl =>
    cases he
    case «seal» => exact .resolved_mono hg hs hm hc <| hl.imp_right (List.mem_append_left _)
    case pipe   => exact .resolved_mono hg hs hm hc <| hl.imp_right (List.mem_append_left _)
    case perform ha hp =>
      rw [ha] at hl
      cases hp
      case body body bodies value' =>
        by_cases hb : left = body :: bodies ∧ value = value'
        case neg => exact .resolved_mono hg hs hm hc <| by grind
        case pos =>
          have ⟨hb, hv⟩ := hb
          subst hb hv
          refine .resolved more (called ++ [body]) bodies hs (by simp [hm]) ?_ (.inr <| by simp)
          simpa [call] using hc
      all_goals exact .resolved_mono hg hs hm hc <| by grind

theorem exec_ordered {handlers : List H} (hs : s.Sound) (ho : s.Ordered handlers) (h : exec s es = some s') :
    s'.Ordered handlers := by
  have hi : ∀ {s : EmptyBox H R} {e s'}, s.Sound ∧ s.Ordered handlers → s.step e = some s' →
      s'.Sound ∧ s'.Ordered handlers := fun h hs =>
    have he := step_effect h.left hs
    ⟨he.sound h.left, he.ordered h.right⟩
  exact Run.invariant' hi ⟨hs, ho⟩ h |>.right

theorem exec_order {handlers : List H} {value : R} (h : exec {} es = some s)
    (hs : s.sealant = .pending handlers) (h' : exec s es' = some s') (hs' : s'.sealant = .resolved value)
    (ha : s'.activities = []) : (handlers.map (·, value)).Sublist s'.calls := by
  cases exec_ordered (exec_sound sound_empty h) (.pending [] <| hs.trans <| by rw [List.append_nil]) h'
  case pending hp => nomatch hs' ▸ hp
  case resolved more called left hr he hc hl =>
    cases hs' ▸ hr
    have hl : left = [] := by simpa [ha] using hl
    rw [hl, List.append_nil] at he
    refine List.Sublist.trans ?_ hc
    exact he ▸ (List.sublist_append_left handlers more).map _

variable [DecidableEq H]

theorem Performs.refines (hp : Performs s as as' a s') (ha : s.activities = as ++ a :: as') (hf : a.Fits s.sealant) :
    s'.deferred = s.deferred ∨
    (∃ value, Deferred.step s.deferred (.settle value) = some s'.deferred) ∨
    ∃ handler, Deferred.step s.deferred (.call handler) = some s'.deferred := by
  rw [deferred_eq ha]
  cases hp
  case settle handlers value hs =>
    refine .inr <| .inl ⟨value, ?_⟩
    rw [Deferred.step_settle (by simp [hs, Sealant.value]), deferred_cons]
    simp [hs, Activity.waiting, Sealant.value, Sealant.handlers]
  case refuse  => exact .inl <| by simp [deferred_append, Activity.waiting]
  case finish  => exact .inl <| by simp [deferred_append, Activity.waiting]
  case inspect => exact .inl deferred_cons
  case resolve => exact .inl deferred_cons
  case sealed  => exact .inl deferred_cons
  case append hs =>
    refine .inl ?_
    rw [deferred_append]
    simp [hs, Activity.waiting, Sealant.handlers, Sealant.value, ← Multiset.coe_add, add_assoc]
  case body body bodies value =>
    have hv : s.sealant.value = some value := congrArg Sealant.value hf
    have hw : s.sealant.handlers + (((body :: bodies : List H) : Multiset H) + rest as as') =
        body ::ₘ (s.sealant.handlers + (bodies + rest as as')) := by
      rw [← Multiset.cons_coe, Multiset.cons_add, Multiset.add_cons]
    refine .inr <| .inr ⟨body, (Deferred.step_call_cons hv hw).trans ?_⟩
    rw [deferred_cons]
    rfl
  case late handler value hs =>
    have hv : s.sealant.value = some value := congrArg Sealant.value hs
    have hw : s.sealant.handlers + (([handler] : List H) + rest as as') =
        handler ::ₘ (s.sealant.handlers + rest as as') := by
      rw [Multiset.coe_singleton, Multiset.singleton_add, Multiset.add_cons]
    exact .inr <| .inr ⟨handler, Deferred.step_call_cons hv hw⟩
  case resolved handler value =>
    have hv : s.sealant.value = some value := congrArg Sealant.value hf
    have hw : s.sealant.handlers + (([handler] : List H) + rest as as') =
        handler ::ₘ (s.sealant.handlers + rest as as') := by
      rw [Multiset.coe_singleton, Multiset.singleton_add, Multiset.add_cons]
    exact .inr <| .inr ⟨handler, Deferred.step_call_cons hv hw⟩

theorem Effect.refines (he : Effect s e s') (h : s.Sound) :
    Run.Refines Deferred.step deferred Event.piped Deferred.Event.attached s e s' := by
  cases he
  case «seal» =>
    refine .inl ⟨?_, rfl⟩
    simp [deferred, Activity.waiting]
  case pipe handler =>
    refine .inr ⟨.attach handler, ?_, rfl⟩
    simp [deferred, Activity.waiting, Deferred.step, ← Multiset.singleton_add]
    abel
  case perform ha hp =>
    rcases hp.refines ha (h _ (ha ▸ List.mem_append_right _ List.mem_cons_self)) with hn | ⟨_, hs⟩ | ⟨_, hs⟩
    · exact .inl ⟨hn, rfl⟩
    · exact .inr ⟨_, hs, rfl⟩
    · exact .inr ⟨_, hs, rfl⟩

theorem exec_piped (h : exec {} es = some s) :
    s.calls.map Prod.fst + s.deferred.waiting = (es.filterMap Event.piped : Multiset H) := by
  have ⟨ds, hd, ho, _⟩ := Run.exec_refines (fun hi hs => (step_effect hi hs).sound hi)
    (fun hi hs => (step_effect hi hs).refines hi) sound_empty h
  rw [← ho]
  exact (Deferred.exec_handlers hd).trans <| by simp [Deferred.State.handlers, deferred, Sealant.handlers]

theorem exec_called (h : exec {} es = some s) {c : H × R} (hc : c ∈ s.calls) : s.sealant = .resolved c.snd := by
  have ⟨ds, hd, _⟩ := Run.exec_refines (fun hi hs => (step_effect hi hs).sound hi)
    (fun hi hs => (step_effect hi hs).refines hi) sound_empty h
  have hv := Deferred.exec_called hd nofun c hc
  cases hs : s.sealant <;> simp_all [deferred, Sealant.value]

theorem exec_calls (h : exec {} es = some s) (h' : exec s es' = some s') :
    s'.calls.map Prod.fst + s'.deferred.waiting = ((es ++ es').filterMap Event.piped : Multiset H) ∧
    (∀ c ∈ s'.calls, s'.sealant = .resolved c.snd) ∧ s.Grows s' := by
  have he : exec {} (es ++ es') = some s' := by simp [exec, Run.exec_append, h, h']
  exact ⟨exec_piped he, fun _ => exec_called he, exec_grows (exec_sound sound_empty h) h'⟩

-- However the threads take turns, they come to an end, and then one of the values that were to be sealed
-- has been, and each closure that was piped has been called with it once.
theorem exec_settles {value : R} (h : exec {} es = some s) (hv : .seal value ∈ es) :
    ∃ n, ∀ (is : List Nat) (s' : EmptyBox H R), exec s (is.map .perform) = some s' → is.length ≤ n ∧
      ((∀ i, s'.step (.perform i) = none) →
        ∃ value, .seal value ∈ es ∧ s'.calls.Perm (es.filterMap Event.piped |>.map (·, value))) := by
  refine ⟨s.work, fun is s' he => ⟨?_, fun hn => ?_⟩⟩
  · exact Nat.le_of_add_right_le <| exec_work (exec_sound sound_empty h) he
  · have ha := activities_eq_nil_iff.mpr hn
    have he' : exec {} (es ++ is.map .perform) = some s' := by simp [exec, Run.exec_append, h, he]
    have hw := exec_piped he'
    have ⟨_, hsrc, heff⟩ := exec_traced he'
    have hp : (is.map (.perform : Nat → Event H R)).filterMap Event.piped = [] := by
      simp [List.filterMap_map, Event.piped, Function.comp_def]
    have hr : s'.sealant.value.isSome := by simpa [ha] using heff value (List.mem_append_left _ hv)
    cases hs : s'.sealant
    case pending => simp [hs, Sealant.value] at hr
    case resolved value =>
      refine ⟨value, by simpa using hsrc value (.inl hs), ?_⟩
      have hm : (s'.calls.map Prod.fst).Perm (es.filterMap Event.piped) := by
        rw [List.filterMap_append, hp, List.append_nil] at hw
        simpa [deferred, ha, hs, Sealant.handlers] using hw
      have hc : ∀ c ∈ s'.calls, c.snd = value := fun c h => by simpa [hs] using (exec_called he' h).symm
      rw [eq_map_of_snd_eq hc]
      exact hm.map _

def raceRun : List (Event Nat Nat) :=
  [.pipe 1, .perform 0, .pipe 2, .perform 1, .perform 0, .seal 5, .seal 6, .perform 2, .perform 0]

theorem exec_raceRun :
    exec {} raceRun = some { sealant := .resolved 6, activities := [.sealed 2, .seal 5, .forEach [1] 6] } :=
  rfl

theorem exec_calls_race : ∃ s : EmptyBox Nat Nat, exec {} (raceRun ++ List.replicate 4 (.perform 0)) = some s ∧
    s.calls = [(2, 6), (1, 6)] ∧ s.calls.map Prod.fst + s.deferred.waiting = ([1, 2] : Multiset Nat) := by
  have h : exec { sealant := .resolved 6, activities := [.sealed 2, .seal 5, .forEach [1] 6] }
    (List.replicate 4 (.perform 0)) = some _ := rfl
  exact ⟨_, rfl, rfl, exec_calls exec_raceRun h |>.left⟩

theorem exec_settles_race : ∃ n, ∀ (is : List Nat) (s' : EmptyBox Nat Nat),
    exec { sealant := .resolved 6, activities := [.sealed 2, .seal 5, .forEach [1] 6] } (is.map .perform) = some s' →
      is.length ≤ n ∧ ((∀ i, s'.step (.perform i) = none) →
        ∃ value, .seal value ∈ raceRun ∧ s'.calls.Perm [(1, value), (2, value)]) :=
  have hv : .seal 5 ∈ raceRun := by decide
  exec_settles exec_raceRun hv

theorem exec_order_pipes : ∃ s, exec (R := Nat) { sealant := .pending [1, 2] }
    (.seal 5 :: List.replicate 4 (.perform 0)) = some s ∧ [(1, 5), (2, 5)].Sublist s.calls := by
  have h : exec (R := Nat) {} [.pipe 1, .perform 0, .perform 0, .pipe 2, .perform 0, .perform 0] =
    some { sealant := .pending [1, 2] } := rfl
  have h' : exec { sealant := .pending [1, 2] } (.seal 5 :: List.replicate 4 (.perform 0)) = some _ := rfl
  exact ⟨_, h', exec_order h rfl h' rfl rfl⟩

end EmptyBox
end PromiseKit

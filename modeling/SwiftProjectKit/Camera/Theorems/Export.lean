import SwiftProjectKit.Camera.Exporter
import SwiftProjectKit.Primitives.Refinement
import SwiftProjectKit.Primitives.Rendezvous

namespace Camera

@[simp]
theorem AVMediaType.other_other (media : AVMediaType) : media.other.other = media := by
  cases media <;> rfl

theorem AVMediaType.opposite_other : Rendezvous.Opposite other where
  ne    := by rintro ⟨⟩ <;> nofun
  cases := by rintro ⟨⟩ ⟨⟩ <;> simp [other]

namespace Block

variable {α : Type*}

def sampleBuffers : Block α → List α
  | appending sampleBuffer => [sampleBuffer]
  | _                      => []

def isComplete : Block α → Bool
  | testing | finishing | returned => true
  | _                              => false

def isFinished : Block α → Bool
  | completing => true
  | block      => block.isComplete

def tells (block : Block α) : List α × Bool × Bool :=
  ⟨block.sampleBuffers, block.isFinished, block.isComplete⟩

def phase : Block α → Rendezvous.Phase
  | testing              => .raised
  | finishing | returned => .tested
  | _                    => .working

def finishBlockCalls : Block α → Nat
  | finishing => 1
  | _         => 0

def isBetween : Block α → Bool
  | waiting | polling | appending _ => true
  | _                               => false

end Block

namespace WMVideoExporter

variable {α : Type*} {samples : AVMediaType → List α} {s s' s₁ : WMVideoExporter α} {e : Event}
variable {media : AVMediaType} {es es' : List Event}

inductive Effect (s : WMVideoExporter α) : WMVideoExporter α → Prop
  | status (status : AVAssetReaderStatus) (hr : s.status = .reading)
    (hc : status = .completed → ∀ media, s.unread media = []) : Effect s { s with status }
  | ready (isReadyForMoreMediaData : AVMediaType → Bool) : Effect s { s with isReadyForMoreMediaData }
  | request (media : AVMediaType) (hb : s.block media = .waiting) : Effect s <| s.goto media .polling
  | poll (media : AVMediaType) (hb : s.block media = .polling) (hr : s.status = .reading) :
    Effect s <| s.goto media .copying
  | wait (media : AVMediaType) (hb : s.block media = .polling) : Effect s <| s.goto media .waiting
  | copy (media : AVMediaType) {sampleBuffer : α} {rest : List α} (hb : s.block media = .copying)
    (hu : s.unread media = sampleBuffer :: rest) :
    Effect s <| { s with unread := Function.update s.unread media rest }.goto media (.appending sampleBuffer)
  | exhaust (media : AVMediaType) (hb : s.block media = .copying) (hu : s.status = .reading → s.unread media = []) :
    Effect s <| s.goto media .marking
  | append (media : AVMediaType) {sampleBuffer : α} (hb : s.block media = .appending sampleBuffer) :
    Effect s <| s.append media sampleBuffer |>.goto media .polling
  | mark (media : AVMediaType) (hb : s.block media = .marking) :
    Effect s <| s.markAsFinished media |>.goto media .completing
  | complete (media : AVMediaType) (hb : s.block media = .completing) :
    Effect s <| s.setComplete media |>.goto media .testing
  | meet (media : AVMediaType) (hb : s.block media = .testing) (hc : s.complete media.other) :
    Effect s <| s.goto media .finishing
  | leave (media : AVMediaType) (hb : s.block media = .testing) (hc : s.complete media.other = false) :
    Effect s <| s.goto media .returned
  | finish (media : AVMediaType) (hb : s.block media = .finishing) : Effect s <| s.finishBlock.goto media .returned

theorem copyNextSampleBuffer_cases (s : WMVideoExporter α) (media : AVMediaType) :
    (∃ sampleBuffer rest, s.unread media = sampleBuffer :: rest ∧ s.copyNextSampleBuffer media =
      ⟨some sampleBuffer, { s with unread := Function.update s.unread media rest }⟩) ∨
    (s.status = .reading → s.unread media = []) ∧ s.copyNextSampleBuffer media = ⟨none, s⟩ := by
  rw [copyNextSampleBuffer]
  split
  case h_1 hu     => exact .inl ⟨_, _, hu, rfl⟩
  case h_2 _ _ hn =>
    refine .inr ⟨fun hr => ?_, rfl⟩
    exact List.eq_nil_iff_forall_not_mem.mpr fun x hx => by
      have ⟨_, _, hu⟩ := List.exists_cons_of_ne_nil <| List.ne_nil_of_mem hx
      exact hn _ _ hr hu

theorem run_effect (hs : s.run media = some s') : Effect s s' := by
  cases hb : s.block media <;> simp only [run, hb, reduceCtorEq] at hs
  case polling =>
    split at hs
    case isTrue h  => exact Option.some.inj hs ▸ .poll media hb h.right
    case isFalse h => exact Option.some.inj hs ▸ .wait media hb
  case copying =>
    rcases copyNextSampleBuffer_cases s media with ⟨_, _, hu, hc⟩ | ⟨hu, hc⟩
    · simp only [hc] at hs
      exact Option.some.inj hs ▸ .copy media hb hu
    · simp only [hc] at hs
      exact Option.some.inj hs ▸ .exhaust media hb hu
  case testing =>
    split at hs
    case isTrue h  => exact Option.some.inj hs ▸ .meet media hb h
    case isFalse h => exact Option.some.inj hs ▸ .leave media hb (Bool.eq_false_iff.mpr h)
  case appending  => exact Option.some.inj hs ▸ .append media hb
  case marking    => exact Option.some.inj hs ▸ .mark media hb
  case completing => exact Option.some.inj hs ▸ .complete media hb
  case finishing  => exact Option.some.inj hs ▸ .finish media hb

theorem step_effect (hs : s.step e = some s') : Effect s s' := by
  cases e
  case status status =>
    simp only [step, Option.ite_none_right_eq_some, Option.some.injEq] at hs
    have ⟨⟨hr, hc⟩, hs⟩ := hs
    exact hs ▸ .status status hr fun h media => by cases media <;> simp [hc h]
  case isReadyForMoreMediaData =>
    exact Option.some.inj hs ▸ .ready _
  case requestMediaData media =>
    cases hb : s.block media <;> simp only [step, hb, reduceCtorEq, Option.ite_none_right_eq_some] at hs
    exact Option.some.inj hs.right ▸ .request media hb
  case run => exact run_effect hs

theorem block_goto {m : AVMediaType} {block : Block α} :
    (s.goto media block).block m = if m = media then block else s.block m :=
  Function.update_apply ..

structure Sound (samples : AVMediaType → List α) (s : WMVideoExporter α) : Prop where
  kept       : ∀ media, s.written media ++ (s.block media).sampleBuffers ++ s.unread media = samples media
  isFinished : ∀ media, s.isFinished media = (s.block media).isFinished
  complete   : ∀ media, s.complete media = (s.block media).isComplete
  exhausted  : s.status = .reading ∨ s.status = .completed →
    ∀ media, s.block media = .marking ∨ (s.block media).isFinished → s.unread media = []
  completed  : s.status = .completed → ∀ media, s.unread media = []
  met        : ∀ media, s.block media = .finishing → ∀ media, s.complete media
  called     : 0 < s.finishBlockCalls → ∀ media, s.complete media

theorem sound_exportVideo : Sound samples (exportVideo samples) where
  kept       := fun _ => rfl
  isFinished := fun _ => rfl
  complete   := fun _ => rfl
  exhausted  := by simp [exportVideo, Block.isFinished, Block.isComplete]
  completed  := nofun
  met        := nofun
  called     := nofun

theorem Sound.goto (h : s.Sound samples) {block : Block α} (hb : block.tells = (s.block media).tells)
    (hx : block = .marking → s.status = .reading ∨ s.status = .completed → s.unread media = [])
    (hm : block = .finishing → ∀ media, s.complete media) : (s.goto media block).Sound samples := by
  have ⟨hk, hf, hc, hx', hd, hm', hd'⟩ := h
  have hk' := hk media
  simp only [Block.tells, Prod.mk.injEq] at hb
  constructor <;> simp only [WMVideoExporter.goto] <;> grind [Function.update_apply]

theorem Effect.sound (he : Effect s s') (h : s.Sound samples) : s'.Sound samples := by
  have ⟨hk, hf, hc, hx, hcm, hm, hd⟩ := h
  cases he
  case status => exact { h with exhausted := by grind, completed := by grind }
  case ready  => exact { h with }
  case request media hb => exact h.goto (hb ▸ rfl) nofun nofun
  case poll media hb _  => exact h.goto (hb ▸ rfl) nofun nofun
  case wait media hb    => exact h.goto (hb ▸ rfl) nofun nofun
  case leave media hb _ => exact h.goto (hb ▸ rfl) nofun nofun
  case exhaust media hb hu =>
    exact h.goto (hb ▸ rfl) (fun _ hs => hs.elim hu fun hs => hcm hs media) nofun
  case meet media hb ho =>
    refine h.goto (hb ▸ rfl) nofun fun _ => AVMediaType.opposite_other.forall_iff media |>.mpr ⟨?_, ho⟩
    simp [hc, hb, Block.isComplete]
  case copy media _ _ hb hu =>
    have hk' := hk media
    constructor <;> simp only [WMVideoExporter.goto] <;>
      grind [Function.update_apply, Block.sampleBuffers, Block.isFinished, Block.isComplete]
  case append media _ hb =>
    have hk' := hk media
    constructor <;> simp only [WMVideoExporter.goto, WMVideoExporter.append] <;>
      grind [Function.update_apply, Block.sampleBuffers, Block.isFinished, Block.isComplete]
  case mark media hb =>
    have hk' := hk media
    constructor <;> simp only [WMVideoExporter.goto, markAsFinished] <;>
      grind [Function.update_apply, Block.sampleBuffers, Block.isFinished, Block.isComplete]
  case complete media hb =>
    have hk' := hk media
    constructor <;> simp only [WMVideoExporter.goto, setComplete] <;>
      grind [Function.update_apply, Block.sampleBuffers, Block.isFinished, Block.isComplete]
  case finish media hb =>
    have hk' := hk media
    constructor <;> simp only [WMVideoExporter.goto, finishBlock] <;>
      grind [Function.update_apply, Block.sampleBuffers, Block.isFinished, Block.isComplete]

theorem Sound.exec (h : s.Sound samples) (he : exec s es = some s') : s'.Sound samples :=
  Run.invariant' (fun hi hs => (step_effect hs).sound hi) h he

-- What has been written, what is about to be written and what has not been read yet, make up the sample
-- buffers of the reader. Writing is finished only when both inputs are, and unless the reader has been
-- stopped, all sample buffers have been written by then.
theorem exec_written (h : exec (exportVideo samples) es = some s) :
    (∀ media, s.written media ++ (s.block media).sampleBuffers ++ s.unread media = samples media) ∧
    (0 < s.finishBlockCalls → (∀ media, s.isFinished media) ∧
      (s.status = .reading ∨ s.status = .completed → s.written = samples)) := by
  have ⟨hk, hf, hc, hx, _, _, hd⟩ := sound_exportVideo.exec h
  refine ⟨hk, fun hp => ?_⟩
  have hb : ∀ media, (s.block media).isComplete := fun media => hc media ▸ hd hp media
  have hb' : ∀ media, (s.block media).isFinished := fun media => by
    have := hb media
    cases hm : s.block media <;> simp_all [Block.isFinished, Block.isComplete]
  refine ⟨fun media => hf media ▸ hb' media, fun hs => funext fun media => ?_⟩
  have hn : (s.block media).sampleBuffers = [] := by
    have := hb media
    cases hm : s.block media <;> simp_all [Block.sampleBuffers, Block.isComplete]
  simpa [hn, hx hs media (.inr <| hb' media)] using hk media

def exportRun : List Event :=
  [.isReadyForMoreMediaData .video true, .requestMediaData .video] ++ List.replicate 7 (.run .video) ++
    [.isReadyForMoreMediaData .audio true, .requestMediaData .audio] ++ List.replicate 7 (.run .audio)

theorem exec_written_run : ∃ s, exec (exportVideo fun _ => [0]) (exportRun ++ [.run .video, .run .video]) = some s ∧
    (∀ media, s.isFinished media) ∧ s.written = fun _ => [0] := by
  have h : exec (exportVideo fun _ => [0]) (exportRun ++ [.run .video, .run .video]) = some _ := rfl
  have ⟨hf, hw⟩ := exec_written h |>.right Nat.one_pos
  exact ⟨_, h, hf, hw (.inl rfl)⟩

-- The two blocks as parties of a rendezvous, in which `finishBlock` is what a party does.
def rendezvous (s : WMVideoExporter α) : Rendezvous.State AVMediaType where
  phase media := (s.block media).phase
  acts        := s.finishBlockCalls + (s.block .video).finishBlockCalls + (s.block .audio).finishBlockCalls

theorem Sound.complete_iff (h : s.Sound samples) :
    s.complete media ↔ s.rendezvous.phase media ≠ .working := by
  rw [h.complete, rendezvous]
  cases hb : s.block media <;> simp [Block.isComplete, Block.phase, hb]

theorem acts_rendezvous (media : AVMediaType) : s.rendezvous.acts =
    s.finishBlockCalls + ((s.block media).finishBlockCalls + (s.block media.other).finishBlockCalls) := by
  cases media <;> simp [rendezvous, AVMediaType.other] <;> omega

theorem rendezvous_goto {block : Block α} : (s.goto media block).rendezvous = {
    phase := Function.update s.rendezvous.phase media block.phase
    acts  := s.finishBlockCalls + (block.finishBlockCalls + (s.block media.other).finishBlockCalls) } := by
  ext1
  case acts  => simp [acts_rendezvous media, goto, AVMediaType.opposite_other.ne media]
  case phase =>
    funext m
    by_cases hm : m = media
    case pos => simp [hm, rendezvous, goto]
    case neg => simp [hm, rendezvous, goto]

theorem rendezvous_goto_eq_self {block : Block α} (hp : block.phase = (s.block media).phase)
    (hc : block.finishBlockCalls = (s.block media).finishBlockCalls) :
    (s.goto media block).rendezvous = s.rendezvous := by
  rw [rendezvous_goto]
  ext1
  · exact hp ▸ Function.update_eq_self media s.rendezvous.phase
  · rw [acts_rendezvous media, hc]

theorem Effect.refines (he : Effect s s') (h : s.Sound samples) : Run.Refines
    (Rendezvous.step AVMediaType.other) rendezvous (fun _ => none) (fun _ => (none : Option Empty)) s e s' := by
  cases he
  case status => exact .inl ⟨rfl, rfl⟩
  case ready  => exact .inl ⟨rfl, rfl⟩
  case request media hb => exact .inl ⟨rendezvous_goto_eq_self (hb ▸ rfl) (hb ▸ rfl), rfl⟩
  case poll media hb _ => exact .inl ⟨rendezvous_goto_eq_self (hb ▸ rfl) (hb ▸ rfl), rfl⟩
  case wait media hb => exact .inl ⟨rendezvous_goto_eq_self (hb ▸ rfl) (hb ▸ rfl), rfl⟩
  case copy media _ _ hb _ => exact .inl ⟨rendezvous_goto_eq_self (hb ▸ rfl) (hb ▸ rfl), rfl⟩
  case exhaust media hb _ => exact .inl ⟨rendezvous_goto_eq_self (hb ▸ rfl) (hb ▸ rfl), rfl⟩
  case append media _ hb => exact .inl ⟨rendezvous_goto_eq_self (hb ▸ rfl) (hb ▸ rfl), rfl⟩
  case mark media hb => exact .inl ⟨rendezvous_goto_eq_self (hb ▸ rfl) (hb ▸ rfl), rfl⟩
  case finish media hb =>
    have hp : s.rendezvous.phase media = .tested := by simp [rendezvous, hb, Block.phase]
    refine .inl ⟨?_, rfl⟩
    rw [rendezvous_goto]
    ext1
    · exact Function.update_eq_self_iff.mpr hp.symm
    · simp [acts_rendezvous media, hb, Block.finishBlockCalls, finishBlock, Nat.add_assoc]
  case complete media hb =>
    have hp : s.rendezvous.phase media = .working := by simp [rendezvous, hb, Block.phase]
    refine .inr ⟨media, ?_, rfl⟩
    rw [Rendezvous.step_working hp, rendezvous_goto, acts_rendezvous media, hb]
    rfl
  case meet media hb hc =>
    have hp : s.rendezvous.phase media = .raised := by simp [rendezvous, hb, Block.phase]
    refine .inr ⟨media, ?_, rfl⟩
    rw [Rendezvous.step_raised hp, if_neg (h.complete_iff.mp hc), rendezvous_goto, acts_rendezvous media, hb]
    simp [Block.phase, Block.finishBlockCalls, Nat.add_comm, Nat.add_left_comm]
  case leave media hb hc =>
    have hp : s.rendezvous.phase media = .raised := by simp [rendezvous, hb, Block.phase]
    have ho := not_not.mp <| mt h.complete_iff.mpr <| Bool.eq_false_iff.mp hc
    refine .inr ⟨media, ?_, rfl⟩
    rw [Rendezvous.step_raised hp, if_pos ho, rendezvous_goto, acts_rendezvous media, hb]
    rfl

theorem race_iff : s.rendezvous.Race ↔ ∀ media, s.block media = .testing := by
  refine forall_congr' fun media => ?_
  cases hb : s.block media <;> simp [rendezvous, Block.phase, hb]

theorem finishBlockCalls_of_returned (h : exec (exportVideo samples) es = some s)
    (hr : ∀ media, s.block media = .returned) :
    (s.finishBlockCalls = 1 ∨ s.finishBlockCalls = 2) ∧ (s.finishBlockCalls = 2 ↔
      ¬Run.Always step (fun s => ¬∀ media, s.block media = .testing) (exportVideo samples) es) := by
  have ⟨ds, hd, _, ha⟩ := Run.exec_refines (fun h hs => (step_effect hs).sound h)
    (fun h hs => (step_effect hs).refines h) sound_exportVideo h
  have hs : s.rendezvous.Done := fun media => by simp [rendezvous, hr, Block.phase]
  have hc : s.rendezvous.acts = s.finishBlockCalls := by simp [rendezvous, hr, Block.finishBlockCalls]
  have ⟨h₁, h₂⟩ := Rendezvous.acts_eq AVMediaType.opposite_other hd hs .video
  rw [hc] at h₁ h₂
  simp only [← race_iff]
  exact ⟨h₁, h₂.trans <| not_congr <| (ha (¬Rendezvous.State.Race ·)).symm⟩

-- Once both blocks have returned, `finishBlock` has been called, and that twice precisely if at some
-- point both blocks had set their flag while neither had tested the other one.
theorem exec_finishBlockCalls (h : exec (exportVideo samples) es = some s)
    (hr : ∀ media, s.block media = .returned) :
    (s.finishBlockCalls = 1 ∨ s.finishBlockCalls = 2) ∧ (s.finishBlockCalls = 2 ↔
      ∃ pre s₁, pre <+: es ∧ exec (exportVideo samples) pre = some s₁ ∧
        ∀ media, s₁.block media = .testing) := by
  have ⟨h₁, h₂⟩ := finishBlockCalls_of_returned h hr
  refine ⟨h₁, h₂.trans ?_⟩
  simp [Run.Always]

theorem exec_finishBlockCalls_run : ∃ s, exec (exportVideo fun _ => [0])
    (exportRun ++ [.run .video, .run .audio, .run .video, .run .audio]) = some s ∧ s.finishBlockCalls = 2 := by
  have h : exec (exportVideo fun _ => [0])
    (exportRun ++ [.run .video, .run .audio, .run .video, .run .audio]) = some _ := rfl
  have ⟨_, hc⟩ := exec_finishBlockCalls h <| by rintro ⟨⟩ <;> rfl
  exact ⟨_, h, hc.mpr ⟨exportRun, _, List.prefix_append _ _, rfl, by rintro ⟨⟩ <;> rfl⟩⟩

def Stuck (media : AVMediaType) (s : WMVideoExporter α) : Prop :=
  s.status ≠ .reading ∧ (s.block media).isBetween

theorem Stuck.goto {m : AVMediaType} {block : Block α} (h : s.Stuck media)
    (hb : (s.block m).isBetween → block.isBetween) : (s.goto m block).Stuck media := by
  refine ⟨h.left, ?_⟩
  rw [block_goto]
  split
  case isTrue he => exact hb <| he ▸ h.right
  case isFalse   => exact h.right

theorem Effect.stuck (he : Effect s s') (h : s.Stuck media) : s'.Stuck media := by
  cases he
  case status hr _    => exact absurd hr h.left
  case poll hr        => exact absurd hr h.left
  case ready          => exact h
  case request        => exact h.goto fun _ => rfl
  case wait           => exact h.goto fun _ => rfl
  case append m _ _   => exact Stuck.goto (s := s.append m _) h fun _ => rfl
  case copy hb _      => exact Stuck.goto (m := _) h (by simp [hb, Block.isBetween])
  case exhaust hb _   => exact h.goto (by simp [hb, Block.isBetween])
  case mark m hb      => exact Stuck.goto (s := s.markAsFinished m) h (by simp [hb, Block.isBetween, markAsFinished])
  case complete m hb  => exact Stuck.goto (s := s.setComplete m) h (by simp [hb, Block.isBetween, setComplete])
  case meet hb _      => exact h.goto (by simp [hb, Block.isBetween])
  case leave hb _     => exact h.goto (by simp [hb, Block.isBetween])
  case finish hb      => exact Stuck.goto (s := s.finishBlock) h (by simp [hb, Block.isBetween, finishBlock])

theorem exec_stuck (hs : s.Stuck media) (h : exec s es = some s') : s'.Stuck media :=
  Run.invariant' (fun hi he => (step_effect he).stuck hi) hs h

def CanReturn (s : WMVideoExporter α) (media : AVMediaType) : Prop :=
  ∃ es s', exec s es = some s' ∧ s'.block media = .returned ∧ s'.block media.other = s.block media.other ∧
    s'.status = s.status

theorem CanReturn.step (h : s₁.CanReturn media) (hs : s.step e = some s₁)
    (ho : s₁.block media.other = s.block media.other) (ht : s₁.status = s.status) : s.CanReturn media := by
  have ⟨es, s', he, hr, ho', ht'⟩ := h
  exact ⟨e :: es, s', Run.exec_cons_eq_some.mpr ⟨s₁, hs, he⟩, hr, ho'.trans ho, ht'.trans ht⟩

theorem CanReturn.run {block : Block α} (h : (s₁.goto media block).CanReturn media)
    (hs : s.run media = some (s₁.goto media block)) (ho : s₁.block = s.block) (ht : s₁.status = s.status) :
    s.CanReturn media := by
  refine h.step (e := .run media) hs ?_ ht
  rw [block_goto, if_neg (AVMediaType.opposite_other.ne media), ho]

theorem block_goto_self {block : Block α} : (s.goto media block).block media = block :=
  Function.update_self ..

theorem canReturn_of_returned (hb : s.block media = .returned) : s.CanReturn media :=
  ⟨[], s, rfl, hb, rfl, rfl⟩

theorem canReturn_of_finishing (hb : s.block media = .finishing) : s.CanReturn media :=
  canReturn_of_returned (s := s.finishBlock.goto media _) block_goto_self
    |>.run (by simp [WMVideoExporter.run, hb]) rfl rfl

theorem canReturn_of_testing (hb : s.block media = .testing) : s.CanReturn media := by
  cases hc : s.complete media.other
  case false => exact canReturn_of_returned block_goto_self |>.run (by simp [WMVideoExporter.run, hb, hc]) rfl rfl
  case true  => exact canReturn_of_finishing block_goto_self |>.run (by simp [WMVideoExporter.run, hb, hc]) rfl rfl

theorem canReturn_of_completing (hb : s.block media = .completing) : s.CanReturn media :=
  canReturn_of_testing (s := s.setComplete media |>.goto media _) block_goto_self
    |>.run (by simp [WMVideoExporter.run, hb]) rfl rfl

theorem canReturn_of_marking (hb : s.block media = .marking) : s.CanReturn media :=
  canReturn_of_completing (s := s.markAsFinished media |>.goto media _) block_goto_self
    |>.run (by simp [WMVideoExporter.run, hb]) rfl rfl

def ready (s : WMVideoExporter α) (media : AVMediaType) : WMVideoExporter α :=
  { s with isReadyForMoreMediaData := Function.update s.isReadyForMoreMediaData media true }

theorem CanReturn.poll (h : (s.ready media |>.goto media .copying).CanReturn media)
    (hb : s.block media = .polling) (hr : s.status = .reading) : s.CanReturn media := by
  have h₁ : (s.ready media).CanReturn media := h.run (by simp [WMVideoExporter.run, ready, hb, hr]) rfl rfl
  exact h₁.step (e := .isReadyForMoreMediaData media true) rfl rfl rfl

theorem canReturn_of_copying (hb : s.block media = .copying) (hr : s.status = .reading) :
    s.CanReturn media := by
  generalize hu : s.unread media = samples
  induction samples generalizing s
  case nil =>
    exact canReturn_of_marking block_goto_self
      |>.run (by simp [WMVideoExporter.run, hb, copyNextSampleBuffer, hu]) rfl rfl
  case cons sampleBuffer rest hi =>
    let s₁ := { s with unread := Function.update s.unread media rest }
    let s₂ := s₁.goto media (.appending sampleBuffer)
    let s₃ := s₂.append media sampleBuffer |>.goto media .polling
    have h₃ : s₃.CanReturn media := by
      refine CanReturn.poll (hi block_goto_self hr ?_) block_goto_self hr
      simp [goto, ready, s₃, append, s₂, s₁]
    have h₂ : s₂.CanReturn media :=
      h₃.run (by rw [WMVideoExporter.run, block_goto_self]) rfl rfl
    exact h₂.run (by simp [WMVideoExporter.run, hb, copyNextSampleBuffer, hr, hu, s₁]) rfl rfl

theorem canReturn_of_polling (hb : s.block media = .polling) (hr : s.status = .reading) :
    s.CanReturn media :=
  canReturn_of_copying (s := s.ready media |>.goto media _) block_goto_self hr |>.poll hb hr

theorem Sound.canReturn (h : s.Sound samples) (hs : ¬s.Stuck media) : s.CanReturn media := by
  have hr : (s.block media).isBetween → s.status = .reading := fun hb => not_not.mp fun hr => hs ⟨hr, hb⟩
  cases hb : s.block media
  case returned   => exact canReturn_of_returned hb
  case finishing  => exact canReturn_of_finishing hb
  case testing    => exact canReturn_of_testing hb
  case completing => exact canReturn_of_completing hb
  case marking    => exact canReturn_of_marking hb
  case polling    => exact canReturn_of_polling hb <| hr <| by simp [hb, Block.isBetween]
  case copying    =>
    by_cases hr : s.status = .reading
    case pos => exact canReturn_of_copying hb hr
    case neg =>
      refine canReturn_of_marking block_goto_self |>.run ?_ rfl rfl
      simp [WMVideoExporter.run, hb, copyNextSampleBuffer, hr]
  case appending sampleBuffer =>
    have hr := hr <| by simp [hb, Block.isBetween]
    exact canReturn_of_polling (s := s.append media sampleBuffer |>.goto media _) block_goto_self hr
      |>.run (by simp [WMVideoExporter.run, hb]) rfl rfl
  case waiting =>
    have hr := hr <| by simp [hb, Block.isBetween]
    have hf : s.isFinished media = false := by simp [h.isFinished, hb, Block.isFinished, Block.isComplete]
    have h₁ : (s.ready media).CanReturn media := by
      refine canReturn_of_polling (s := s.ready media |>.goto media _) block_goto_self hr
        |>.step (e := .requestMediaData media) ?_ ?_ rfl
      · simp [WMVideoExporter.step, ready, hb, hf]
      · rw [block_goto, if_neg (AVMediaType.opposite_other.ne media)]
    exact h₁.step (e := .isReadyForMoreMediaData media true) rfl rfl rfl

-- An export can be carried to its end as long as no block is stuck, and will not end otherwise.
theorem exec_finishes (h : exec (exportVideo samples) es = some s) :
    (∃ es' s', exec s es' = some s' ∧ 0 < s'.finishBlockCalls) ↔ ∀ media, ¬s.Stuck media := by
  have hs := sound_exportVideo.exec h
  constructor
  case mp =>
    intro ⟨es', s', he, hp⟩ media hn
    have hs' := hs.exec he
    have hc := hs'.complete media ▸ hs'.called hp media
    have hb := exec_stuck hn he |>.right
    cases hm : s'.block media <;> simp [hm, Block.isComplete, Block.isBetween] at hc hb
  case mpr =>
    intro hn
    have ⟨es₁, s₁, he₁, hr₁, ho₁, ht₁⟩ := hs.canReturn (hn .video)
    have hn₁ : ¬s₁.Stuck .audio := fun ha => hn .audio ⟨ht₁ ▸ ha.left, ho₁ ▸ ha.right⟩
    have ⟨es₂, s₂, he₂, hr₂, ho₂, _⟩ := (hs.exec he₁).canReturn hn₁
    have he : exec (exportVideo samples) (es ++ (es₁ ++ es₂)) = some s₂ := by
      simp only [WMVideoExporter.exec] at h he₁ he₂ ⊢
      rw [Run.exec_append, h, Option.bind_some, Run.exec_append, he₁, Option.bind_some, he₂]
    have hr : ∀ media, s₂.block media = .returned :=
      AVMediaType.opposite_other.forall_iff .audio |>.mpr ⟨hr₂, ho₂.trans hr₁⟩
    refine ⟨es₁ ++ es₂, s₂, ?_, ?_⟩
    · simp only [WMVideoExporter.exec] at he₁ he₂ ⊢
      rw [Run.exec_append, he₁, Option.bind_some, he₂]
    · have h := finishBlockCalls_of_returned he hr |>.left
      omega

theorem exec_finishes_failed : ∃ s, exec (exportVideo fun _ => [0]) [.status .failed] = some s ∧
    ¬∃ es' s', exec s es' = some s' ∧ 0 < s'.finishBlockCalls := by
  have h : exec (exportVideo fun _ => [0]) [.status .failed] = some _ := rfl
  exact ⟨_, h, fun hf => exec_finishes h |>.mp hf .video ⟨nofun, rfl⟩⟩

end WMVideoExporter
end Camera

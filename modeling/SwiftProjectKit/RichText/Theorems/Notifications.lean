import SwiftProjectKit.Primitives.Alternation
import SwiftProjectKit.RichText.Theorems.Attachments
import SwiftProjectKit.RichText.Theorems.History

namespace RichText

def AttachmentCall.about (attach : NSTextAttachment) : AttachmentCall → Option Bool
  | .didInsetAttachment attach'   => if attach' = attach then some true else none
  | .didRemovedAttachment removed => if attach ∈ removed then some false else none

structure Entry.Known (entry : Entry) (created : Nat) : Prop where
  typing : entry.typingAttributes .attachment = none
  number : ∀ attach, entry.attributedText.Carries attach → attach.number < created

theorem Entry.Known.mono {created created' : Nat} {entry : Entry} (h : entry.Known created)
    (hle : created ≤ created') : entry.Known created' :=
  ⟨h.typing, fun attach hc => Nat.lt_of_lt_of_le (h.number attach hc) hle⟩

namespace State

open NSAttributedString (Carries Shows)

def notifications (s : State) (attach : NSTextAttachment) : List Bool :=
  s.attachmentCalls.filterMap <| AttachmentCall.about attach

-- The attachments whose views are displayed are those that the helper knows of, and those whose
-- insertion has been announced but not their removal.
structure Announced (s : State) (attach : NSTextAttachment) : Prop where
  alternates : Alternates (s.notifications attach)
  subview    : attach ∈ s.textView.subviews ↔ attach ∈ s.attachments
  last       : (s.notifications attach).getLast? = some true ↔ attach ∈ s.attachments

variable {s s' s'' : State} {attach : NSTextAttachment}

theorem notifications_append {calls : List AttachmentCall}
    (h : s'.attachmentCalls = s.attachmentCalls ++ calls) :
    s'.notifications attach = s.notifications attach ++ calls.filterMap (AttachmentCall.about attach) := by
  rw [notifications, h, List.filterMap_append, notifications]

theorem foldl_reviseAttachment_subviews (attach : NSTextAttachment)
    (attachments : List NSTextAttachment) :
    (attach ∈ (attachments.foldl reviseAttachment s).textView.subviews ↔
      attach ∈ s.textView.subviews ∨ attach ∈ attachments) ∧
    (attachments.foldl reviseAttachment s).notifications attach = s.notifications attach ++
      if attach ∈ attachments ∧ attach ∉ s.textView.subviews then [true] else [] := by
  induction attachments generalizing s
  case nil => simp
  case cons attach' attachments hi =>
    have ⟨hv, hn⟩ := hi (s := s.reviseAttachment attach')
    rw [List.foldl_cons, hv, hn]
    by_cases hc : attach' ∈ s.textView.subviews
    case pos =>
      have hr : s.reviseAttachment attach' = s := by rw [reviseAttachment, if_pos (by simpa using hc)]
      rw [hr]
      by_cases he : attach = attach'
      case pos => simp [he, hc]
      case neg => simp [he]
    case neg =>
      have hs : (s.reviseAttachment attach').textView.subviews = s.textView.subviews ++ [attach'] := by
        rw [reviseAttachment, if_neg (by simpa using hc)]
      have hr : (s.reviseAttachment attach').notifications attach = s.notifications attach ++
          [AttachmentCall.didInsetAttachment attach'].filterMap (AttachmentCall.about attach) :=
        notifications_append <| by rw [reviseAttachment, if_neg (by simpa using hc)]
      rw [hs, hr]
      by_cases he : attach = attach'
      case pos => simp [he, hc, AttachmentCall.about]
      case neg => simp [he, Ne.symm he, AttachmentCall.about]

structure Revises (s s' : State) (attach : NSTextAttachment) : Prop where
  attachment    : attach ∈ s'.attachments ↔ s.text.Carries attach
  subview       : attach ∈ s'.textView.subviews ↔
    (attach ∈ s.textView.subviews ∨ attach ∈ s'.attachments) ∧
      ¬(attach ∈ s.attachments ∧ attach ∉ s'.attachments)
  notifications : s'.notifications attach = s.notifications attach ++
    (if attach ∈ s'.attachments ∧ attach ∉ s.textView.subviews then [true] else []) ++
      if attach ∈ s.attachments ∧ attach ∉ s'.attachments then [false] else []

theorem reviseImageMaskViewFrame_revises (h : s.reviseImageMaskViewFrame = some s') :
    Revises s s' attach := by
  have ⟨attachments, ha, h⟩ := Option.bind_eq_some_iff.mp h
  have ⟨_, ha', hc⟩ := s.text.richTextAttachments_eq
  cases Option.some.inj <| ha.symm.trans ha'
  have ⟨hv, hn⟩ := s.foldl_reviseAttachment_subviews attach attachments
  have ⟨_, _, hs⟩ := foldl_reviseAttachment_eq (s := s) attachments
  have hatt : (attachments.foldl reviseAttachment s).attachments = s.attachments := by rw [hs]; rfl
  generalize attachments.foldl reviseAttachment s = t at *
  have hremoved : attach ∈ t.attachments.filter (!attachments.contains ·) ↔
      attach ∈ s.attachments ∧ attach ∉ attachments := by
    rw [hatt, List.mem_filter]
    simp
  dsimp only at h
  generalize t.attachments.filter (!attachments.contains ·) = removed at *
  have hs' := Option.some.inj h
  have hatt' : s'.attachments = attachments := by rw [← hs']
  have hsub : s'.textView.subviews = t.textView.subviews.filter (!removed.contains ·) := by rw [← hs']
  have hcalls : s'.attachmentCalls = t.attachmentCalls ++
      if removed.length > 0 then [.didRemovedAttachment removed] else [] := by
    rw [← hs']
    dsimp only
    split <;> simp
  refine ⟨hatt' ▸ hc attach, ?_, ?_⟩
  · rw [hsub, List.mem_filter, hv, hatt', ← hremoved]
    simp
  · rw [notifications_append hcalls, hn, hatt']
    congr 1
    by_cases hm : attach ∈ removed
    case pos =>
      rw [if_pos (List.length_pos_of_mem hm), if_pos (hremoved.mp hm)]
      simp [AttachmentCall.about, hm]
    case neg =>
      rw [if_neg (mt hremoved.mpr hm)]
      split <;> simp [AttachmentCall.about, hm]

theorem Announced.of_revises (h : Announced s attach) (hr : Revises s s' attach) :
    Announced s' attach := by
  have ⟨halt, hsub, hlast⟩ := h
  have ⟨_, hsub', hn⟩ := hr
  have hiff : attach ∈ s'.textView.subviews ↔ attach ∈ s'.attachments := by
    rw [hsub', hsub]
    tauto
  by_cases hm : attach ∈ s.attachments
  case pos =>
    by_cases hm' : attach ∈ s'.attachments
    case pos =>
      simp only [hsub, hm, hm', not_true_eq_false, and_false, if_false, List.append_nil] at hn
      exact ⟨hn ▸ halt, hiff, by simp [hn, hlast, hm, hm']⟩
    case neg =>
      simp only [hsub, hm, hm', false_and, not_false_eq_true, and_true, if_true, if_false,
        List.append_nil] at hn
      exact ⟨hn ▸ halt.end (hlast.mpr hm), hiff, by simp [hn, hm']⟩
  case neg =>
    by_cases hm' : attach ∈ s'.attachments
    case pos =>
      simp only [hsub, hm, hm', not_false_eq_true, and_true, false_and, if_true, if_false,
        List.append_nil] at hn
      exact ⟨hn ▸ halt.begin (mt hlast.mp hm), hiff, by simp [hn, hm']⟩
    case neg =>
      simp only [hsub, hm, hm', false_and, if_false, List.append_nil] at hn
      exact ⟨hn ▸ halt, hiff, by simp [hn, hlast, hm, hm']⟩

-- The view of an attachment that is being inserted is there before its insertion is announced.
theorem Announced.of_revises_inserted {s₁ : State} (h : Announced s attach)
    (hm : attach ∉ s.attachments) (hcalls : s₁.attachmentCalls = s.attachmentCalls)
    (hv : attach ∈ s₁.textView.subviews) (hc : s₁.text.Carries attach) (hr : Revises s₁ s' attach) :
    Announced (s'.didInsetAttachment attach) attach := by
  have hm' := hr.attachment.mpr hc
  have hn : s'.notifications attach = s.notifications attach := by
    have hn := hr.notifications
    simp only [hv, hm', not_true_eq_false, and_false, if_false, List.append_nil] at hn
    rw [hn, notifications, hcalls, notifications]
  have hn' : (s'.didInsetAttachment attach).notifications attach = s.notifications attach ++ [true] := by
    rw [← hn]
    refine notifications_append rfl |>.trans ?_
    simp [AttachmentCall.about]
  have hsub : attach ∈ s'.textView.subviews := by
    rw [hr.subview]
    exact ⟨.inl hv, fun h => h.right hm'⟩
  refine ⟨hn' ▸ h.alternates.begin (mt h.last.mp hm), ?_, ?_⟩
  · exact iff_of_true hsub hm'
  · rw [hn']
    exact iff_of_true (by simp) hm'

structure Known (s : State) : Prop where
  current     : (s.entry s.textView.typingAttributes).Known s.created
  history     : ∀ entry ∈ s.history, entry.Known s.created
  stores      : ∀ entry ∈ s.stores, entry.Known s.created
  attachments : ∀ attach ∈ s.attachments, attach.number < s.created

structure Keeps (s s' : State) : Prop where
  known     : s.Known → s'.Known
  announced : s.Known → ∀ attach, s.Announced attach → s'.Announced attach

structure Settles (s s' : State) : Prop extends Keeps s s' where
  settled : s.Known → ∀ attach, attach ∈ s'.attachments ↔ s'.text.Carries attach

structure SameViews (s s' : State) : Prop where
  textView    : s'.textView = s.textView
  attachments : s'.attachments = s.attachments
  calls       : s'.attachmentCalls = s.attachmentCalls

theorem Announced.of_eq (ha : s.Announced attach) (hc : s'.attachmentCalls = s.attachmentCalls)
    (hv : attach ∈ s'.textView.subviews ↔ attach ∈ s.textView.subviews)
    (hm : s'.attachments = s.attachments) : s'.Announced attach := by
  have hn : s'.notifications attach = s.notifications attach := by rw [notifications, hc, notifications]
  exact ⟨hn ▸ ha.alternates, by rw [hv, hm, ha.subview], by rw [hn, hm, ha.last]⟩

theorem Announced.congr (ha : s.Announced attach) (h : SameViews s s') : s'.Announced attach :=
  ha.of_eq h.calls (h.textView ▸ Iff.rfl) h.attachments

theorem Keeps.of_known (hk : s.Known → s'.Known) (hv : s'.textView.subviews = s.textView.subviews)
    (hm : s'.attachments = s.attachments) (hc : s'.attachmentCalls = s.attachmentCalls) : Keeps s s' where
  known     := hk
  announced := fun _ _ ha => ha.of_eq hc (hv ▸ Iff.rfl) hm

theorem Keeps.refl (s : State) : Keeps s s where
  known     := id
  announced := fun _ _ => id

theorem Keeps.trans (h : Keeps s s') (h' : Keeps s' s'') : Keeps s s'' where
  known     := h'.known ∘ h.known
  announced := fun hk attach ha => h'.announced (h.known hk) attach <| h.announced hk attach ha

theorem Keeps.trans_settles (h : Keeps s s') (h' : Settles s' s'') : Settles s s'' where
  toKeeps := h.trans h'.toKeeps
  settled := fun hk => h'.settled <| h.known hk

theorem Retypes.keeps (h : Retypes s s') : Keeps s s' := by
  have ⟨_, ht, h⟩ := h
  refine h ▸ .of_known (fun hk => ?_) rfl rfl rfl
  exact ⟨⟨ht.trans hk.current.typing, hk.current.number⟩, hk.history, hk.stores, hk.attachments⟩

theorem reviseImageMaskViewFrame_settles (h : s.reviseImageMaskViewFrame = some s') : Settles s s' := by
  have hr (attach : NSTextAttachment) : Revises s s' attach := reviseImageMaskViewFrame_revises h
  have ⟨_, _, _, he⟩ := reviseImageMaskViewFrame_eq_some h
  cases he
  refine ⟨⟨fun hk => ?_, fun _ attach ha => ha.of_revises <| hr attach⟩, fun _ attach => ?_⟩
  · refine ⟨hk.current, hk.history, hk.stores, fun attach ha => ?_⟩
    exact hk.current.number attach <| (hr attach).attachment.mp ha
  · exact (hr attach).attachment

section

variable [ParagraphStyles]

theorem addToHistory_keeps (h : s.addToHistory = some s') : SameViews s s' ∧ (s.Known → s'.Known) := by
  have ⟨typing, ht, h⟩ := Option.bind_eq_some_iff.mp h
  cases Option.some.inj h
  refine ⟨⟨rfl, rfl, rfl⟩, fun hk => ⟨hk.current, fun entry he => ?_, nofun, hk.attachments⟩⟩
  have he : entry ∈ s.history ++ [s.entry typing] := by
    dsimp only at he
    split at he
    case isTrue  => exact List.mem_of_mem_tail he
    case isFalse => exact he
  cases List.mem_append.mp he
  case inl he => exact hk.history entry he
  case inr he =>
    cases List.mem_singleton.mp he
    exact ⟨typingAttributes_attachment ht |>.trans hk.current.typing, hk.current.number⟩

theorem textViewDidChange_eq_some (h : s.textViewDidChange = some s') :
    ∃ s₁, s.reviseImageMaskViewFrame = some s₁ ∧ SameViews s₁ s' ∧ (s₁.Known → s'.Known) := by
  have ⟨s₁, hr, h⟩ := Option.bind_eq_some_iff.mp h
  refine ⟨s₁, hr, ?_⟩
  dsimp only at h
  split at h
  case isTrue  => exact Option.some.inj h ▸ ⟨⟨rfl, rfl, rfl⟩, id⟩
  case isFalse => exact addToHistory_keeps h

theorem textViewDidChange_settles (h : s.textViewDidChange = some s') : Settles s s' := by
  have ⟨s₁, hr, hv, hk⟩ := textViewDidChange_eq_some h
  have hs := reviseImageMaskViewFrame_settles hr
  refine ⟨⟨hk ∘ hs.known, fun hk attach ha => ?_⟩, fun hk attach => ?_⟩
  · exact hs.announced hk attach ha |>.congr hv
  · rw [hv.attachments, text, hv.textView]
    exact hs.settled hk attach

variable {range : NSRange} {string : NSString} {isMarked : Bool}

theorem changeText_settles (h : s.changeText range string isMarked = some s') : Settles s s' := by
  have ⟨new, hr, h⟩ := Option.bind_eq_some_iff.mp h
  refine Keeps.trans_settles ?_ <| textViewDidChange_settles h
  refine .of_known (fun hk => ?_) rfl rfl rfl
  refine ⟨⟨hk.current.typing, fun attach hc => ?_⟩, hk.history, hk.stores, hk.attachments⟩
  cases Carries.of_replaceCharacters hr hc
  case inl hc => exact hk.current.number attach hc
  case inr hc =>
    have ha := NSAttributedString.attachment_of_carries_ofString hc
    exact absurd (hk.current.typing.symm.trans ha) nofun

variable [UITextView] {image : Option UIImage} {text : Option NSString} {changeParagraph : Bool}
  {replaceRange : Option NSRange}

omit [ParagraphStyles] [UITextView] in
theorem inserted_spec {tempAttr : NSAttributedString} {attachment : Option NSTextAttachment}
    (h : s.inserted text image = (tempAttr, attachment)) :
    (∀ attach, tempAttr.Carries attach → attachment = some attach) ∧
    ∀ attach, attachment = some attach → attach.number = s.created ∧ tempAttr.Shows attach := by
  have ht (string : NSString) (attach : NSTextAttachment) :
      ¬(NSAttributedString.ofString string fun _ => none).Carries attach := fun hc =>
    absurd (NSAttributedString.attachment_of_carries_ofString hc) nofun
  rw [inserted] at h
  generalize image.bind _ = tempImage at h
  cases tempImage
  case none =>
    obtain ⟨h₁, h₂⟩ := Prod.mk.inj h
    cases h₂
    cases h₁
    exact ⟨fun attach hc => ht _ _ hc |>.elim, nofun⟩
  case some =>
    obtain ⟨h₁, h₂⟩ := Prod.mk.inj h
    cases h₂
    cases h₁
    refine ⟨fun attach hc => ?_, fun attach ha => ?_⟩
    · obtain ⟨c, hm, ha⟩ := NSAttributedString.carries_append.mp hc |>.resolve_right <| ht _ _
      cases List.mem_singleton.mp hm
      cases Option.some.inj ha
      rfl
    · cases Option.some.inj ha
      exact ⟨rfl, _, List.mem_cons_self, rfl, rfl⟩

structure Inserts (s s' : State) (attachment : Option NSTextAttachment) : Prop where
  typing      : s'.textView.typingAttributes .attachment = none
  carries     : ∀ attach, s'.text.Carries attach → s.text.Carries attach ∨ attachment = some attach
  inset       : ∀ attach, attachment = some attach → attach.number = s.created ∧ s'.text.Carries attach
  subviews    : s'.textView.subviews = s.textView.subviews ++ attachment.toList
  created     : s'.created = s.created + attachment.toList.length
  history     : s'.history = s.history
  stores      : s'.stores = s.stores
  attachments : s'.attachments = s.attachments
  calls       : s'.attachmentCalls = s.attachmentCalls

theorem insert_inserts (hu : ∀ text range, UITextView.typingAttributes text range .attachment = none)
    (hk : s.Known) (h : s.insert text image changeParagraph replaceRange = some s') :
    ∃ s₁ s₂ attachment, Inserts s s₁ attachment ∧ s₁.textViewDidChange = some s₂ ∧
      s' = s₂.didInsetAttachment attachment := by
  rw [insert] at h
  generalize hi : s.inserted text image = inserted at h
  obtain ⟨tempAttr, attachment⟩ := inserted
  obtain ⟨hnone, hsome⟩ := inserted_spec hi
  obtain ⟨typing, ht, h⟩ := Option.bind_eq_some_iff.mp h
  obtain ⟨⟨new, range⟩, hn, h⟩ := Option.bind_eq_some_iff.mp h
  obtain ⟨s₂, hd, h⟩ := Option.bind_eq_some_iff.mp h
  have ht := typingAttributes_attachment ht |>.trans hk.current.typing
  have hcarries (attach : NSTextAttachment) (hc : new.Carries attach) :
      s.text.Carries attach ∨ attachment = some attach :=
    carries_insertedText ht hn hc |>.imp_right <| hnone attach
  have hattachment (attach : NSTextAttachment) (ha : attachment = some attach) :
      attach.number = s.created ∧ new.Carries attach :=
    ⟨hsome attach ha |>.left, shows_insertedText ht hn (hsome attach ha).right |>.carries⟩
  refine ⟨_, s₂, attachment, ?_, hd, (Option.some.inj h).symm⟩
  cases changeParagraph
  case false => exact ⟨hu _ _, hcarries, hattachment, rfl, rfl, rfl, rfl, rfl, rfl⟩
  case true  => exact ⟨ht, hcarries, hattachment, rfl, rfl, rfl, rfl, rfl, rfl⟩

section

omit [UITextView]

omit [ParagraphStyles] in
theorem Inserts.known {attachment : Option NSTextAttachment} (h : Inserts s s' attachment)
    (hk : s.Known) : s'.Known := by
  have hle : s.created ≤ s'.created := by rw [h.created]; exact Nat.le_add_right _ _
  refine ⟨⟨h.typing, fun attach hc => ?_⟩, ?_, ?_, ?_⟩
  · cases h.carries attach hc
    case inl hc => exact Nat.lt_of_lt_of_le (hk.current.number attach hc) hle
    case inr ha =>
      rw [h.created, (h.inset attach ha).left, ha]
      exact Nat.lt_succ_self _
  · exact fun entry he => hk.history entry (h.history ▸ he) |>.mono hle
  · exact fun entry he => hk.stores entry (h.stores ▸ he) |>.mono hle
  · exact fun attach ha => Nat.lt_of_lt_of_le (hk.attachments attach (h.attachments ▸ ha)) hle

omit [ParagraphStyles] in
theorem Announced.didInsetAttachment {attachment : Option NSTextAttachment} (h : s.Announced attach)
    (hn : attachment ≠ some attach) : (s.didInsetAttachment attachment).Announced attach := by
  have hc : (s.didInsetAttachment attachment).notifications attach = s.notifications attach := by
    refine notifications_append rfl |>.trans ?_
    cases attachment
    case none => simp
    case some attach' =>
      have hn : attach' ≠ attach := fun he => hn <| congrArg some he
      simp [AttachmentCall.about, hn]
  exact ⟨hc ▸ h.alternates, h.subview, hc ▸ h.last⟩

theorem Inserts.settles {attachment : Option NSTextAttachment} {s₁ s₂ : State}
    (h : Inserts s s₁ attachment) (hd : s₁.textViewDidChange = some s₂) :
    Settles s (s₂.didInsetAttachment attachment) := by
  have hs := textViewDidChange_settles hd
  refine ⟨⟨fun hk => ?_, fun hk attach ha => ?_⟩, fun hk => hs.settled <| h.known hk⟩
  · have ⟨hcurrent, hhistory, hstores, hattachments⟩ := hs.known <| h.known hk
    exact ⟨hcurrent, hhistory, hstores, hattachments⟩
  · by_cases hi : attachment = some attach
    case neg =>
      have hv : attach ∈ s₁.textView.subviews ↔ attach ∈ s.textView.subviews := by
        simp [h.subviews, hi]
      have ha := hs.announced (h.known hk) attach <| ha.of_eq h.calls hv h.attachments
      exact ha.didInsetAttachment hi
    case pos =>
      have ⟨hnumber, hc⟩ := h.inset attach hi
      have hm : attach ∉ s.attachments := fun hm => Nat.ne_of_lt (hk.attachments attach hm) hnumber
      have hv : attach ∈ s₁.textView.subviews := by simp [h.subviews, hi]
      have ⟨r, hr, ⟨ht, hatt, hcalls⟩, _⟩ := textViewDidChange_eq_some hd
      have hr := ha.of_revises_inserted hm h.calls hv hc <| reviseImageMaskViewFrame_revises hr
      rw [hi]
      refine hr.congr ⟨ht, hatt, ?_⟩
      exact congrArg (· ++ _) hcalls

end

section

omit [ParagraphStyles]

theorem undo_keeps (s : State) : Keeps s s.undo := by
  cases s.undo_cases
  case inl h => exact h.right.symm ▸ .refl s
  case inr h =>
    have ⟨done, a, b, hh, hu⟩ := h
    have hh : s.history = done ++ [a, b] := congrArg UndoHistory.done hh
    refine hu ▸ .of_known (fun hk => ?_) rfl rfl rfl
    have ha := hk.history a <| by simp [hh]
    have hb := hk.history b <| by simp [hh]
    refine ⟨⟨ha.typing, ha.number⟩, fun entry he => ?_, fun entry he => ?_, hk.attachments⟩
    · have he : entry ∈ done ++ [a] := he
      refine hk.history entry ?_
      rw [hh, List.append_cons]
      exact List.mem_append_left _ he
    · exact List.mem_append.mp he |>.elim (hk.stores entry) fun he => List.mem_singleton.mp he ▸ hb

theorem redo_keeps (s : State) : Keeps s s.redo := by
  cases s.redo_cases
  case inl h => exact h.right.symm ▸ .refl s
  case inr h =>
    have ⟨undone, a, hh, hr⟩ := h
    have hh : s.stores = undone ++ [a] := congrArg UndoHistory.undone hh
    refine hr ▸ .of_known (fun hk => ?_) rfl rfl rfl
    have ha := hk.stores a <| by simp [hh]
    refine ⟨⟨ha.typing, ha.number⟩, fun entry he => ?_, fun entry he => ?_, hk.attachments⟩
    · exact List.mem_append.mp he |>.elim (hk.history entry) fun he => List.mem_singleton.mp he ▸ ha
    · exact hk.stores entry <| hh ▸ List.mem_append_left _ he

theorem revokeText_settles {revoke : Bool} (h : s.revokeText revoke = some s') : Settles s s' := by
  have hk : Keeps s (if revoke then s.undo else s.redo) := by
    cases revoke
    case false => exact redo_keeps s
    case true  => exact undo_keeps s
  refine hk.trans_settles <| Keeps.trans_settles ?_ <| reviseImageMaskViewFrame_settles h
  refine .of_known (fun hk => ?_) rfl rfl rfl
  exact ⟨hk.current, hk.history, hk.stores, hk.attachments⟩

end

variable (hu : ∀ text range, UITextView.typingAttributes text range .attachment = none)
include hu

omit [ParagraphStyles] in
theorem setSelectedRange_keeps : Keeps s (s.setSelectedRange range) := by
  refine .of_known (fun hk => ?_) rfl rfl rfl
  exact ⟨⟨hu _ _, hk.current.number⟩, hk.history, hk.stores, hk.attachments⟩

theorem insetOrDeleteTabStyle_keeps {style : RZTextTabStyle}
    (h : s.insetOrDeleteTabStyle style = some s') : Keeps s s' := by
  have hset {attributedText new : NSAttributedString} {newRange : NSRange}
      (ht : attributedText = s.text ∨ ∃ typing string, s.typingAttributes = some typing ∧
        attributedText = .ofString string typing)
      (hn : attributedText.transParagraphsTo s.textView.selectedRange style = some new) :
      Keeps s { s.setAttributedText new with mainQueue := s.mainQueue ++ [newRange] } := by
    refine .of_known (fun hk => ?_) rfl rfl rfl
    refine ⟨⟨hu _ _, fun attach hc => ?_⟩, hk.history, hk.stores, hk.attachments⟩
    have hc := Carries.of_transParagraphsTo hn hc
    cases ht
    case inl ht =>
      subst ht
      exact hk.current.number attach hc
    case inr ht =>
      have ⟨_, _, htyping, he⟩ := ht
      subst he
      have ha := NSAttributedString.attachment_of_carries_ofString hc
      have hnone := typingAttributes_attachment htyping |>.trans hk.current.typing
      exact absurd (hnone.symm.trans ha) nofun
  rw [insetOrDeleteTabStyle] at h
  split at h
  case isTrue =>
    have ⟨typing, htyping, h⟩ := Option.bind_eq_some_iff.mp h
    have ⟨_, he, h⟩ := Option.bind_eq_some_iff.mp h
    have ⟨_, hn, h⟩ := Option.bind_eq_some_iff.mp h
    have ⟨_, _, h⟩ := Option.bind_eq_some_iff.mp h
    exact Option.some.inj h ▸ hset (.inr ⟨typing, _, htyping, (Option.some.inj he).symm⟩) hn
  case isFalse =>
    have ⟨_, ht, h⟩ := Option.bind_eq_some_iff.mp h
    have ⟨_, hn, h⟩ := Option.bind_eq_some_iff.mp h
    have ⟨_, _, h⟩ := Option.bind_eq_some_iff.mp h
    exact Option.some.inj h ▸ hset (.inl (Option.some.inj ht).symm) hn

theorem insert_settles (hk : s.Known) (h : s.insert text image changeParagraph replaceRange = some s') :
    Settles s s' := by
  have ⟨_, _, _, hi, hd, he⟩ := insert_inserts hu hk h
  exact he ▸ hi.settles hd

end

end State
end RichText

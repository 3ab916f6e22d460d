import Mathlib.Data.List.Basic
import NodemFirmware.Lib.Transition

/-! # The status message

`nodem_status_message_set` copies the text into a static buffer and then points the runtime at
it; `modem_status_task` calls it while `nodem_task` draws frames.

* `Popup` has the copy and the publishing of a set as steps of their own.
* `spliced` is what a frame between the two sees of the message that is shown.
* `popup_genuine`: the frames see nothing but texts that were set exactly in the runs in which
  what such a frame sees happens to be one of them. -/

namespace NodemFirmware.Nodem

open Transition

abbrev Bytes := List UInt8

/-- `STATUS_MESSAGE_BUF_SIZE`. -/
def statusMessageBufSize : ℕ := 64

/-- `core::str::from_utf8`, whether the bytes are a string. -/
def fromUtf8 (text : Bytes) : Bool := ByteArray.validateUTF8 ⟨text.toArray⟩

/-- The texts that `nodem_status_message_set` takes. -/
def messageAccepted (text : Bytes) : Prop :=
  text.length ≤ statusMessageBufSize ∧ fromUtf8 text = true

instance (text : Bytes) : Decidable (messageAccepted text) := inferInstanceAs (Decidable (_ ∧ _))

/-- `STATUS_MESSAGE_BUF`, the length of the slice in `status_message`, and the text of a set
that has been copied and not published.  The last three fields record the texts passed to a
successful set, the one published last unless it was cleared, and what each frame saw, with the
texts passed by then. -/
structure Popup where
  statusMessageBuf : Bytes
  statusMessage : Option ℕ
  copied : Option Bytes
  texts : List Bytes
  shown : Option Bytes
  frames : List (Option Bytes × List Bytes)
deriving DecidableEq

inductive PopupStep where
  /-- A set, up to the copy, or refused. -/
  | set (text : Bytes)
  /-- The rest of the set. -/
  | publish
  | clear
  /-- `nodem_runtime_run`. -/
  | frame
deriving DecidableEq

namespace Popup

def start : Popup := ⟨List.replicate statusMessageBufSize 0, none, none, [], none, []⟩

/-- `nodem_status_message_set`, up to the copy. -/
def set (p : Popup) (text : Bytes) : Popup :=
  if messageAccepted text then
    { p with
      statusMessageBuf := text ++ p.statusMessageBuf.drop text.length
      copied := some text
      texts := p.texts ++ [text] }
  else p

/-- `dom.status_message = Some(stored)`. -/
def publish (p : Popup) : Popup :=
  match p.copied with
  | some text => { p with statusMessage := some text.length, copied := none, shown := some text }
  | none => p

/-- `nodem_status_message_clear`. -/
def clear (p : Popup) : Popup := { p with statusMessage := none, shown := none }

/-- The message that the runtime draws. -/
def message (p : Popup) : Option Bytes := p.statusMessage.map p.statusMessageBuf.take

def frame (p : Popup) : Popup := { p with frames := p.frames ++ [(p.message, p.texts)] }

def apply (p : Popup) : PopupStep → Popup
  | .set text => p.set text
  | .publish => p.publish
  | .clear => p.clear
  | .frame => p.frame

/-- Sets and clears come from one thread. -/
def Possible (p : Popup) : PopupStep → Prop
  | .set _ => p.copied = none
  | .publish => p.copied ≠ none
  | .clear => p.copied = none
  | .frame => True

instance (p : Popup) : (e : PopupStep) → Decidable (p.Possible e)
  | .set _ => inferInstanceAs (Decidable (_ = _))
  | .publish => inferInstanceAs (Decidable (_ ≠ _))
  | .clear => inferInstanceAs (Decidable (_ = _))
  | .frame => .isTrue trivial

end Popup

def PopupTrans (p : Popup) (e : PopupStep) (p' : Popup) : Prop :=
  p.Possible e ∧ p' = p.apply e

/-- The bytes of a new text, cut or extended with those of the old one to the old one's
length. -/
def spliced (old new : Bytes) : Bytes := (new ++ old.drop new.length).take old.length

namespace Popup

/-- What a frame needs: no message is shown, or no set is between its copy and its publishing,
or the new text over the old one makes a text that was set. -/
def InTurn (p : Popup) (e : PopupStep) : Prop :=
  e = .frame → ∀ old ∈ p.shown, ∀ new ∈ p.copied, spliced old new ∈ p.texts

instance (p : Popup) (e : PopupStep) : Decidable (p.InTurn e) :=
  inferInstanceAs (Decidable (_ → _))

/-- Every frame saw no message or a text that was set, and so a string. -/
def Genuine (p : Popup) : Prop :=
  ∀ f ∈ p.frames, ∀ text ∈ f.1, text ∈ f.2 ∧ fromUtf8 text = true

/-- What is in the buffer: the text that is shown, and over it one that was copied. -/
structure Faithful (p : Popup) : Prop where
  size : p.statusMessageBuf.length = statusMessageBufSize
  texts : ∀ text ∈ p.texts, messageAccepted text
  message : p.statusMessage = p.shown.map List.length
  shown : ∀ old ∈ p.shown, old ∈ p.texts
  kept : p.copied = none → ∀ old ∈ p.shown, p.statusMessageBuf.take old.length = old
  copied : ∀ new ∈ p.copied, new ∈ p.texts ∧ p.statusMessageBuf.take new.length = new
  mixed : ∀ new ∈ p.copied, ∀ old ∈ p.shown,
    p.statusMessageBuf.take old.length = spliced old new

variable {p : Popup}

theorem start_faithful : start.Faithful where
  size := rfl
  texts := fun _ h => by cases h
  message := rfl
  shown := fun _ h => by cases h
  kept := fun _ _ h => by cases h
  copied := fun _ h => by cases h
  mixed := fun _ h => by cases h

/-- A copy over a text that the buffer starts with. -/
theorem take_copy {buf old : Bytes} (hold : buf.take old.length = old) (new : Bytes) :
    (new ++ buf.drop new.length).take old.length = spliced old new := by
  have hdrop : old.drop new.length =
      (buf.drop new.length).take (old.length - new.length) := by
    rw [← List.drop_take, hold]
  rw [spliced, hdrop, List.take_append, List.take_append, List.take_take, Nat.min_self]

namespace Faithful

theorem set (h : p.Faithful) (hidle : p.copied = none) (text : Bytes) :
    (p.set text).Faithful := by
  unfold Popup.set
  split_ifs with hacc
  · have hlen := hacc.1
    have hsize := h.size
    refine ⟨?_, ?_, h.message, ?_, nofun, ?_, ?_⟩
    · simp only [List.length_append, List.length_drop]
      omega
    · intro t ht
      rcases List.mem_append.mp ht with ht | ht
      · exact h.texts t ht
      · rw [List.mem_singleton.mp ht]
        exact hacc
    · exact fun old hold => List.mem_append_left _ (h.shown old hold)
    · rintro new ⟨⟩
      exact ⟨by simp, by simp⟩
    · rintro new ⟨⟩ old hold
      exact take_copy (h.kept hidle old hold) text
  · exact h

theorem publish (h : p.Faithful) : p.publish.Faithful := by
  unfold Popup.publish
  cases hcopied : p.copied with
  | none => exact h
  | some text =>
      obtain ⟨hmem, hbuf⟩ := h.copied text hcopied
      refine ⟨h.size, h.texts, rfl, ?_, ?_, nofun, nofun⟩
      · rintro old ⟨⟩
        exact hmem
      · rintro - old ⟨⟩
        exact hbuf

theorem clear (h : p.Faithful) : p.clear.Faithful :=
  ⟨h.size, h.texts, rfl, nofun, nofun, h.copied, nofun⟩

/-- What a frame sees of the text that is shown. -/
theorem seen (h : p.Faithful) {text : Bytes} (hseen : text ∈ p.message) :
    ∃ old ∈ p.shown, text = p.statusMessageBuf.take old.length := by
  rw [Popup.message, h.message, Option.map_map] at hseen
  obtain ⟨old, hold, rfl⟩ := Option.map_eq_some_iff.mp hseen
  exact ⟨old, hold, rfl⟩

theorem message_of_shown (h : p.Faithful) {old : Bytes} (hold : old ∈ p.shown) :
    p.statusMessageBuf.take old.length ∈ p.message := by
  rw [Popup.message, h.message, Option.map_map]
  exact Option.map_eq_some_iff.mpr ⟨old, hold, rfl⟩

/-- A frame sees a text that was set exactly when it is in turn. -/
theorem frame_iff (h : p.Faithful) :
    (∀ text ∈ p.message, text ∈ p.texts ∧ fromUtf8 text = true) ↔ p.InTurn .frame := by
  constructor
  · intro hgenuine _ old hold new hnew
    rw [← h.mixed new hnew old hold]
    exact (hgenuine _ (h.message_of_shown hold)).1
  · intro hturn text hseen
    obtain ⟨old, hold, rfl⟩ := h.seen hseen
    have hmem : p.statusMessageBuf.take old.length ∈ p.texts := by
      cases hcopied : p.copied with
      | none =>
          rw [h.kept hcopied old hold]
          exact h.shown old hold
      | some new =>
          rw [h.mixed new hcopied old hold]
          exact hturn rfl old hold new hcopied
    exact ⟨hmem, (h.texts _ hmem).2⟩

end Faithful

theorem publish_frames (p : Popup) : p.publish.frames = p.frames := by
  unfold publish
  cases p.copied <;> rfl

theorem set_frames (p : Popup) (text : Bytes) : (p.set text).frames = p.frames := by
  unfold set
  split_ifs <;> rfl

/-- The steps other than a frame add none. -/
theorem genuine_iff {p' : Popup} {e : PopupStep} (hframes : p'.frames = p.frames)
    (hne : e ≠ .frame) : p'.Genuine ↔ p.Genuine ∧ p.InTurn e := by
  unfold Genuine
  rw [hframes]
  exact ⟨fun h => ⟨h, fun he => absurd he hne⟩, fun h => h.1⟩

theorem Faithful.step (h : p.Faithful) {e : PopupStep} (hposs : p.Possible e) :
    (p.apply e).Faithful ∧ ((p.apply e).Genuine ↔ p.Genuine ∧ p.InTurn e) := by
  cases e with
  | set text => exact ⟨h.set hposs text, genuine_iff (p.set_frames text) nofun⟩
  | publish => exact ⟨h.publish, genuine_iff p.publish_frames nofun⟩
  | clear => exact ⟨h.clear, genuine_iff rfl nofun⟩
  | frame =>
      refine ⟨⟨h.size, h.texts, h.message, h.shown, h.kept, h.copied, h.mixed⟩, ?_⟩
      rw [← h.frame_iff]
      show (∀ f ∈ p.frames ++ [(p.message, p.texts)], ∀ text ∈ f.1, _) ↔ _
      rw [List.forall_mem_append, List.forall_mem_singleton, Genuine]

end Popup

variable {p : Popup}

/-- **The frames see nothing but texts that were set** exactly when no frame is drawn from a
text that is being copied over the one shown, unless the two make one that was set. -/
theorem popup_genuine {steps : List PopupStep} (h : Run PopupTrans .start steps p) :
    p.Genuine ↔ Along Popup.apply Popup.InTurn .start steps := by
  refine h.along_iff (I := Popup.Faithful) (fun _ _ _ hr => hr.2) ?_ Popup.start_faithful ?_
  · rintro q e - hfaithful ⟨hposs, rfl⟩
    exact hfaithful.step hposs
  · intro f hf
    cases hf

/-- A message is set and drawn, another is set, and a frame falls between its copy and its
publishing. -/
def frameBetween (first second : String) : List PopupStep :=
  [.set first.toUTF8.toList, .publish, .frame, .set second.toUTF8.toList, .frame, .publish, .frame]

/-- Texts of one length. -/
theorem popup_genuine_same_length :
    ((frameBetween "ab" "cd").foldl Popup.apply .start).frames.length = 3 ∧
      ((frameBetween "ab" "cd").foldl Popup.apply .start).Genuine := by
  have hrun : Run PopupTrans .start (frameBetween "ab" "cd")
      ((frameBetween "ab" "cd").foldl Popup.apply .start) :=
    Run.of_along Popup.apply Popup.Possible (fun _ _ h => ⟨h, rfl⟩) (by decide +kernel)
  exact ⟨by decide +kernel, (popup_genuine hrun).mpr (by decide +kernel)⟩

/-- **A frame sees a text nobody set**, the first letter of which is the new one's. -/
theorem popup_mixed :
    Run PopupTrans .start (frameBetween "ab" "c")
        ((frameBetween "ab" "c").foldl Popup.apply .start) ∧
      (some "cb".toUTF8.toList, ["ab".toUTF8.toList, "c".toUTF8.toList]) ∈
        ((frameBetween "ab" "c").foldl Popup.apply .start).frames ∧
      ¬ ((frameBetween "ab" "c").foldl Popup.apply .start).Genuine := by
  have hseen : (some "cb".toUTF8.toList, ["ab".toUTF8.toList, "c".toUTF8.toList]) ∈
      ((frameBetween "ab" "c").foldl Popup.apply .start).frames := by
    decide +kernel
  refine ⟨Run.of_along Popup.apply Popup.Possible (fun _ _ h => ⟨h, rfl⟩) (by decide +kernel),
    hseen, ?_⟩
  intro hgenuine
  have hmem := (hgenuine _ hseen _ rfl).1
  exact absurd hmem (by decide +kernel)

end NodemFirmware.Nodem

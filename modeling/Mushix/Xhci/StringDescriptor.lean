import Mushix.Lib.Utf16
import Mushix.Xhci.SectorRead

/-!
# String descriptors

How the program asks a device for a string (`xhci.rs`). The device sends UTF-16, and the program
decodes UTF-8.

* `Driver.requestStringDescriptor`: the request;
* `Driver.requestStringDescriptor_returns_iff`: which strings it returns as they are.
-/

namespace Mushix

open Method (Returns)
open CommandRing (NotLink)

/-- The string that is made of a descriptor: its bytes behind the header are taken for UTF-8, and
zeros are left out. -/
def stringOf (buf : List (BitVec 8)) : String :=
  String.ofList ((Utf8.fromUtf8Lossy (buf.drop 2)).filter (· ≠ Utf16.nul))

/-- The string descriptor that a device has for a string: its length, its type and the code
units. -/
def stringDescriptor (s : String) : List (BitVec 8) :=
  BitVec.ofNat 8 (2 + 2 * (Utf16.encode s.toList).length) :: UsbDescriptorType.string.toU8 ::
    Utf16.bytesLE (Utf16.encode s.toList)

theorem length_bytesLE (us : List ℕ) : (Utf16.bytesLE us).length = 2 * us.length := by
  induction us with
  | nil => rfl
  | cons u us ih =>
    rw [Utf16.bytesLE, List.flatMap_cons, List.length_append, Bytes.length_toLE, List.length_cons,
      ← Utf16.bytesLE, ih]
    omega

theorem DataStageTrb.notLink_newIn (buf : PinnedSlice) :
    NotLink (DataStageTrb.newIn buf).toGeneric := by
  have htype : Volatile.readBits (TrbType.dataStage.toU32 <<< 10 |||
      GenericTrbEntry.ctrlBitDataDirIn ||| GenericTrbEntry.ctrlBitInterruptOnCompletion |||
      GenericTrbEntry.ctrlBitInterruptOnShortPacket) 10 6 ≠ TrbType.link.toU32 := by decide
  exact htype

theorem StatusStageTrb.notLink_newOut : NotLink StatusStageTrb.newOut.toGeneric := by
  unfold NotLink
  decide

namespace Driver

variable {σ : Type} {w : World σ} {slot : BitVec 8} {ctrlEpRing : ℕ} {langId : BitVec 16}
  {index : BitVec 8}

/-- `request_string_descriptor` reads a string of the device in a language. -/
def requestStringDescriptor (w : World σ) (slot : BitVec 8) (ctrlEpRing : ℕ) (langId : BitVec 16)
    (index : BitVec 8) : Method (Driver σ) String := do
  let buf ← newBuffer w 128 1
  let bytes ← requestDescriptor w slot ctrlEpRing .string index langId buf
  return stringOf bytes

/-- The device answers the request for a string with these bytes: they are in the buffer of 128
bytes when the request returns, and what is behind them is zero. -/
def AnswersString (w : World σ) (slot : BitVec 8) (ctrlEpRing : ℕ) (langId : BitVec 16)
    (index : BitVec 8) (received : List (BitVec 8)) (d d' : Driver σ) : Prop :=
  requestDescriptor w slot ctrlEpRing .string index langId (nextBuffer w d 128)
    { d with buffers := d.buffers + 1 } = .ok (padded 128 received) d'

/-- What is left of a string in the buffer is the string exactly when it is ASCII. -/
theorem stringOf_padded_iff {s : String} (hunits : (Utf16.encode s.toList).length ≤ 63)
    (hnul : Utf16.nul ∉ s.toList) :
    stringOf (padded 128 (stringDescriptor s)) = s ↔ ∀ c ∈ s.toList, c.toNat < 0x80 := by
  have hlen : (stringDescriptor s).length = 2 + 2 * (Utf16.encode s.toList).length := by
    simp [stringDescriptor, length_bytesLE]
    omega
  have hbuf : (padded 128 (stringDescriptor s)).drop 2 =
      Utf16.bytesLE (Utf16.encode s.toList) ++
        List.replicate (128 - (stringDescriptor s).length) 0 := by
    rw [padded, List.take_of_length_le (by omega)]
    rfl
  rw [stringOf, hbuf, ← Utf16.filter_fromUtf8Lossy_eq_iff hnul]
  constructor
  · intro h
    have hchars := congrArg String.toList h
    rwa [String.toList_ofList] at hchars
  · intro h
    rw [h, String.ofList_toList]

/-- In a sound driver, a transfer on the control endpoint whose event is a success answers the
request with the bytes that it has brought. -/
theorem answersString_of_sound (w : World σ) (answers : Answers) {d : Driver (σ × ℕ)}
    {regs : XhcRegisters} (h : d.SoundAt regs) (hnotifies : regs.Notifies slot 1)
    (hok : (answers d.hardware.2).1.transferResultOk = .ok ()) (ctrlEpRing : ℕ)
    (langId : BitVec 16) (index : BitVec 8) :
    ∃ d', AnswersString (w.answering answers) slot ctrlEpRing langId index
      (answers d.hardware.2).2 d d' := by
  set buf := nextBuffer (w.answering answers) d 128 with hbuf
  have hkeep : ∀ trb : GenericTrbEntry,
      (push ctrlEpRing trb : Method (Driver (σ × ℕ)) _).Keeps fun d => d.hardware.2 :=
    fun trb => keeps_push (fun _ _ => rfl) ctrlEpRing trb
  -- three TRBs and the doorbell, none of which waits for an event
  have htrb : NotLink (descriptorSetup .string index langId buf).toGeneric :=
    SetupStageTrb.notLink _ _ _ _ _
  obtain ⟨ptr, d₁, hsetup, h₁, hcount₁⟩ := push_answered h ctrlEpRing htrb
  obtain ⟨ptr₂, d₂, hdata, h₂, hcount₂⟩ :=
    (returns_push h₁ ctrlEpRing (DataStageTrb.notLink_newIn buf)).and_keeps (hkeep _)
  obtain ⟨ptr₃, d₃, hstatus, h₃, hcount₃⟩ :=
    (returns_push h₂ ctrlEpRing StatusStageTrb.notLink_newOut).and_keeps (hkeep _)
  obtain ⟨hslot, hdci⟩ := hnotifies
  obtain ⟨⟨⟩, d₄, hnotify, h₄, hcount₄⟩ := (returns_notifyEp (w := w.answering answers) h₃
    (List.getElem?_eq_getElem hslot) hdci).and_keeps (keeps_notifyEp (g := fun d => d.hardware.2)
      (fun _ _ => rfl) (fun _ _ _ => rfl) slot 1)
  have hcount : d₄.hardware.2 = d.hardware.2 := by
    rw [hcount₄, hcount₃, hcount₂, hcount₁]
  -- so that the first answer is the one for the request
  have hawait : awaitEvent (w.answering answers) d₄ = .ok (answers d.hardware.2)
      ((awaitEvent (w.answering answers)).stateAfter d₄) := by
    rw [← hcount]
    rfl
  refine ⟨(awaitEvent (w.answering answers)).stateAfter d₄, ?_⟩
  rw [AnswersString, requestDescriptor, ← hbuf, Method.bind_of_ok hsetup, Method.bind_of_ok hdata,
    Method.bind_of_ok hstatus, Method.bind_of_ok hnotify, Method.bind_of_ok hawait, ← filled_eq]
  exact Method.bind_of_ok (lift_eq_ok_iff.2 ⟨hok, rfl⟩)

/-- What a string request returns when the device answers it. -/
theorem requestStringDescriptor_of_answers {received : List (BitVec 8)} {d d' : Driver σ}
    (h : AnswersString w slot ctrlEpRing langId index received d d') :
    requestStringDescriptor w slot ctrlEpRing langId index d =
      .ok (stringOf (padded 128 received)) d' := by
  have hbuffer : newBuffer w 128 1 d =
      .ok (nextBuffer w d 128) { d with buffers := d.buffers + 1 } := rfl
  rw [requestStringDescriptor, Method.bind_of_ok hbuffer, Method.bind_of_ok h]
  rfl

/-- A string of up to 63 code units without NUL is returned as it is exactly when it is ASCII. -/
theorem requestStringDescriptor_returns_iff {s : String} {d d' : Driver σ}
    (hunits : (Utf16.encode s.toList).length ≤ 63) (hnul : Utf16.nul ∉ s.toList)
    (h : AnswersString w slot ctrlEpRing langId index (stringDescriptor s) d d') :
    requestStringDescriptor w slot ctrlEpRing langId index d = .ok s d' ↔
      ∀ c ∈ s.toList, c.toNat < 0x80 := by
  rw [requestStringDescriptor_of_answers h, ← stringOf_padded_iff hunits hnul]
  constructor
  · intro hrun
    injection hrun
  · intro hstring
    rw [hstring]

/-- A device that answers every transfer with the descriptor of a string. -/
def answering (s : String) : Answers := fun _ => (successfulTransfer, stringDescriptor s)

/-- The hardware with that device. -/
def answeringWorld (s : String) : World (Unit × ℕ) :=
  (World.steady 0 successfulTransfer).answering (answering s)

/-- The device of the example answers with its descriptor. -/
theorem answersString_answeringWorld (s : String) :
    ∃ d', AnswersString (answeringWorld s) 1 0 0x409 1 (stringDescriptor s) startAnswered d' := by
  have hok : successfulTransfer.transferResultOk = .ok () := by decide
  exact answersString_of_sound _ (answering s) soundAt_startAnswered
    (notifies_eightPorts (by decide)) hok 0 0x409 1

theorem requestStringDescriptor_returns_iff_usb :
    ∃ d', requestStringDescriptor (answeringWorld "USB") 1 0 0x409 1 startAnswered = .ok "USB" d' ↔
      ∀ c ∈ "USB".toList, c.toNat < 0x80 := by
  obtain ⟨d', h⟩ := answersString_answeringWorld "USB"
  exact ⟨d', requestStringDescriptor_returns_iff (by decide) (by decide) h⟩

/-- U+00E9 does not come back. -/
theorem not_returns_accent :
    (Utf16.encode "é".toList).length ≤ 63 ∧ Utf16.nul ∉ "é".toList ∧
      ∃ d', AnswersString (answeringWorld "é") 1 0 0x409 1 (stringDescriptor "é") startAnswered d' ∧
        requestStringDescriptor (answeringWorld "é") 1 0 0x409 1 startAnswered ≠ .ok "é" d' := by
  have hunits : (Utf16.encode "é".toList).length ≤ 63 := by decide
  have hnul : Utf16.nul ∉ "é".toList := by decide
  obtain ⟨d', h⟩ := answersString_answeringWorld "é"
  refine ⟨hunits, hnul, d', h, ?_⟩
  rw [requestStringDescriptor_of_answers h]
  intro hrun
  injection hrun with hstring
  have hascii := (stringOf_padded_iff hunits hnul).1 hstring 'é' (by simp)
  exact absurd hascii (by decide)

end Driver

end Mushix

import Mushix.Lib.Fields
import Mushix.Xhci.Context

/-!
# The fields of the contexts

The constructors of endpoint contexts and the setters of the slot context as writes to bit fields.

* `endpointLayout`, `dequeLayout`, `slotLayout`: where the fields are;
* `EndpointContext.Decodes`: what a controller reads from an endpoint context;
* `SlotCall`: a call of a setter of the slot context, with the arguments it accepts;
* `contexts_fields`: what the constructors build, and what any sequence of calls leaves in the slot
  context.
-/

namespace Mushix

open BitField (FieldLayout lowMask)

/-! ## Endpoint contexts -/

/-- The fields of `data[1]` of an endpoint context that are written. -/
inductive EndpointField where
  | errorCount
  | epType
  | maxBurstSize
  | maxPacketSize
  deriving DecidableEq

namespace EndpointField

def shift : EndpointField → ℕ
  | errorCount => 1
  | epType => 3
  | maxBurstSize => 8
  | maxPacketSize => 16

def width : EndpointField → ℕ
  | errorCount => 2
  | epType => 3
  | maxBurstSize => 4
  | maxPacketSize => 16

end EndpointField

/-- The fields of `data[1]`. -/
def endpointLayout : FieldLayout Unit EndpointField 32 where
  word _ := ()
  shift := EndpointField.shift
  width := EndpointField.width
  width_lt i := by cases i <;> decide
  end_le i := by cases i <;> decide
  apart i j hne _ := by cases i <;> cases j <;> first | exact absurd rfl hne | decide

/-- The fields of `tr_deque_ptr`. -/
inductive DequeField where
  | cycleState
  | pointer
  deriving DecidableEq

namespace DequeField

def shift : DequeField → ℕ
  | cycleState => 0
  | pointer => 4

def width : DequeField → ℕ
  | cycleState => 1
  | pointer => 60

end DequeField

/-- The fields of `tr_deque_ptr`. -/
def dequeLayout : FieldLayout Unit DequeField 64 where
  word _ := ()
  shift := DequeField.shift
  width := DequeField.width
  width_lt i := by cases i <;> decide
  end_le i := by cases i <;> decide
  apart i j hne _ := by cases i <;> cases j <;> first | exact absurd rfl hne | decide

/-- The setters of the words of 32 bits replace a field. -/
theorem replaceField_eq (word : BitVec 32) (width shift : ℕ) (value : BitVec 32) :
    replaceField word (lowMask 32 width) shift value =
      (value <<< shift) ||| (word &&& ~~~(lowMask 32 width <<< shift)) :=
  BitVec.or_comm _ _

namespace EndpointContext

variable {self ep : EndpointContext} {epType : EndpointType} {maxPacketSize : BitVec 16}
  {ptr : BitVec 64}

/-- A write to the second word replaces the field. -/
theorem write_data1 (word : BitVec 32) (i : EndpointField) (v : BitVec 32) :
    endpointLayout.write (fun _ => word) i v () =
      replaceField word (lowMask 32 i.width) i.shift v := by
  rw [FieldLayout.write, Function.update_self, replaceField_eq]
  rfl

/-- The number of every kind of endpoint fits into its field. -/
theorem fits_epType (epType : EndpointType) : endpointLayout.Fits .epType epType.toU32 := by
  cases epType <;> exact rfl

theorem fits_maxPacketSize (maxPacketSize : BitVec 16) :
    endpointLayout.Fits .maxPacketSize (maxPacketSize.setWidth 32) := by
  apply BitVec.eq_of_getLsbD_eq
  intro b hb
  rw [BitVec.getLsbD_and, BitField.getLsbD_lowMask (by decide), BitVec.getLsbD_setWidth]
  by_cases hlt : b < 16
  · simp [EndpointField.width, endpointLayout, hlt]
  · simp [BitVec.getLsbD_of_ge maxPacketSize b (not_lt.1 hlt)]

/-- An address without its low four bits fits into its field. -/
theorem fits_pointer (ptr : BitVec 64) : dequeLayout.Fits .pointer (ptr >>> 4) :=
  lowMask_and_address ptr

/-- `write_bits` on `tr_deque_ptr` replaces a field, too. -/
theorem writeBits_eq {i : DequeField} {v : BitVec 64} (hfits : dequeLayout.Fits i v)
    (word : BitVec 64) : Volatile.writeBits word i.shift i.width v =
      .ok (dequeLayout.write (fun _ => word) i v ()) := by
  rw [FieldLayout.write, Function.update_self]
  exact Volatile.writeBits_of_fits hfits word i.shift

theorem setEpType_eq : self.setEpType epType =
    .ok { self with
      data1 := endpointLayout.write (fun _ => self.data1) .epType epType.toU32 () } := by
  rw [write_data1]
  cases epType <;> rfl

/-- `set_error_count` is a write to a field. -/
theorem setErrorCount_three : self.setErrorCount 3 =
    .ok { self with data1 := endpointLayout.write (fun _ => self.data1) .errorCount 3 () } := by
  rw [write_data1]
  rfl

/-- `set_max_packet_size` is a write to a field. -/
theorem setMaxPacketSize_eq : self.setMaxPacketSize maxPacketSize =
    { self with
      data1 := endpointLayout.write (fun _ => self.data1) .maxPacketSize
        (maxPacketSize.setWidth 32) () } := by
  rw [write_data1]
  rfl

/-- `set_max_burst_size` is a write to a field. -/
theorem setMaxBurstSize_zero : self.setMaxBurstSize 0 =
    .ok { self with data1 := endpointLayout.write (fun _ => self.data1) .maxBurstSize 0 () } := by
  rw [write_data1]
  rfl

/-- `set_dequeue_cycle_state` is a write to a field. -/
theorem setDequeueCycleState_true : self.setDequeueCycleState true =
    .ok { self with
      trDequePtr := dequeLayout.write (fun _ => self.trDequePtr) .cycleState 1 () } := by
  have hwrite : Volatile.writeBits self.trDequePtr 0 1 1 = _ :=
    writeBits_eq (i := .cycleState) (v := 1) rfl self.trDequePtr
  simp only [setDequeueCycleState, Bool.toNat_true, Nat.cast_one, hwrite]

/-- `set_ring_deque_pointer` is a write to a field. -/
theorem setRingDequePointer_eq : self.setRingDequePointer ptr =
    .ok { self with
      trDequePtr := dequeLayout.write (fun _ => self.trDequePtr) .pointer (ptr >>> 4) () } := by
  have hwrite : Volatile.writeBits self.trDequePtr 4 60 (ptr >>> 4) = _ :=
    writeBits_eq (fits_pointer ptr) self.trDequePtr
  simp only [setRingDequePointer, hwrite]

/-- The writes to `data[1]` that the constructors share. -/
def writes (epType : EndpointType) (maxPacketSize : BitVec 16) :
    List (EndpointField × BitVec 32) :=
  [(.epType, epType.toU32), (.errorCount, 3), (.maxPacketSize, maxPacketSize.setWidth 32)]

/-- The writes to `tr_deque_ptr`. -/
def dequeWrites (ptr : BitVec 64) : List (DequeField × BitVec 64) :=
  [(.cycleState, 1), (.pointer, ptr >>> 4)]

/-- The context of the control endpoint is a run of writes. -/
theorem newControlEndpoint_eq (maxPacketSize : BitVec 16) (ptr : BitVec 64) :
    newControlEndpoint maxPacketSize ptr = .ok
      { new with
        data1 := endpointLayout.run (fun _ => 0) (writes .control maxPacketSize) ()
        trDequePtr := dequeLayout.run (fun _ => 0) (dequeWrites ptr) ()
        averageTrbLength := 8 } := by
  simp only [newControlEndpoint, setEpType_eq, setDequeueCycleState_true, setErrorCount_three,
    setMaxPacketSize_eq, setRingDequePointer_eq, bind, Except.bind]
  rfl

/-- The context of a bulk endpoint is a run of writes. -/
theorem newBulkEndpoint_eq (maxPacketSize : BitVec 16) (ptr : BitVec 64) (epType : EndpointType) :
    newBulkEndpoint maxPacketSize ptr epType = .ok
      { new with
        data1 := endpointLayout.run (fun _ => 0)
          (writes epType maxPacketSize ++ [(.maxBurstSize, 0)]) ()
        trDequePtr := dequeLayout.run (fun _ => 0) (dequeWrites ptr) ()
        averageTrbLength := maxPacketSize } := by
  simp only [newBulkEndpoint, setEpType_eq, setDequeueCycleState_true, setErrorCount_three,
    setMaxPacketSize_eq, setRingDequePointer_eq, setMaxBurstSize_zero, bind, Except.bind]
  rfl

/-- What a controller reads from the context of an endpoint. -/
structure Decodes (ep : EndpointContext) (epType : EndpointType) (maxPacketSize : BitVec 16)
    (ptr : BitVec 64) : Prop where
  data0 : ep.data0 = 0
  errorCount : Volatile.readBits ep.data1 1 2 = 3
  epType : Volatile.readBits ep.data1 3 3 = epType.toU32
  maxBurstSize : Volatile.readBits ep.data1 8 8 = 0
  maxPacketSize : Volatile.readBits ep.data1 16 16 = maxPacketSize.setWidth 32
  /-- The bits of `data[1]` that belong to none of these fields. -/
  reserved (b : ℕ) : b = 0 ∨ b = 6 ∨ b = 7 → ep.data1.getLsbD b = false
  cycleState : Volatile.readBits ep.trDequePtr 0 1 = 1
  pointer : ep.trDequePtr &&& ~~~0xf = ptr
  /-- The bits of `tr_deque_ptr` between the cycle state and the address. -/
  dequeReserved (b : ℕ) : 1 ≤ b ∧ b < 4 → ep.trDequePtr.getLsbD b = false

/-- The bits of `data[1]` outside the fields that are written. -/
theorem not_hasBit {b : ℕ} (hb : b = 0 ∨ b = 6 ∨ b = 7 ∨ 12 ≤ b ∧ b < 16) (i : EndpointField) :
    ¬endpointLayout.HasBit i () b := by
  rintro ⟨-, hlo, hhi⟩
  cases i <;> simp only [endpointLayout, EndpointField.shift, EndpointField.width] at hlo hhi <;>
    omega

/-- The Max Burst Size field has eight bits, of which the setter writes four. -/
theorem maxBurstSize_eq_zero {word : BitVec 32}
    (hfield : endpointLayout.read (fun _ => word) .maxBurstSize = 0)
    (hhigh : ∀ b, 12 ≤ b ∧ b < 16 → word.getLsbD b = false) :
    Volatile.readBits word 8 8 = 0 := by
  apply BitVec.eq_of_getLsbD_eq
  intro b hb
  rw [Volatile.getLsbD_readBits (by decide), BitVec.ofNat_eq_ofNat, BitVec.getLsbD_zero]
  by_cases hlow : b < 4
  · have hbit := congrArg (·.getLsbD b) hfield
    simp only [FieldLayout.getLsbD_read, endpointLayout, EndpointField.width, EndpointField.shift,
      hlow, decide_true, Bool.true_and, BitVec.ofNat_eq_ofNat, BitVec.getLsbD_zero] at hbit
    rw [hbit, Bool.and_false]
  · by_cases hlt : b < 8
    · rw [hhigh (8 + b) (by omega), Bool.and_false]
    · rw [decide_eq_false hlt, Bool.false_and]

/-- The address of a ring that is aligned is found above the cycle state. -/
theorem pointer_eq {word : BitVec 64}
    (hfield : dequeLayout.read (fun _ => word) .pointer = ptr >>> 4)
    (haligned : ptr.toNat % 16 = 0) : word &&& ~~~0xf = ptr := by
  have hlow : ptr &&& lowMask 64 4 = 0 :=
    (BitField.and_lowMask_eq_zero_iff (by decide) ptr).2 haligned
  have hmask : (0xf : BitVec 64) = lowMask 64 4 := by decide
  apply BitVec.eq_of_getLsbD_eq
  intro b hb
  rw [BitVec.getLsbD_and, BitVec.getLsbD_not, hmask, BitField.getLsbD_lowMask (by decide)]
  -- below bit 4 the aligned address has no bits, and above it they are those of the field
  by_cases hlt : b < 4
  · have hbit := congrArg (·.getLsbD b) hlow
    simpa [BitField.getLsbD_lowMask, hlt] using hbit
  · have hbit := congrArg (·.getLsbD (b - 4)) hfield
    simp only [FieldLayout.getLsbD_read, dequeLayout, DequeField.width, DequeField.shift,
      BitVec.getLsbD_ushiftRight, show 4 + (b - 4) = b by omega, show b - 4 < 60 by omega,
      decide_true, Bool.true_and] at hbit
    rw [decide_eq_false hlt, decide_eq_true hb, Bool.not_false, Bool.and_true, Bool.and_true]
    exact hbit

/-- All values that are written to the second word fit. -/
theorem writes_fits (epType : EndpointType) (maxPacketSize : BitVec 16) :
    ∀ p ∈ writes epType maxPacketSize, endpointLayout.Fits p.1 p.2 := by
  intro p hp
  simp only [writes, List.mem_cons, List.not_mem_nil, or_false] at hp
  rcases hp with rfl | rfl | rfl
  · exact fits_epType epType
  · exact rfl
  · exact fits_maxPacketSize maxPacketSize

/-- All values that are written to the dequeue pointer fit. -/
theorem dequeWrites_fits (ptr : BitVec 64) : ∀ p ∈ dequeWrites ptr, dequeLayout.Fits p.1 p.2 := by
  intro p hp
  rcases List.mem_pair.1 hp with rfl | rfl
  · exact rfl
  · exact fits_pointer ptr

/-- A context decodes to what was written to its fields. -/
theorem decodes_of_writes {ws : List (EndpointField × BitVec 32)} (hdata0 : ep.data0 = 0)
    (hdata1 : ep.data1 = endpointLayout.run (fun _ => 0) ws ())
    (hfits : ∀ p ∈ ws, endpointLayout.Fits p.1 p.2)
    (hcount : FieldLayout.lastWrite .errorCount ws = some 3)
    (htype : FieldLayout.lastWrite .epType ws = some epType.toU32)
    (hburst : (FieldLayout.lastWrite .maxBurstSize ws).getD 0 = 0)
    (hsize : FieldLayout.lastWrite .maxPacketSize ws = some (maxPacketSize.setWidth 32))
    (hptr : ep.trDequePtr = dequeLayout.run (fun _ => 0) (dequeWrites ptr) ())
    (haligned : ptr.toNat % 16 = 0) : ep.Decodes epType maxPacketSize ptr := by
  -- every field reads as its last write, and no other bit was written
  have hread : ∀ i, endpointLayout.read (fun _ => ep.data1) i =
      (FieldLayout.lastWrite i ws).getD 0 := by
    intro i
    rw [hdata1]
    have hzero : endpointLayout.read (fun _ => 0) i = 0 := by simp [FieldLayout.read]
    have hrun := FieldLayout.read_run (s := fun _ => 0) (i := i) hfits
    rwa [hzero] at hrun
  have hbit : ∀ b, b = 0 ∨ b = 6 ∨ b = 7 ∨ 12 ≤ b ∧ b < 16 → ep.data1.getLsbD b = false := by
    intro b hb
    rw [hdata1, FieldLayout.getLsbD_run hfits (by omega) fun p _ => not_hasBit hb p.1]
    exact BitVec.getLsbD_zero
  -- the same for the two fields of `tr_deque_ptr`
  have hdeque : dequeLayout.run (fun _ => 0) (dequeWrites ptr) = fun _ => ep.trDequePtr := by
    rw [hptr]
  have hdequeRead : ∀ i, dequeLayout.read (fun _ => ep.trDequePtr) i = _ := fun i =>
    hdeque ▸ FieldLayout.read_run (s := fun _ => 0) (i := i) (dequeWrites_fits ptr)
  exact
    { data0 := hdata0
      errorCount := (hread .errorCount).trans (by rw [hcount]; rfl)
      epType := (hread .epType).trans (by rw [htype]; rfl)
      maxBurstSize := maxBurstSize_eq_zero ((hread .maxBurstSize).trans hburst) fun b hb =>
        hbit b (.inr (.inr (.inr hb)))
      maxPacketSize := (hread .maxPacketSize).trans (by rw [hsize]; rfl)
      reserved := fun b hb => hbit b (by omega)
      cycleState := hdequeRead .cycleState
      pointer := pointer_eq (hdequeRead .pointer) haligned
      dequeReserved := fun b hb => by
        rw [hptr, FieldLayout.getLsbD_run (dequeWrites_fits ptr) (by omega) fun p _ => ?_]
        · exact BitVec.getLsbD_zero
        · rintro ⟨-, hlo, hhi⟩
          cases hp : p.1 <;>
            simp only [hp, dequeLayout, DequeField.shift, DequeField.width] at hlo hhi <;> omega }

/-- Both constructors build what was asked for. -/
theorem newControlEndpoint_decodes (maxPacketSize : BitVec 16) (haligned : ptr.toNat % 16 = 0) :
    ∃ ep, newControlEndpoint maxPacketSize ptr = .ok ep ∧
      ep.Decodes .control maxPacketSize ptr := by
  refine ⟨_, newControlEndpoint_eq maxPacketSize ptr, ?_⟩
  exact decodes_of_writes rfl rfl (writes_fits .control maxPacketSize) rfl rfl rfl rfl rfl haligned

/-- What the controller reads from the context of a bulk endpoint. -/
theorem newBulkEndpoint_decodes (maxPacketSize : BitVec 16) (epType : EndpointType)
    (haligned : ptr.toNat % 16 = 0) :
    ∃ ep, newBulkEndpoint maxPacketSize ptr epType = .ok ep ∧
      ep.Decodes epType maxPacketSize ptr := by
  refine ⟨_, newBulkEndpoint_eq maxPacketSize ptr epType, ?_⟩
  refine decodes_of_writes rfl rfl ?_ rfl rfl rfl rfl rfl haligned
  intro p hp
  rcases List.mem_append.1 hp with hp | hp
  · exact writes_fits epType maxPacketSize p hp
  · rw [List.mem_singleton.1 hp]
    exact rfl

end EndpointContext

/-! ## The slot context -/

/-- The fields of the slot context. -/
def slotLayout : FieldLayout (Fin 8) SlotField 32 where
  word := SlotField.word
  shift := SlotField.shift
  width := SlotField.width
  width_lt i := by cases i <;> decide
  end_le i := by cases i <;> decide
  apart i j hne hword := by
    cases i <;> cases j <;> first | exact absurd rfl hne | exact absurd hword (by decide) | decide

/-- What a controller reads from a field of the slot context. -/
def DeviceContext.slotField (self : DeviceContext) (f : SlotField) : BitVec 32 :=
  Volatile.readBits (self.slotCtx f.word) f.shift f.width

/-- A call of a setter of the slot context. -/
inductive SlotCall where
  | setPortSpeed (mode : UsbMode)
  | setLastValidDci (dci : ℕ)
  | setRootHubPortNumber (port : ℕ)

namespace SlotCall

/-- The call. -/
def run : SlotCall → DeviceContext → Except Fault DeviceContext
  | setPortSpeed mode, self => self.setPortSpeed mode
  | setLastValidDci dci, self => self.setLastValidDci dci
  | setRootHubPortNumber port, self => self.setRootHubPortNumber port

/-- The context after the call, to which the setters write just before they return `Ok`. -/
def after (c : SlotCall) (self : DeviceContext) : DeviceContext :=
  match c.run self with
  | .ok self' => self'
  | .error _ => self

/-- The field that the setter is for. -/
def field : SlotCall → SlotField
  | setPortSpeed _ => .portSpeed
  | setLastValidDci _ => .contextEntries
  | setRootHubPortNumber _ => .rootHubPortNumber

/-- The argument. -/
def arg : SlotCall → BitVec 32
  | setPortSpeed mode => mode.psi
  | setLastValidDci dci => BitVec.ofNat 32 dci
  | setRootHubPortNumber port => BitVec.ofNat 32 port

/-- The argument is in the range of the field. -/
def InRange : SlotCall → Prop
  | setPortSpeed mode => mode.psi < 16
  | setLastValidDci dci => dci ≤ 31
  | setRootHubPortNumber port => 0 < port ∧ port < 256

instance : DecidablePred InRange
  | setPortSpeed mode => inferInstanceAs (Decidable (mode.psi < 16))
  | setLastValidDci dci => inferInstanceAs (Decidable (dci ≤ 31))
  | setRootHubPortNumber port => inferInstanceAs (Decidable (0 < port ∧ port < 256))

/-- The texts of the errors. -/
def errMsg : SlotCall → String
  | setPortSpeed _ => "Invalid port speed"
  | setLastValidDci _ => "num_ep_ctx out of range"
  | setRootHubPortNumber _ => "Port out of range"

variable {c : SlotCall} {calls : List SlotCall} {self : DeviceContext}

/-- A word fits into a field of `k` bits when it is less than `2 ^ k`. -/
theorem fits_of_toNat_lt {f : SlotField} {v : BitVec 32} (h : v.toNat < 2 ^ f.width) :
    slotLayout.Fits f v := by
  rw [FieldLayout.Fits, BitVec.and_comm]
  apply BitVec.eq_of_toNat_eq
  rw [BitField.toNat_and_lowMask (slotLayout.width_lt f)]
  exact Nat.mod_eq_of_lt h

theorem InRange.fits (h : c.InRange) : slotLayout.Fits c.field c.arg := by
  apply fits_of_toNat_lt
  cases c with
  | setPortSpeed mode => exact h
  | setLastValidDci dci =>
    have hle : dci ≤ 31 := h
    rw [arg, BitVec.toNat_ofNat, Nat.mod_eq_of_lt (by omega)]
    exact Nat.lt_succ_of_le hle
  | setRootHubPortNumber port =>
    have hlt : port < 256 := h.2
    rw [arg, BitVec.toNat_ofNat, Nat.mod_eq_of_lt (by omega)]
    exact hlt

/-- A write to the slot context replaces the field in its word. -/
theorem write_slotCtx (words : Fin 8 → BitVec 32) (f : SlotField) (v : BitVec 32) :
    slotLayout.write words f v = Function.update words f.word
      (replaceField (words f.word) (lowMask 32 f.width) f.shift v) := by
  rw [FieldLayout.write, replaceField_eq]
  rfl

/-- A setter writes its argument to its field, or returns its error. -/
theorem run_eq (c : SlotCall) (self : DeviceContext) : c.run self =
    if c.InRange then .ok { self with slotCtx := slotLayout.write self.slotCtx c.field c.arg }
    else .error (.err c.errMsg) := by
  rw [write_slotCtx]
  cases c with
  | setPortSpeed mode =>
    rw [run, DeviceContext.setPortSpeed, show (0xF : BitVec 32) = lowMask 32 4 by decide]
    rfl
  | setLastValidDci dci =>
    rw [run, DeviceContext.setLastValidDci, show (0b11111 : BitVec 32) = lowMask 32 5 by decide]
    rfl
  | setRootHubPortNumber port =>
    rw [run, DeviceContext.setRootHubPortNumber, show (0xff : BitVec 32) = lowMask 32 8 by decide]
    rfl

/-- The context after a sequence of calls, whatever they returned. -/
def runAll (calls : List SlotCall) (self : DeviceContext) : DeviceContext :=
  calls.foldl (fun self c => c.after self) self

/-- The last argument for a field that was in range. -/
def lastInRange (f : SlotField) (calls : List SlotCall) : Option (BitVec 32) :=
  (calls.filter fun c => c.InRange ∧ c.field = f).getLast?.map arg

/-- A setter of the slot context is a write to a field, if its value is in range. -/
theorem after_eq (c : SlotCall) (self : DeviceContext) : c.after self =
    if c.InRange then { self with slotCtx := slotLayout.write self.slotCtx c.field c.arg }
    else self := by
  rw [after, run_eq]
  by_cases h : c.InRange
  · rw [if_pos h, if_pos h]
  · rw [if_neg h, if_neg h]

/-- A sequence of calls is a sequence of writes, those of the calls whose argument is in range. -/
theorem runAll_eq (calls : List SlotCall) (self : DeviceContext) : runAll calls self =
    { self with
      slotCtx := slotLayout.run self.slotCtx
        ((calls.filter fun c => c.InRange).map fun c => (c.field, c.arg)) } := by
  induction calls generalizing self with
  | nil => rfl
  | cons c calls ih =>
    rw [runAll, List.foldl_cons, ← runAll, ih, after_eq]
    -- a call that is refused is no write
    by_cases h : c.InRange
    · rw [if_pos h, List.filter_cons_of_pos (by simpa using h), List.map_cons]
      rfl
    · rw [if_neg h, List.filter_cons_of_neg (by simpa using h)]

/-- All values of the setters that write fit. -/
theorem fits_of_mem (calls : List SlotCall) :
    ∀ p ∈ (calls.filter fun c => c.InRange).map fun c => (c.field, c.arg),
      slotLayout.Fits p.1 p.2 := by
  intro p hp
  obtain ⟨c, hc, rfl⟩ := List.mem_map.1 hp
  exact InRange.fits (of_decide_eq_true (List.mem_filter.1 hc).2)

/-- The last write to a field is that of the last call in range. -/
theorem lastWrite_eq (f : SlotField) (calls : List SlotCall) :
    FieldLayout.lastWrite f ((calls.filter fun c => c.InRange).map fun c => (c.field, c.arg)) =
      lastInRange f calls := by
  rw [FieldLayout.lastWrite, lastInRange, List.filter_map, List.filter_filter, List.getLast?_map,
    Option.map_map]
  simp only [Function.comp_def, Bool.decide_and, Bool.and_comm]

end SlotCall

/-- The context of an endpoint decodes to its type, its packet size and the aligned address of its
ring, whatever these are, to the error count three, the burst size zero and the cycle state one, and
all other bits are zero. A setter of the slot context returns `Ok` exactly when its argument is in
range, and otherwise `Err` without a change. After any sequence of calls every field holds the last
argument that was in range, and nothing else has changed. -/
theorem contexts_fields (maxPacketSize : BitVec 16) (ptr : BitVec 64)
    (haligned : ptr.toNat % 16 = 0) (epType : EndpointType) (calls : List SlotCall)
    (self : DeviceContext) :
    (∃ ep, EndpointContext.newControlEndpoint maxPacketSize ptr = .ok ep ∧
      ep.Decodes .control maxPacketSize ptr) ∧
    (∃ ep, EndpointContext.newBulkEndpoint maxPacketSize ptr epType = .ok ep ∧
      ep.Decodes epType maxPacketSize ptr) ∧
    (∀ c : SlotCall, (c.InRange → c.run self = .ok (c.after self)) ∧
      (¬c.InRange → c.run self = .error (.err c.errMsg) ∧ c.after self = self)) ∧
    (∀ f, (SlotCall.runAll calls self).slotField f =
      (SlotCall.lastInRange f calls).getD (self.slotField f)) ∧
    (∀ k b, b < 32 → (∀ f, ¬slotLayout.HasBit f k b) →
      ((SlotCall.runAll calls self).slotCtx k).getLsbD b = (self.slotCtx k).getLsbD b) ∧
    (SlotCall.runAll calls self).epCtx = self.epCtx := by
  have hfits := SlotCall.fits_of_mem calls
  refine ⟨EndpointContext.newControlEndpoint_decodes maxPacketSize haligned,
    EndpointContext.newBulkEndpoint_decodes maxPacketSize epType haligned, fun c => ⟨?_, ?_⟩, ?_,
    ?_, ?_⟩
  · intro h
    rw [SlotCall.run_eq, SlotCall.after_eq, if_pos h, if_pos h]
  · intro h
    rw [SlotCall.run_eq, SlotCall.after_eq, if_neg h, if_neg h]
    exact ⟨rfl, rfl⟩
  · intro f
    rw [SlotCall.runAll_eq, ← SlotCall.lastWrite_eq]
    exact FieldLayout.read_run hfits
  · intro k b hb hbit
    rw [SlotCall.runAll_eq]
    exact FieldLayout.getLsbD_run hfits hb fun p _ => hbit p.1
  · rw [SlotCall.runAll_eq]

/-- A call that is refused lies between two that are accepted. -/
theorem contexts_fields_bulkIn :
    (∃ ep, EndpointContext.newControlEndpoint 64 0x2340 = .ok ep ∧ ep.Decodes .control 64 0x2340) ∧
    (∃ ep, EndpointContext.newBulkEndpoint 64 0x2340 .bulkIn = .ok ep ∧
      ep.Decodes .bulkIn 64 0x2340) ∧
    (∀ c : SlotCall,
      (c.InRange → c.run InputContext.default.deviceCtx =
        .ok (c.after InputContext.default.deviceCtx)) ∧
      (¬c.InRange → c.run InputContext.default.deviceCtx = .error (.err c.errMsg) ∧
        c.after InputContext.default.deviceCtx = InputContext.default.deviceCtx)) ∧
    (∀ f, (SlotCall.runAll
        [.setLastValidDci 1, .setLastValidDci 32, .setPortSpeed .superSpeed]
        InputContext.default.deviceCtx).slotField f =
      (SlotCall.lastInRange f
        [.setLastValidDci 1, .setLastValidDci 32, .setPortSpeed .superSpeed]).getD
        (InputContext.default.deviceCtx.slotField f)) ∧
    (∀ k b, b < 32 → (∀ f, ¬slotLayout.HasBit f k b) →
      ((SlotCall.runAll
        [.setLastValidDci 1, .setLastValidDci 32, .setPortSpeed .superSpeed]
        InputContext.default.deviceCtx).slotCtx k).getLsbD b =
        (InputContext.default.deviceCtx.slotCtx k).getLsbD b) ∧
    (SlotCall.runAll
      [.setLastValidDci 1, .setLastValidDci 32, .setPortSpeed .superSpeed]
      InputContext.default.deviceCtx).epCtx = InputContext.default.deviceCtx.epCtx :=
  contexts_fields 64 0x2340 (by decide) .bulkIn
    [.setLastValidDci 1, .setLastValidDci 32, .setPortSpeed .superSpeed]
    InputContext.default.deviceCtx

end Mushix

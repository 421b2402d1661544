import Mushix.Xhci.TrbRing

/-!
# The event ring

`EventRing` (`xhci.rs`): the consumer's side of the ring into which the controller writes
events. `pop` decides by the cycle bit of the current slot whether there is an event, tells
the controller through the ERDP register which slot was read, and inverts the expected cycle
bit when the index wraps.

* `EventState.pop`: the method, over the ring and the interrupter registers it writes;
* `EventState.pop_none`, `EventState.pop_some`: its two outcomes;
* `EventState.boot`: the state after `EventRing::new` and `init_irs`.
-/

namespace Mushix

/-- The fields of `InterrupterRegisterSet` that the driver programs. -/
structure InterrupterRegisterSet where
  management : BitVec 32
  moderation : BitVec 32
  erstSize : BitVec 32
  erstBase : BitVec 64
  /-- The event ring dequeue pointer. -/
  erdp : BitVec 64
  deriving DecidableEq, Repr

/-- An entry of the segment table tells the controller where the ring is. -/
structure EventRingSegmentTableEntry where
  ringSegmentBaseAddress : BitVec 64
  ringSegmentSize : BitVec 16
  deriving DecidableEq, Repr

/-- The entry for a ring, whose number of TRBs must fit into 16 bits. -/
def EventRingSegmentTableEntry.new (ring : TrbRing) : Except String EventRingSegmentTableEntry :=
  if TrbRing.numTrb < 2 ^ 16 then
    .ok { ringSegmentBaseAddress := ring.physAddr
          ringSegmentSize := BitVec.ofNat 16 TrbRing.numTrb }
  else
    .error "Too large num trbs"

/-- A ring that the controller writes and the program reads. -/
structure EventRing where
  /-- The TRBs. -/
  ring : TrbRing
  /-- The segment table, in an `IoBox` of its own. -/
  erst : EventRingSegmentTableEntry
  /-- The address of the segment table. -/
  erstAddr : IoBoxAddr
  /-- The cycle bit of the events of this lap. -/
  cycleStateOurs : Bool
  /-- The interrupter whose ERDP register the pointer `erdp` addresses, once it is set. -/
  erdp : Option (Fin 1024)
  /-- The waiters, by the keys under which the futures hold them. -/
  waitList : List ℕ

/-- The event ring and the interrupter registers it writes. -/
structure EventState where
  /-- The event ring. -/
  evring : EventRing
  /-- The interrupter register sets of the runtime registers. -/
  irs : Fin 1024 → InterrupterRegisterSet

namespace EventRing

/-- `EventRing::new()`: zeroed TRBs with a Link TRB in the last slot. -/
def new (base erstAddr : IoBoxAddr) : Except String EventRing := do
  -- the `Default` ring is zeroed, and the Link TRB goes into its last slot
  let link := GenericTrbEntry.trbLink base.addr
  let ring := (TrbRing.write (TrbRing.numTrb - 1) link).stateAfter (TrbRing.new base)
  let erst ← EventRingSegmentTableEntry.new ring
  return { ring, erst, erstAddr, cycleStateOurs := true, erdp := none, waitList := [] }

/-- The address of the ring that the controller is told. -/
def ringPhysAddr (self : EventRing) : BitVec 64 := self.ring.base.addr

/-- The address of the segment table that the controller is told. -/
def erstPhysAddr (self : EventRing) : BitVec 64 := self.erstAddr.addr

/-- The current TRB was written by the controller, as its cycle bit says. -/
def hasNextEvent (self : EventRing) : Bool :=
  self.ring.current.cycleState == self.cycleStateOurs

end EventRing

/-- `RuntimeRegisters::init_irs`: program an interrupter with the ring and tell the ring where
its ERDP register is. -/
def initIrs (index : ℕ) : Method EventState Unit := do
  if h : index < 1024 then
    modify fun s =>
      { evring := { s.evring with erdp := some ⟨index, h⟩ }
        irs := Function.update s.irs ⟨index, h⟩
          { management := 1
            moderation := 0
            erstSize := 1
            erstBase := s.evring.erstPhysAddr
            erdp := s.evring.ringPhysAddr } }
  else
    throw (.err "Index out of range")

namespace EventState

/-- Run a method of the TRB ring inside the event ring. -/
def onRing {α : Type} (x : Method TrbRing α) : Method EventState α := fun s =>
  match x s.evring.ring with
  | .ok a ring => .ok a { s with evring := { s.evring with ring } }
  | .error e ring => .error e { s with evring := { s.evring with ring } }

theorem onRing_of_ok {α : Type} {x : Method TrbRing α} {s : EventState} {a : α} {r : TrbRing}
    (h : x s.evring.ring = .ok a r) :
    onRing x s = .ok a { s with evring := { s.evring with ring := r } } := by
  rw [onRing, h]

/-- The address of an event is written to ERDP, whose low four bits stay. -/
def writeErdp (eptr : BitVec 64) : Method EventState Unit := do
  match (← get).evring.erdp with
  | none => throw (.panic "EventRing erdp is not set")
  | some i =>
    modify fun s =>
      { s with
        irs := Function.update s.irs i
          { s.irs i with erdp := eptr ||| ((s.irs i).erdp &&& 0b1111#64) } }

/-- `pop` takes the next event, if there is one, and tells the controller. -/
def pop : Method EventState (Option GenericTrbEntry) := do
  let self := (← get).evring
  if !self.hasNextEvent then
    return none
  let e := self.ring.current
  -- the address of this event, which is taken before the ring advances
  let eptr := self.ring.currentPtr
  onRing (TrbRing.advanceIndexNotoggle self.cycleStateOurs)
  writeErdp eptr
  -- the ring was advanced above: index 0 means that a new lap starts
  if (← get).evring.ring.currentIndex = 0 then
    modify fun s =>
      { s with evring := { s.evring with cycleStateOurs := !s.evring.cycleStateOurs } }
  return some e

/-! ## What `pop` does -/

/-- The state after an event was popped while the ERDP register is that of interrupter `i`. -/
def afterPop (s : EventState) (i : Fin 1024) : EventState :=
  { evring :=
      { s.evring with
        ring := { s.evring.ring with
          currentIndex := TrbRing.nextIndex s.evring.ring.currentIndex }
        cycleStateOurs :=
          if TrbRing.nextIndex s.evring.ring.currentIndex = 0 then !s.evring.cycleStateOurs
          else s.evring.cycleStateOurs }
    irs := Function.update s.irs i
      { s.irs i with
        erdp := s.evring.ring.currentPtr ||| ((s.irs i).erdp &&& 0b1111#64) } }

variable {s : EventState}

/-- Without the expected cycle bit there is no event, and nothing changes. -/
theorem pop_none (h : s.evring.ring.current.cycleState ≠ s.evring.cycleStateOurs) :
    pop s = .ok none s := by
  have hnext : s.evring.hasNextEvent = false := by simpa [EventRing.hasNextEvent] using h
  simp [pop, hnext]

/-- The ERDP register gets the address and keeps its low four bits. -/
theorem writeErdp_eq {i : Fin 1024} (hi : s.evring.erdp = some i) (eptr : BitVec 64) :
    writeErdp eptr s = .ok ()
      { s with
        irs := Function.update s.irs i
          { s.irs i with erdp := eptr ||| ((s.irs i).erdp &&& 0b1111#64) } } := by
  simp [writeErdp, hi]

/-- With the expected cycle bit the current TRB is returned. -/
theorem pop_some {i : Fin 1024} (hi : s.evring.erdp = some i)
    (h : s.evring.ring.current.cycleState = s.evring.cycleStateOurs) :
    pop s = .ok (some s.evring.ring.current) (s.afterPop i) := by
  have hnext : s.evring.hasNextEvent = true := by simpa [EventRing.hasNextEvent] using h
  have hadvance := onRing_of_ok (TrbRing.advanceIndexNotoggle_eq h)
  simp only [pop, Method.run_get_bind, hnext, Bool.not_true, Bool.false_eq_true, if_false]
  rw [Method.bind_of_ok hadvance, Method.bind_of_ok (writeErdp_eq (by exact hi) _),
    Method.run_get_bind]
  unfold afterPop
  by_cases hwrap : TrbRing.nextIndex s.evring.ring.currentIndex = 0
  · simp [hwrap]
  · simp [hwrap]

/-- Without an ERDP register the write panics. -/
theorem writeErdp_none (hnone : s.evring.erdp = none) (eptr : BitVec 64) :
    writeErdp eptr s = .error (.panic "EventRing erdp is not set") s := by
  simp [writeErdp, hnone]

/-- An event is not returned without an ERDP register. -/
theorem pop_panic (hnone : s.evring.erdp = none)
    (h : s.evring.ring.current.cycleState = s.evring.cycleStateOurs) :
    ∃ s', pop s = .error (.panic "EventRing erdp is not set") s' := by
  have hnext : s.evring.hasNextEvent = true := by simpa [EventRing.hasNextEvent] using h
  have hadvance := onRing_of_ok (TrbRing.advanceIndexNotoggle_eq h)
  simp only [pop, Method.run_get_bind, hnext, Bool.not_true, Bool.false_eq_true, if_false]
  rw [Method.bind_of_ok hadvance, Method.bind_of_error (writeErdp_none (by exact hnone) _)]
  exact ⟨_, rfl⟩

/-- Everything that the pop of an event does. -/
theorem pop_eq_ok_some {e : GenericTrbEntry} {st : EventState} (h : pop s = .ok (some e) st) :
    ∃ i, s.evring.erdp = some i ∧ s.evring.ring.current.cycleState = s.evring.cycleStateOurs ∧
      e = s.evring.ring.current ∧ st = s.afterPop i := by
  have hcycle : s.evring.ring.current.cycleState = s.evring.cycleStateOurs := by
    by_contra hne
    rw [pop_none hne] at h
    cases h
  cases hi : s.evring.erdp with
  | none =>
    obtain ⟨s', hpanic⟩ := pop_panic hi hcycle
    rw [hpanic] at h
    cases h
  | some i =>
    rw [pop_some hi hcycle] at h
    cases h
    exact ⟨i, rfl, hcycle, rfl, rfl⟩

/-! ## The initial state -/

/-- The ring as `EventRing::new()` leaves it. -/
def fresh (base erstAddr : IoBoxAddr) : EventRing :=
  { ring :=
      { TrbRing.new base with
        trb := Function.update (TrbRing.new base).trb 15 (GenericTrbEntry.trbLink base.addr) }
    erst := { ringSegmentBaseAddress := base.addr, ringSegmentSize := 16 }
    erstAddr
    cycleStateOurs := true
    erdp := none
    waitList := [] }

/-- `new` does not fail, because the number of TRBs fits into 16 bits. -/
theorem new_eq (base erstAddr : IoBoxAddr) :
    EventRing.new base erstAddr = .ok (fresh base erstAddr) := rfl

/-- The state after `EventRing::new()` and `init_irs(i, ring)`. -/
def boot (base erstAddr : IoBoxAddr) (irs : Fin 1024 → InterrupterRegisterSet)
    (i : Fin 1024) : EventState :=
  (initIrs i).stateAfter
    { evring := unwrap (EventRing.new base erstAddr) (by rw [new_eq]; rfl), irs }

/-- The ring of a controller that was set up knows its register. -/
theorem boot_evring (base erstAddr : IoBoxAddr) (irs : Fin 1024 → InterrupterRegisterSet)
    (i : Fin 1024) :
    (boot base erstAddr irs i).evring = { fresh base erstAddr with erdp := some i } := by
  have hinit : ∀ s : EventState, ((initIrs i).stateAfter s).evring =
      { s.evring with erdp := some i } := by
    intro s
    simp [Method.stateAfter, initIrs]
  rw [boot, hinit]
  rfl

end EventState

end Mushix

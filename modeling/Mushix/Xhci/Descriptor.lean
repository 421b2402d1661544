import Mushix.Iter
import Mushix.Slice

/-!
# USB descriptors

The descriptors that a device sends with its configuration (`xhci.rs`) and the iterator that
takes them from the buffer.

* `ConfigDescriptor`, `InterfaceDescriptor`, `EndpointDescriptor`: the packed structures;
* `DescriptorIterator.next`: the iterator;
* `UsbDescriptor.bytes`: the bytes that a descriptor was made from.
-/

namespace Mushix

/-- The types of descriptors that the program knows. -/
inductive UsbDescriptorType where
  | device
  | config
  | string
  | interface
  | endpoint
  deriving DecidableEq, Repr

/-- The type byte of a descriptor. -/
def UsbDescriptorType.toU8 : UsbDescriptorType → BitVec 8
  | device => 1
  | config => 2
  | string => 3
  | interface => 4
  | endpoint => 5

/-- The descriptor of a configuration. -/
structure ConfigDescriptor where
  descLength : BitVec 8
  descType : BitVec 8
  totalLength : BitVec 16
  numOfInterfaces : BitVec 8
  configValue : BitVec 8
  configStringIndex : BitVec 8
  attributes : BitVec 8
  maxPower : BitVec 8
  deriving DecidableEq, Repr

/-- The descriptor of an interface. -/
structure InterfaceDescriptor where
  descLength : BitVec 8
  descType : BitVec 8
  interfaceNumber : BitVec 8
  altSetting : BitVec 8
  numOfEndpoints : BitVec 8
  interfaceClass : BitVec 8
  interfaceSubclass : BitVec 8
  interfaceProtocol : BitVec 8
  interfaceIndex : BitVec 8
  deriving DecidableEq, Repr

/-- The descriptor of an endpoint. -/
structure EndpointDescriptor where
  descLength : BitVec 8
  descType : BitVec 8
  endpointAddress : BitVec 8
  attributes : BitVec 8
  maxPacketSize : BitVec 16
  interval : BitVec 8
  deriving DecidableEq, Repr

instance : Sliceable ConfigDescriptor where
  size := 9
  load b :=
    { descLength := b 0
      descType := b 1
      totalLength := u16OfBytes (b 2) (b 3)
      numOfInterfaces := b 4
      configValue := b 5
      configStringIndex := b 6
      attributes := b 7
      maxPower := b 8 }

instance : Sliceable InterfaceDescriptor where
  size := 9
  load b :=
    { descLength := b 0
      descType := b 1
      interfaceNumber := b 2
      altSetting := b 3
      numOfEndpoints := b 4
      interfaceClass := b 5
      interfaceSubclass := b 6
      interfaceProtocol := b 7
      interfaceIndex := b 8 }

instance : Sliceable EndpointDescriptor where
  size := 7
  load b :=
    { descLength := b 0
      descType := b 1
      endpointAddress := b 2
      attributes := b 3
      maxPacketSize := u16OfBytes (b 4) (b 5)
      interval := b 6 }

/-- A descriptor of a known type is read as a whole, and of any other its length and type. -/
inductive UsbDescriptor where
  | config (desc : ConfigDescriptor)
  | interface (desc : InterfaceDescriptor)
  | endpoint (desc : EndpointDescriptor)
  | unknown (descLen descType : BitVec 8)
  deriving DecidableEq, Repr

/-- An iterator over a buffer is the index of the next descriptor. -/
structure DescriptorIterator where
  buf : List (BitVec 8)
  index : ℕ

namespace DescriptorIterator

/-- An iterator in front of the first descriptor. -/
def new (buf : List (BitVec 8)) : DescriptorIterator := { buf, index := 0 }

/-- The descriptor that starts at the front of a slice, or `None` when the slice is too short
for a descriptor of its type. -/
def descOfType (buf : List (BitVec 8)) (descLen descType : BitVec 8) : Option UsbDescriptor :=
  if descType = UsbDescriptorType.config.toU8 then
    (Sliceable.copyFromSlice buf).toOption.map .config
  else if descType = UsbDescriptorType.interface.toU8 then
    (Sliceable.copyFromSlice buf).toOption.map .interface
  else if descType = UsbDescriptorType.endpoint.toU8 then
    (Sliceable.copyFromSlice buf).toOption.map .endpoint
  else
    some (.unknown descLen descType)

/-- `next()`. The index stays far below `2 ^ 64`, as a slice has less than `2 ^ 63` bytes. -/
def next : Method DescriptorIterator (Option UsbDescriptor) := do
  let self ← get
  if self.buf.length ≤ self.index then
    return none
  else
    let buf := self.buf.drop self.index
    let descLen ← Slice.index buf 0
    -- both bytes are indexed: a slice of one byte panics here
    let descType ← Slice.index buf 1
    match descOfType buf descLen descType with
    | none => return none
    | some desc =>
      -- the length is the one that the device has sent, which may be 0
      modify fun self => { self with index := self.index + descLen.toNat }
      return some desc

end DescriptorIterator

/-! ## The bytes of a descriptor -/

/-- The bytes of the packed structure. -/
def ConfigDescriptor.bytes (desc : ConfigDescriptor) : List (BitVec 8) :=
  [desc.descLength, desc.descType] ++ bytesOfU16 desc.totalLength ++
    [desc.numOfInterfaces, desc.configValue, desc.configStringIndex, desc.attributes,
      desc.maxPower]

/-- The bytes of the packed structure. -/
def InterfaceDescriptor.bytes (desc : InterfaceDescriptor) : List (BitVec 8) :=
  [desc.descLength, desc.descType, desc.interfaceNumber, desc.altSetting, desc.numOfEndpoints,
    desc.interfaceClass, desc.interfaceSubclass, desc.interfaceProtocol, desc.interfaceIndex]

/-- The bytes of the packed structure. -/
def EndpointDescriptor.bytes (desc : EndpointDescriptor) : List (BitVec 8) :=
  [desc.descLength, desc.descType, desc.endpointAddress, desc.attributes] ++
    bytesOfU16 desc.maxPacketSize ++ [desc.interval]

namespace UsbDescriptor

/-- The bytes that a descriptor is made from: all of a structure that is known, else the length
and the type. -/
def bytes : UsbDescriptor → List (BitVec 8)
  | config desc => desc.bytes
  | interface desc => desc.bytes
  | endpoint desc => desc.bytes
  | unknown descLen descType => [descLen, descType]

/-- The types that are told apart. -/
inductive Kind where
  | config
  | interface
  | endpoint
  | unknown
  deriving DecidableEq, Repr

/-- The variant of a descriptor. -/
def kind : UsbDescriptor → Kind
  | config _ => .config
  | interface _ => .interface
  | endpoint _ => .endpoint
  | unknown _ _ => .unknown

/-- The variant for a type byte. -/
def Kind.ofType (descType : BitVec 8) : Kind :=
  if descType = UsbDescriptorType.config.toU8 then .config
  else if descType = UsbDescriptorType.interface.toU8 then .interface
  else if descType = UsbDescriptorType.endpoint.toU8 then .endpoint
  else .unknown

/-- The number of bytes that a variant is made from. -/
def Kind.size : Kind → ℕ
  | config => 9
  | interface => 9
  | endpoint => 7
  | unknown => 2

end UsbDescriptor

section Load

variable (b : Fin 9 → BitVec 8) (e : Fin 7 → BitVec 8)

/-- A configuration descriptor has the bytes that it was read from. -/
theorem ConfigDescriptor.bytes_load :
    (Sliceable.load (α := ConfigDescriptor) b).bytes = List.ofFn b := by
  rw [ConfigDescriptor.bytes]
  show [b 0, b 1] ++ bytesOfU16 (u16OfBytes (b 2) (b 3)) ++ [b 4, b 5, b 6, b 7, b 8] = _
  rw [bytesOfU16_u16OfBytes]
  simp [List.ofFn_succ]

/-- An interface descriptor has the bytes that it was read from. -/
theorem InterfaceDescriptor.bytes_load :
    (Sliceable.load (α := InterfaceDescriptor) b).bytes = List.ofFn b := by
  show [b 0, b 1, b 2, b 3, b 4, b 5, b 6, b 7, b 8] = _
  simp [List.ofFn_succ]

/-- An endpoint descriptor has the bytes that it was read from. -/
theorem EndpointDescriptor.bytes_load :
    (Sliceable.load (α := EndpointDescriptor) e).bytes = List.ofFn e := by
  rw [EndpointDescriptor.bytes]
  show [e 0, e 1, e 2, e 3] ++ bytesOfU16 (u16OfBytes (e 4) (e 5)) ++ [e 6] = _
  rw [bytesOfU16_u16OfBytes]
  simp [List.ofFn_succ]

end Load

end Mushix

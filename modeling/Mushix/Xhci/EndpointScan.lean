import Mushix.Lib.LastMatch
import Mushix.Xhci.MassStorage

/-!
# What the search for endpoints finds

The search of `handle_mass_storage_device` goes through the descriptors up to the first
configuration behind an interface, and keeps the last bulk endpoint of each direction.

* `scanned`: the descriptors that are looked at;
* `found_scanEndpoints`: what the search returns, in terms of these.
-/

namespace Mushix

open LastMatch

namespace UsbDescriptor

/-- A configuration descriptor. -/
def isConfig : UsbDescriptor → Bool
  | .config _ => true
  | _ => false

/-- An interface descriptor. -/
def isInterface : UsbDescriptor → Bool
  | .interface _ => true
  | _ => false

end UsbDescriptor

/-- The direction in an endpoint address. -/
def EndpointDescriptor.direction (ep : EndpointDescriptor) : DataDirection :=
  if ep.isIn then .deviceToHost else .hostToDevice

/-- A bulk endpoint of a direction. -/
def UsbDescriptor.IsBulk (dir : DataDirection) : UsbDescriptor → Prop
  | .endpoint ep => ep.isBulk ∧ ep.direction = dir
  | _ => False

instance (dir : DataDirection) : DecidablePred (UsbDescriptor.IsBulk dir)
  | .endpoint _ => inferInstanceAs (Decidable (_ ∧ _))
  | .config _ | .interface _ | .unknown _ _ => inferInstanceAs (Decidable False)

/-- The descriptors before the first configuration behind an interface. -/
def scanned : List UsbDescriptor → List UsbDescriptor
  | [] => []
  | desc :: rest =>
    if desc.isInterface then
      desc :: rest.takeWhile fun later => !later.isConfig
    else
      desc :: scanned rest

/-- What the search looks at is at the front of the descriptors. -/
theorem scanned_prefix (descriptors : List UsbDescriptor) :
    scanned descriptors <+: descriptors := by
  induction descriptors with
  | nil => exact List.prefix_rfl
  | cons desc rest ih =>
    rw [scanned]
    split
    -- behind the first interface the next configuration ends the search
    · exact (List.prefix_cons_inj desc).2 (List.takeWhile_prefix _)
    · exact (List.prefix_cons_inj desc).2 ih

/-- What was looked at is at its place in the list. -/
theorem getElem?_of_scanned {descriptors : List UsbDescriptor} {k : ℕ} {desc : UsbDescriptor}
    (h : (scanned descriptors)[k]? = some desc) : descriptors[k]? = some desc := by
  obtain ⟨rest, hrest⟩ := scanned_prefix descriptors
  have hlt := (List.getElem?_eq_some_iff.1 h).1
  rw [← hrest, List.getElem?_append_left hlt, h]

namespace EndpointScan

/-- The reference that is kept for a direction. -/
def bulkEp (self : EndpointScan) : DataDirection → Option EndpointRef
  | .deviceToHost => self.bulkInEp
  | .hostToDevice => self.bulkOutEp

/-- One descriptor that is looked at. -/
def step (self : EndpointScan) (index : ℕ) : UsbDescriptor → EndpointScan
  | .config ep => { self with lastConfig := some ep, epDescList := [] }
  | .interface e => { self with usbInterface := some e }
  | .endpoint ep => self.visitEndpoint index ep
  | .unknown _ _ => self

/-- All descriptors that are looked at, from a place on. -/
def run : ℕ → List UsbDescriptor → EndpointScan → EndpointScan
  | _, [], self => self
  | index, desc :: rest, self => run (index + 1) rest (self.step index desc)

theorem run_concat (index : ℕ) (xs : List UsbDescriptor) (desc : UsbDescriptor)
    (self : EndpointScan) :
    run index (xs ++ [desc]) self = (run index xs self).step (index + xs.length) desc := by
  induction xs generalizing index self with
  | nil => rfl
  | cons x xs ih =>
    rw [List.cons_append, run, ih, run, List.length_cons, Nat.add_right_comm, Nat.add_assoc]

/-- An endpoint does not change the interface. -/
theorem usbInterface_visitEndpoint (self : EndpointScan) (index : ℕ) (ep : EndpointDescriptor) :
    (self.visitEndpoint index ep).usbInterface = self.usbInterface := by
  unfold visitEndpoint
  split_ifs <;> rfl

/-- Behind an interface the search goes on up to the next configuration. -/
theorem visit_of_isSome (descriptors : List UsbDescriptor) (index : ℕ) (self : EndpointScan)
    (hself : self.usbInterface.isSome) :
    visit index descriptors self =
      run index (descriptors.takeWhile fun later => !later.isConfig) self := by
  induction descriptors generalizing index self with
  | nil => rfl
  | cons desc rest ih =>
    cases desc with
    | config c => exact if_pos hself
    | interface e => exact ih (index + 1) { self with usbInterface := some e } rfl
    | endpoint ep =>
      exact ih (index + 1) _ (by rwa [usbInterface_visitEndpoint])
    | unknown l t => exact ih (index + 1) self hself

/-- The search goes through the descriptors up to the first configuration behind an interface. -/
theorem visit_eq (descriptors : List UsbDescriptor) (index : ℕ) (self : EndpointScan)
    (hself : self.usbInterface = none) :
    visit index descriptors self = run index (scanned descriptors) self := by
  induction descriptors generalizing index self with
  | nil => rfl
  | cons desc rest ih =>
    cases desc with
    | config c =>
      -- a configuration before any interface starts the list of endpoints again
      have hnone : ¬self.usbInterface.isSome := by rw [hself]; exact Bool.false_ne_true
      exact (if_neg hnone).trans
        (ih (index + 1) { self with lastConfig := some c, epDescList := [] } hself)
    | interface e =>
      exact visit_of_isSome rest (index + 1) { self with usbInterface := some e } rfl
    | endpoint ep =>
      exact ih (index + 1) _ (by rwa [usbInterface_visitEndpoint])
    | unknown l t => exact ih (index + 1) self hself

/-! ## What is kept -/

/-- The search has found what there is in the descriptors it has looked at: of the bulk endpoints
of a direction the last one. -/
structure Found (xs : List UsbDescriptor) (scan : EndpointScan) : Prop where
  config : scan.lastConfig.isSome ↔ ∃ desc ∈ xs, desc.isConfig
  interface : scan.usbInterface.isSome ↔ ∃ desc ∈ xs, desc.isInterface
  bulk (dir : DataDirection) (ref : EndpointRef) : scan.bulkEp dir = some ref ↔
    IsLastAt (UsbDescriptor.IsBulk dir) xs ref.index (.endpoint ref.desc)

/-- Before the first descriptor nothing has been found. -/
theorem found_empty : Found [] empty where
  config := by simp [empty]
  interface := by simp [empty]
  bulk dir ref := by
    constructor
    · intro h
      cases dir <;> cases h
    · intro h
      cases h.get

/-- An endpoint replaces the one that was kept for its direction. -/
theorem bulkEp_visitEndpoint (self : EndpointScan) (index : ℕ) (ep : EndpointDescriptor)
    (dir : DataDirection) : (self.visitEndpoint index ep).bulkEp dir =
      if ep.isBulk ∧ ep.direction = dir then some { index, desc := ep } else self.bulkEp dir := by
  unfold visitEndpoint EndpointDescriptor.direction
  by_cases hbulk : ep.isBulk <;> by_cases hin : ep.isIn <;> cases dir <;>
    simp [hbulk, hin, bulkEp]

/-- A bulk endpoint replaces the one that was found for its direction. -/
theorem bulkEp_step (self : EndpointScan) (index : ℕ) (desc : UsbDescriptor)
    (dir : DataDirection) (ref : EndpointRef) : (self.step index desc).bulkEp dir = some ref ↔
      if desc.IsBulk dir then ref.index = index ∧ UsbDescriptor.endpoint ref.desc = desc
      else self.bulkEp dir = some ref := by
  cases desc with
  | endpoint ep =>
    rw [step, bulkEp_visitEndpoint]
    by_cases hbulk : ep.isBulk ∧ ep.direction = dir
    · have hdesc : (UsbDescriptor.endpoint ep).IsBulk dir := hbulk
      rw [if_pos hbulk, if_pos hdesc, Option.some.injEq, UsbDescriptor.endpoint.injEq]
      obtain ⟨i, e⟩ := ref
      simp only [EndpointRef.mk.injEq]
      exact ⟨fun h => ⟨h.1.symm, h.2.symm⟩, fun h => ⟨h.1.symm, h.2.symm⟩⟩
    · have hdesc : ¬(UsbDescriptor.endpoint ep).IsBulk dir := hbulk
      rw [if_neg hbulk, if_neg hdesc]
  | config c => cases dir <;> exact Iff.rfl
  | interface e => cases dir <;> exact Iff.rfl
  | unknown l t => cases dir <;> exact Iff.rfl

/-- One more descriptor. -/
theorem Found.step {xs : List UsbDescriptor} {scan : EndpointScan} (h : Found xs scan)
    (desc : UsbDescriptor) : Found (xs ++ [desc]) (scan.step xs.length desc) where
  config := by
    have hstep : (scan.step xs.length desc).lastConfig.isSome ↔
        scan.lastConfig.isSome ∨ desc.isConfig := by
      cases desc with
      | endpoint ep =>
        have hkeep : (scan.visitEndpoint xs.length ep).lastConfig = scan.lastConfig := by
          unfold visitEndpoint
          split_ifs <;> rfl
        simp [EndpointScan.step, hkeep, UsbDescriptor.isConfig]
      | _ => simp [EndpointScan.step, UsbDescriptor.isConfig]
    rw [hstep, h.config]
    simp [or_and_right, exists_or]
  interface := by
    have hstep : (scan.step xs.length desc).usbInterface.isSome ↔
        scan.usbInterface.isSome ∨ desc.isInterface := by
      cases desc with
      | endpoint ep =>
        simp [EndpointScan.step, usbInterface_visitEndpoint, UsbDescriptor.isInterface]
      | _ => simp [EndpointScan.step, UsbDescriptor.isInterface]
    rw [hstep, h.interface]
    simp [or_and_right, exists_or]
  bulk dir ref := by
    rw [bulkEp_step]
    split_ifs with hbulk
    -- a bulk endpoint of this direction is the last one now, any other descriptor changes nothing
    · rw [isLastAt_concat_of_pos hbulk]
    · rw [isLastAt_concat_of_neg hbulk, h.bulk]

/-- All descriptors. -/
theorem found_run (xs : List UsbDescriptor) : Found xs (run 0 xs empty) := by
  induction xs using List.reverseRecOn with
  | nil => exact found_empty
  | append_singleton xs desc ih =>
    rw [run_concat, Nat.zero_add]
    exact ih.step desc

end EndpointScan

/-- The search finds what there is among the descriptors before the first configuration behind
an interface. -/
theorem found_scanEndpoints (descriptors : List UsbDescriptor) :
    EndpointScan.Found (scanned descriptors) (scanEndpoints descriptors) := by
  rw [scanEndpoints, EndpointScan.visit_eq descriptors 0 _ rfl]
  exact EndpointScan.found_run _

end Mushix

import Mushix.Xhci.DriverSafe
import Mushix.Xhci.EndpointScan

/-!
# The bulk endpoints of a mass storage device

Which endpoints `handle_mass_storage_device` goes on to configure, for all descriptors that a
device can send.

* `Driver.usesOwnEndpoints_iff`: when these are endpoints of the interface that was matched;
* `Driver.configuresSafely_iff`: when their DCIs are in range and nothing panics.
-/

namespace Mushix

open LastMatch
open Method (Returns Safe)

/-- Something that the search needs is missing among the descriptors it looks at. -/
def Incomplete (descriptors : List UsbDescriptor) : Prop :=
  (∀ desc ∈ scanned descriptors, ¬desc.isConfig) ∨
    (∀ desc ∈ scanned descriptors, ¬desc.isInterface) ∨
    ∃ dir, ∀ desc ∈ scanned descriptors, ¬desc.IsBulk dir

/-- When the search has found everything that it looks for. -/
theorem not_incomplete_iff {descriptors : List UsbDescriptor} : ¬Incomplete descriptors ↔
    (∃ desc ∈ scanned descriptors, desc.isConfig) ∧
      (∃ desc ∈ scanned descriptors, desc.isInterface) ∧
      ∀ dir, ∃ desc ∈ scanned descriptors, desc.IsBulk dir := by
  simp only [Incomplete, not_or, not_exists, not_forall, not_not, exists_prop]

/-- The chosen endpoint of a direction. -/
def BulkEndpoints.ref (eps : BulkEndpoints) : DataDirection → EndpointRef
  | .deviceToHost => eps.bulkIn
  | .hostToDevice => eps.bulkOut

/-- The DCI of the chosen endpoint of a direction. -/
def BulkEndpoints.dci (eps : BulkEndpoints) : DataDirection → ℕ
  | .deviceToHost => eps.bulkInDci
  | .hostToDevice => eps.bulkOutDci

/-- The DCI of an endpoint: twice its number, and one more for IN. -/
def dciOf : DataDirection → ℕ → ℕ
  | .deviceToHost, number => number * 2 + 1
  | .hostToDevice, number => number * 2

/-- What was chosen for a list of descriptors: the last bulk endpoints that were looked at. -/
structure Chosen (descriptors : List UsbDescriptor) (eps : BulkEndpoints) : Prop where
  complete : ¬Incomplete descriptors
  last (dir : DataDirection) : IsLastAt (UsbDescriptor.IsBulk dir) (scanned descriptors)
    (eps.ref dir).index (.endpoint (eps.ref dir).desc)
  dci (dir : DataDirection) : eps.dci dir = dciOf dir (eps.ref dir).desc.number

namespace Driver

variable {σ : Type} {w : World σ} {slot : BitVec 8} {ring : ℕ} {descriptors : List UsbDescriptor}

/-- A chosen endpoint has the direction that it was chosen for. -/
theorem isIn_of_last {xs : List UsbDescriptor} {k : ℕ} {ep : EndpointDescriptor}
    {dir : DataDirection} (h : IsLastAt (UsbDescriptor.IsBulk dir) xs k (.endpoint ep)) :
    ep.isIn ↔ dir = .deviceToHost := by
  have hdir : ep.direction = dir := h.prop.2
  rw [← hdir, EndpointDescriptor.direction]
  split_ifs with hin <;> simp [hin]

/-- Whatever is chosen are the last bulk endpoints that were looked at. -/
theorem chosen_of_select {d d' : Driver σ} {eps : BulkEndpoints}
    (h : selectBulkEndpoints w slot ring descriptors d = .ok eps d') : Chosen descriptors eps := by
  have hfound := found_scanEndpoints descriptors
  simp only [selectBulkEndpoints, Method.bind_eq_ok, okOr_eq_ok] at h
  obtain ⟨config, _, ⟨hconfig, -⟩, interface, _, ⟨hinterface, -⟩, bulkIn, _, ⟨hin, -⟩, bulkOut, _,
    ⟨hout, -⟩, _, _, _, _, _, _, _, _, hOutDci, _, _, hInDci, heps⟩ := h
  have hlastIn := (hfound.bulk .deviceToHost bulkIn).1 hin
  have hlastOut := (hfound.bulk .hostToDevice bulkOut).1 hout
  -- the directions were checked by the search, so the checks before the DCIs never fail
  have hisIn : bulkIn.desc.isIn := (isIn_of_last hlastIn).2 rfl
  have hisOut : ¬bulkOut.desc.isIn := fun hisIn => nomatch (isIn_of_last hlastOut).1 hisIn
  have hOut : outDci bulkOut.desc = .ok (bulkOut.desc.number * 2) := if_pos hisOut
  have hIn : inDci bulkIn.desc = .ok (bulkIn.desc.number * 2 + 1) := if_pos hisIn
  rw [hOut] at hOutDci
  rw [hIn] at hInDci
  cases hOutDci
  cases hInDci
  cases heps
  refine ⟨?_, ?_, ?_⟩
  · refine not_incomplete_iff.2 ⟨?_, ?_, ?_⟩
    · exact hfound.config.1 (by rw [hconfig]; rfl)
    · exact hfound.interface.1 (by rw [hinterface]; rfl)
    · rintro (_ | _)
      · exact ⟨_, List.mem_of_getElem? hlastOut.get, hlastOut.prop⟩
      · exact ⟨_, List.mem_of_getElem? hlastIn.get, hlastIn.prop⟩
  · rintro (_ | _)
    · exact hlastOut
    · exact hlastIn
  · rintro (_ | _) <;> rfl

/-- The search keeps an endpoint of every direction that there is. -/
theorem exists_bulkEp {dir : DataDirection}
    (h : ∃ desc ∈ scanned descriptors, desc.IsBulk dir) :
    ∃ ref, (scanEndpoints descriptors).bulkEp dir = some ref := by
  obtain ⟨k, desc, hlast⟩ := exists_isLastAt h
  cases desc with
  | endpoint ep => exact ⟨⟨k, ep⟩, ((found_scanEndpoints descriptors).bulk dir ⟨k, ep⟩).2 hlast⟩
  | config c => exact hlast.prop.elim
  | interface e => exact hlast.prop.elim
  | unknown l t => exact hlast.prop.elim

/-- Where nothing is missing and the device accepts the requests, endpoints are chosen. -/
theorem returns_select {d : Driver σ} {regs : XhcRegisters} (h : d.SoundAt regs)
    (ring : ℕ) {db : ℕ} (hdb : regs.doorbellRegs[slot.toNat]? = some db)
    (hevent : ∀ hw, (w.event hw).1.1.transferResultOk = .ok ())
    (hcomplete : ¬Incomplete descriptors) :
    Returns (fun _ d' => d'.SoundAt regs) (selectBulkEndpoints w slot ring descriptors) d := by
  have hfound := found_scanEndpoints descriptors
  obtain ⟨hconfig, hinterface, hbulk⟩ := not_incomplete_iff.1 hcomplete
  obtain ⟨config, hconfig⟩ := Option.isSome_iff_exists.1 (hfound.config.2 hconfig)
  obtain ⟨interface, hinterface⟩ := Option.isSome_iff_exists.1 (hfound.interface.2 hinterface)
  obtain ⟨bulkIn, hin⟩ := exists_bulkEp (hbulk .deviceToHost)
  obtain ⟨bulkOut, hout⟩ := exists_bulkEp (hbulk .hostToDevice)
  have hisIn : bulkIn.desc.isIn := (isIn_of_last ((hfound.bulk .deviceToHost bulkIn).1 hin)).2 rfl
  have hisOut : ¬bulkOut.desc.isIn :=
    fun hisIn => nomatch (isIn_of_last ((hfound.bulk .hostToDevice bulkOut).1 hout)).1 hisIn
  have hOut : outDci bulkOut.desc = .ok (bulkOut.desc.number * 2) := if_pos hisOut
  have hIn : inDci bulkIn.desc = .ok (bulkIn.desc.number * 2 + 1) := if_pos hisIn
  -- the four `ok_or` and the two requests, in the order of the source
  refine (returns_okOr hconfig d).bind fun _ _ ⟨ha, hd⟩ => ?_
  subst ha hd
  refine (returns_okOr hinterface _).bind fun _ _ ⟨ha, hd⟩ => ?_
  subst ha hd
  refine (returns_okOr (a := bulkIn) hin _).bind fun _ _ ⟨ha, hd⟩ => ?_
  subst ha hd
  refine (returns_okOr (a := bulkOut) hout _).bind fun _ _ ⟨ha, hd⟩ => ?_
  subst ha hd
  refine (returns_controlNoData h hdb hevent ring (SetupStageTrb.notLink _ _ _ _ _)).bind
    fun _ d₁ h₁ => ?_
  refine (returns_controlNoData h₁ hdb hevent ring (SetupStageTrb.notLink _ _ _ _ _)).bind
    fun _ d₂ h₂ => ?_
  rw [hOut, hIn]
  exact Returns.pure h₂

/-! ## Endpoints of another interface -/

/-- The interface descriptors for which `run` calls `handle_mass_storage_device`. -/
def Matched (descriptors : List UsbDescriptor) (i : ℕ) : Prop :=
  ∃ interface, descriptors[i]? = some (.interface interface) ∧ interface.isMassStorage

/-- The place `k` belongs to the interface at the place `i`: it is behind it and before the next
interface or configuration. -/
structure BelongsTo (descriptors : List UsbDescriptor) (i k : ℕ) : Prop where
  lt : i < k
  block (j : ℕ) (desc : UsbDescriptor) : i < j → j ≤ k → descriptors[j]? = some desc →
    ¬desc.isInterface ∧ ¬desc.isConfig

/-- Whatever the hardware and the device do, the endpoints that are configured are endpoint
descriptors of the interface at the place `i`. -/
def UsesOwnEndpoints (descriptors : List UsbDescriptor) (i : ℕ) : Prop :=
  ∀ {σ : Type} (w : World σ) (slot : BitVec 8) (ring : ℕ) (d d' : Driver σ) (eps : BulkEndpoints),
    selectBulkEndpoints w slot ring descriptors d = .ok eps d' → ∀ dir,
      descriptors[(eps.ref dir).index]? = some (.endpoint (eps.ref dir).desc) ∧
        BelongsTo descriptors i (eps.ref dir).index

/-- A bulk endpoint of a direction among the descriptors that are looked at. -/
def BulkAt (descriptors : List UsbDescriptor) (dir : DataDirection) (k : ℕ) : Prop :=
  ∃ desc, (scanned descriptors)[k]? = some desc ∧ desc.IsBulk dir

/-- An event for a transfer that was a success. -/
def successfulTransfer : GenericTrbEntry where
  data := 0
  option := 1 <<< 24
  control := TrbType.transferEvent.toU32 <<< 10

/-- Some hardware and some device let the program go on to configure endpoints. -/
theorem exists_select (hcomplete : ¬Incomplete descriptors) :
    ∃ eps d', selectBulkEndpoints (.steady 0 successfulTransfer) 1 0 descriptors startEightPorts =
      .ok eps d' := by
  have hdb : (XhcRegisters.placed 0x10000 eightPorts).doorbellRegs[(1 : BitVec 8).toNat]? =
      some 0x13004 := by decide
  have hevent : successfulTransfer.transferResultOk = .ok () := rfl
  obtain ⟨eps, d', hrun, -⟩ := returns_select (w := .steady 0 successfulTransfer)
    sound_startEightPorts 0 hdb (fun _ => hevent) hcomplete
  exact ⟨eps, d', hrun⟩

/-- The endpoints of the interface at the place `i` are configured exactly when the search fails,
or when it comes to a bulk endpoint of each direction in this interface and to none behind it. -/
theorem usesOwnEndpoints_iff {i : ℕ} (hi : Matched descriptors i) :
    UsesOwnEndpoints descriptors i ↔ Incomplete descriptors ∨
      ∀ dir, (∃ k, BulkAt descriptors dir k ∧ BelongsTo descriptors i k) ∧
        ∀ k, BulkAt descriptors dir k → k < i ∨ BelongsTo descriptors i k := by
  constructor
  · intro howns
    by_cases hcomplete : Incomplete descriptors
    · exact .inl hcomplete
    · obtain ⟨eps, d', hrun⟩ := exists_select hcomplete
      have hchosen := chosen_of_select hrun
      refine .inr fun dir => ?_
      -- among the bulk endpoints that are looked at the chosen one is the last
      have hlast := hchosen.last dir
      obtain ⟨-, hbelongs⟩ := howns _ _ _ _ _ _ hrun dir
      refine ⟨⟨_, ⟨_, hlast.get, hlast.prop⟩, hbelongs⟩, ?_⟩
      rintro k ⟨desc, hget, hbulk⟩
      -- what is not before the interface is behind it, as a bulk endpoint is no interface
      rcases Nat.lt_trichotomy k i with hlt | rfl | hgt
      · exact .inl hlt
      · obtain ⟨interface, hinterface, -⟩ := hi
        rw [getElem?_of_scanned hget] at hinterface
        cases hinterface
        exact hbulk.elim
      · have hle := hlast.le hget hbulk
        exact .inr ⟨hgt, fun j desc hj hjk => hbelongs.block j desc hj (hjk.trans hle)⟩
  · rintro hcond σ w slot ring d d' eps hrun dir
    have hchosen := chosen_of_select hrun
    have hlast := hchosen.last dir
    refine ⟨getElem?_of_scanned hlast.get, ?_⟩
    -- the endpoint of the interface is before the chosen one, so the chosen one is not before `i`
    obtain ⟨⟨k, ⟨desc, hget, hbulk⟩, hbelongs⟩, hrest⟩ :=
      hcond.resolve_left hchosen.complete dir
    have hle := hlast.le hget hbulk
    rcases hrest _ ⟨_, hlast.get, hlast.prop⟩ with hlt | hown
    · have := hbelongs.lt
      omega
    · exact hown

/-- A configuration with a number of interfaces. -/
def configuration (numOfInterfaces : BitVec 8) : ConfigDescriptor where
  descLength := 9
  descType := 2
  totalLength := 32
  numOfInterfaces := numOfInterfaces
  configValue := 1
  configStringIndex := 0
  attributes := 0x80
  maxPower := 50

/-- An interface of a class with two endpoints. -/
def interfaceOf (interfaceNumber interfaceClass : BitVec 8) : InterfaceDescriptor where
  descLength := 9
  descType := 4
  interfaceNumber := interfaceNumber
  altSetting := 0
  numOfEndpoints := 2
  interfaceClass := interfaceClass
  interfaceSubclass := 6
  interfaceProtocol := 0x50
  interfaceIndex := 0

/-- A bulk endpoint with an address. -/
def bulkEndpoint (endpointAddress : BitVec 8) : EndpointDescriptor where
  descLength := 7
  descType := 5
  endpointAddress := endpointAddress
  attributes := 2
  maxPacketSize := 512
  interval := 0

/-- A device with one mass storage interface. -/
def memoryStick : List UsbDescriptor :=
  [.config (configuration 1), .interface (interfaceOf 0 8), .endpoint (bulkEndpoint 0x81),
    .endpoint (bulkEndpoint 0x02)]

theorem usesOwnEndpoints_iff_memoryStick :
    UsesOwnEndpoints memoryStick 1 ↔ Incomplete memoryStick ∨
      ∀ dir, (∃ k, BulkAt memoryStick dir k ∧ BelongsTo memoryStick 1 k) ∧
        ∀ k, BulkAt memoryStick dir k → k < 1 ∨ BelongsTo memoryStick 1 k :=
  usesOwnEndpoints_iff ⟨interfaceOf 0 8, rfl, by decide⟩

/-- A device with a mass storage interface, and with an interface of another class behind it that
has bulk endpoints as well. -/
def compositeDevice : List UsbDescriptor :=
  [.config (configuration 2), .interface (interfaceOf 0 8), .endpoint (bulkEndpoint 0x81),
    .endpoint (bulkEndpoint 0x02), .interface (interfaceOf 1 0xFF),
    .endpoint (bulkEndpoint 0x83), .endpoint (bulkEndpoint 0x04)]

theorem not_usesOwnEndpoints_compositeDevice :
    Matched compositeDevice 1 ∧ ¬UsesOwnEndpoints compositeDevice 1 := by
  refine ⟨⟨interfaceOf 0 8, rfl, by decide⟩, fun howns => ?_⟩
  have hcomplete : ¬Incomplete compositeDevice :=
    not_incomplete_iff.2 ⟨by decide, by decide, fun dir => by cases dir <;> decide⟩
  obtain ⟨eps, d', hrun⟩ := exists_select hcomplete
  have hlast := (chosen_of_select hrun).last .deviceToHost
  obtain ⟨-, hbelongs⟩ := howns _ _ _ _ _ _ hrun .deviceToHost
  -- the IN endpoint of the second interface comes later than the one of the first
  have hle : 5 ≤ (eps.ref .deviceToHost).index :=
    hlast.le (b := .endpoint (bulkEndpoint 0x83)) rfl (by decide)
  exact (hbelongs.block 4 (.interface (interfaceOf 1 0xFF)) (by decide) (by omega) rfl).1 rfl

/-! ## Endpoint numbers -/

/-- The search for endpoints does not panic. -/
theorem safe_select : Safe Sound (selectBulkEndpoints w slot ring descriptors) := by
  have houtDci : ∀ ep msg, outDci ep ≠ .error (.panic msg) := by
    intro ep msg
    unfold outDci
    split_ifs <;> simp
  have hinDci : ∀ ep msg, inDci ep ≠ .error (.panic msg) := by
    intro ep msg
    unfold inDci
    split_ifs <;> simp
  refine (safe_okOr _ _).bind fun config => (safe_okOr _ _).bind fun _ => ?_
  refine (safe_okOr _ _).bind fun bulkIn => (safe_okOr _ _).bind fun bulkOut => ?_
  refine (safe_controlNoData slot ring (SetupStageTrb.notLink _ _ _ _ _)).bind fun _ => ?_
  refine (safe_controlNoData slot ring (SetupStageTrb.notLink _ _ _ _ _)).bind fun _ => ?_
  refine (safe_lift (houtDci _)).bind fun _ => (safe_lift (hinDci _)).bind fun _ => ?_
  exact Safe.pure _

/-- A Configure Endpoint command is no Link TRB. -/
theorem notLink_cmdConfigureEndpoint (inputContext : BitVec 64) (slot : BitVec 8) :
    CommandRing.NotLink (GenericTrbEntry.cmdConfigureEndpoint inputContext slot) := by
  rw [CommandRing.NotLink, GenericTrbEntry.trbType_cmdConfigureEndpoint]
  decide

/-- The configuration of an endpoint with a DCI in range does not panic. -/
theorem safe_configureBulkEndpoint (epDesc : EndpointDescriptor) {dci : ℕ} (hpos : 1 ≤ dci)
    (hle : dci ≤ 31) : Safe Sound (configureBulkEndpoint w slot epDesc dci) := by
  refine safe_newRing.bind fun epRing => Safe.get.bind fun self => ?_
  obtain ⟨ctx, epCtx, hctx, -⟩ :=
    bulkInputContext_eq epDesc hpos hle (self.rings epRing).ringPhysAddr
  refine (safe_lift fun msg => by rw [hctx]; simp).bind fun inputContext => ?_
  refine safe_newPage.bind fun page => ?_
  refine (safe_sendCommand (notLink_cmdConfigureEndpoint _ _) _).bind fun result => ?_
  exact (safe_lift result.cmdResultOk_ne_panic).bind fun _ => Safe.pure _

/-- The configuration of an endpoint with DCI 0 always panics. -/
theorem configureBulkEndpoint_zero (epDesc : EndpointDescriptor) (d : Driver σ) :
    ∃ msg d', configureBulkEndpoint w slot epDesc 0 d = .error (.panic msg) d' := by
  obtain ⟨epRing, d₁, hring⟩ : ∃ epRing d₁, newRing w d = .ok epRing d₁ := ⟨_, _, rfl⟩
  rw [configureBulkEndpoint, Method.bind_of_ok hring, Method.run_get_bind, bulkInputContext_zero]
  exact ⟨_, _, rfl⟩

theorem safe_ignoreErr {x : Method (Driver σ) Unit} (hx : Safe Sound x) :
    Safe Sound (ignoreErr x) := by
  intro d h
  rcases hx d h with ⟨a, d', hrun, h'⟩ | ⟨msg, d', hrun, h'⟩
  · exact .inl ⟨a, d', by rw [ignoreErr, hrun], h'⟩
  · exact .inl ⟨(), d', by rw [ignoreErr, hrun], h'⟩

/-- All that `handle_mass_storage_device` does is safe, when the DCIs of whatever it chooses are
in range. -/
theorem safe_handleMassStorageDevice
    (hdci : ∀ eps, Chosen descriptors eps → ∀ dir, 1 ≤ eps.dci dir ∧ eps.dci dir ≤ 31) :
    Safe Sound (handleMassStorageDevice w slot ring descriptors) := by
  refine safe_select.bind_of_result ?_
  rintro eps ⟨d, d', hrun⟩
  have hdci := hdci eps (chosen_of_select hrun)
  -- the OUT endpoint is configured first
  have hin := hdci .deviceToHost
  have hout := hdci .hostToDevice
  refine (safe_configureBulkEndpoint _ hout.1 hout.2).bind fun bulkOutRing => ?_
  refine (safe_configureBulkEndpoint _ hin.1 hin.2).bind fun bulkInRing => ?_
  refine (safe_ignoreErr (safe_clearEndpointHalt _ _ _)).bind fun _ => ?_
  refine (safe_ignoreErr (safe_clearEndpointHalt _ _ _)).bind fun _ => ?_
  exact (safe_scsiReadTen _ _ _ _ _ _ _).bind fun _ => Safe.pure _

/-- Whatever the hardware and the device do, the DCIs of the endpoints that are configured differ
and are in range, the input contexts can be built and are not about the default control endpoint,
and nothing panics. -/
def ConfiguresSafely (descriptors : List UsbDescriptor) : Prop :=
  ∀ {σ : Type} (w : World σ) (slot : BitVec 8) (ring : ℕ) (d : Driver σ),
    (∀ eps d', selectBulkEndpoints w slot ring descriptors d = .ok eps d' →
      eps.bulkOutDci ≠ eps.bulkInDci ∧ ∀ dir, 2 ≤ eps.dci dir ∧ eps.dci dir ≤ 31 ∧
        ∀ ringPhysAddr, ∃ ctx,
          bulkInputContext (eps.ref dir).desc (eps.dci dir) ringPhysAddr = .ok ctx ∧
            ctx.deviceCtx.epCtx 0 = EndpointContext.new ∧
            ctx.inputCtrlCtx.addContextBitmap.getLsbD 1 = false) ∧
      (d.Sound → ∀ msg d',
        handleMassStorageDevice w slot ring descriptors d ≠ .error (.panic msg) d')

/-- The number of an endpoint has four bits. -/
theorem number_le (ep : EndpointDescriptor) : ep.number ≤ 15 := by
  have hmask : (0x0F#8).toNat = 2 ^ 4 - 1 := rfl
  rw [EndpointDescriptor.number, BitVec.toNat_and, hmask, Nat.and_two_pow_sub_one_eq_mod]
  omega

theorem dciOf_le (dir : DataDirection) {number : ℕ} (h : number ≤ 15) :
    dciOf dir number ≤ 31 := by
  cases dir <;> rw [dciOf] <;> omega

/-- The DCI of an endpoint is none of the slot and the default control endpoint exactly when its
number is not zero. -/
theorem two_le_dciOf_iff (dir : DataDirection) {number : ℕ} :
    2 ≤ dciOf dir number ↔ number ≠ 0 := by
  cases dir <;> rw [dciOf] <;> omega

/-- An input context for a DCI from 2 on leaves the default control endpoint alone. -/
theorem bulkInputContext_control (epDesc : EndpointDescriptor) {dci : ℕ} (hlow : 2 ≤ dci)
    (hle : dci ≤ 31) (ringPhysAddr : BitVec 64) :
    ∃ ctx, bulkInputContext epDesc dci ringPhysAddr = .ok ctx ∧
      ctx.deviceCtx.epCtx 0 = EndpointContext.new ∧
      ctx.inputCtrlCtx.addContextBitmap.getLsbD 1 = false := by
  obtain ⟨ctx, epCtx, hctx, -, hbitmap, hep⟩ :=
    bulkInputContext_eq epDesc (show 1 ≤ dci by omega) hle ringPhysAddr
  refine ⟨ctx, hctx, ?_, ?_⟩
  -- the default control endpoint has DCI 1 and is stored at index 0
  · have hne : (0 : Fin 31) ≠ ⟨dci - 1, by omega⟩ := by
      intro heq
      have := congrArg Fin.val heq
      simp only [Fin.val_zero] at this
      omega
    rw [hep, Function.update_of_ne hne]
  · rw [hbitmap, BitVec.getLsbD_or, BitVec.getLsbD_shiftLeft]
    simp [show 1 < dci by omega]

/-- Configuring is safe exactly when the search fails, or the last bulk endpoint of each direction
that it comes to has a number other than zero. -/
theorem configuresSafely_iff (descriptors : List UsbDescriptor) :
    ConfiguresSafely descriptors ↔ Incomplete descriptors ∨
      ∀ dir k ep, IsLastAt (UsbDescriptor.IsBulk dir) (scanned descriptors) k (.endpoint ep) →
        ep.number ≠ 0 := by
  constructor
  · intro hsafe
    by_cases hcomplete : Incomplete descriptors
    · exact .inl hcomplete
    · obtain ⟨eps, d', hrun⟩ := exists_select hcomplete
      have hchosen := chosen_of_select hrun
      refine .inr fun dir k ep hlast => ?_
      obtain ⟨-, hrange⟩ := (hsafe _ _ _ _).1 eps d' hrun
      have hlow := (hrange dir).1
      have hchosenLast := hchosen.last dir
      -- there is only one last endpoint
      have hk : (eps.ref dir).index = k :=
        Nat.le_antisymm (hlast.le hchosenLast.get hchosenLast.prop)
          (hchosenLast.le hlast.get hlast.prop)
      have hget := hchosenLast.get
      rw [hk, hlast.get] at hget
      cases hget
      rwa [hchosen.dci dir, two_le_dciOf_iff] at hlow
  · intro hcond σ w slot ring d
    have hnumber : ∀ eps, Chosen descriptors eps → ∀ dir, (eps.ref dir).desc.number ≠ 0 :=
      fun eps hchosen dir => hcond.resolve_left hchosen.complete dir _ _ (hchosen.last dir)
    have hrange : ∀ eps, Chosen descriptors eps → ∀ dir, 2 ≤ eps.dci dir ∧ eps.dci dir ≤ 31 := by
      intro eps hchosen dir
      rw [hchosen.dci dir]
      exact ⟨(two_le_dciOf_iff dir).2 (hnumber eps hchosen dir), dciOf_le dir (number_le _)⟩
    refine ⟨fun eps d' hrun => ?_, fun hsound msg d' => ?_⟩
    · have hchosen := chosen_of_select hrun
      have hin : eps.bulkInDci = _ := hchosen.dci .deviceToHost
      have hout : eps.bulkOutDci = _ := hchosen.dci .hostToDevice
      -- an even number and an odd one are never the same DCI
      refine ⟨by rw [hin, hout, dciOf, dciOf]; omega, fun dir => ?_⟩
      obtain ⟨hlow, hle⟩ := hrange eps hchosen dir
      exact ⟨hlow, hle, bulkInputContext_control _ hlow hle⟩
    · refine Safe.ne_panic (safe_handleMassStorageDevice fun eps hchosen dir => ?_) hsound msg
      have hdci := hrange eps hchosen dir
      omega

/-- A device whose OUT endpoint has the number 0. -/
def zeroEndpoint : List UsbDescriptor :=
  [.config (configuration 1), .interface (interfaceOf 0 8), .endpoint (bulkEndpoint 0x81),
    .endpoint (bulkEndpoint 0x00)]

/-- A device whose bulk endpoints have the number 0 makes the driver panic. -/
theorem not_configuresSafely_zeroEndpoint : ¬ConfiguresSafely zeroEndpoint := by
  intro hsafe
  have hcomplete : ¬Incomplete zeroEndpoint :=
    not_incomplete_iff.2 ⟨by decide, by decide, fun dir => by cases dir <;> decide⟩
  obtain ⟨eps, d', hrun⟩ := exists_select hcomplete
  have hchosen := chosen_of_select hrun
  have hlow := ((hsafe _ _ _ _).1 eps d' hrun).2 .hostToDevice |>.1
  have hlast := hchosen.last .hostToDevice
  -- the only OUT endpoint is the last of the four descriptors
  have hle : 3 ≤ (eps.ref .hostToDevice).index :=
    hlast.le (b := .endpoint (bulkEndpoint 0x00)) rfl (by decide)
  have hlt : (eps.ref .hostToDevice).index < (scanned zeroEndpoint).length :=
    (List.getElem?_eq_some_iff.1 hlast.get).1
  have hlength : (scanned zeroEndpoint).length = 4 := by decide
  have hget := hlast.get
  rw [show (eps.ref .hostToDevice).index = 3 by omega] at hget
  have hdesc : bulkEndpoint 0x00 = (eps.ref .hostToDevice).desc :=
    UsbDescriptor.endpoint.inj (Option.some.inj hget)
  rw [hchosen.dci .hostToDevice, ← hdesc] at hlow
  exact absurd hlow (by decide)

end Driver

end Mushix

import Mushix.Xhci.RingGuarantees

/-!
# What the command ring holds

The fields of a `CommandRing` and the cycle bits of its sixteen slots after any number of pushes.

* `CommandRing.Contents`: the index, the cycle bits and the Link TRB after `n` pushes;
* `CommandRing.Stored`: what push number `n` stores, returns and leaves alone;
* `CommandRing.push_contents`: both hold along every sequence of pushes.
-/

namespace Mushix

namespace CommandRing

/-- The ring after `n` accepted pushes. -/
structure Contents (c : CommandRing) (base : BitVec 64) (n : ℕ) : Prop where
  index_eq : c.ring.currentIndex.val = n % 15
  ours_iff : c.cycleStateOurs = true ↔ n / 15 % 2 = 1
  /-- The slots of this lap are handed over. -/
  handed : ∀ j < c.ring.currentIndex.val, (c.ring.slot j).cycleState = !c.cycleStateOurs
  /-- The other data slots and the Link TRB are not. -/
  waiting : ∀ j, c.ring.currentIndex.val ≤ j → j ≤ 15 →
    (c.ring.slot j).cycleState = c.cycleStateOurs
  linkType : (c.ring.slot 15).trbType = 6
  linkToggle : (c.ring.slot 15).toggleCycle = true
  linkData : (c.ring.slot 15).data = base

/-- The rings that the stores of `push src` leave one after the other; the last one is the ring
after the push, which may have handed the Link TRB over. -/
def stages (c : CommandRing) (src : GenericTrbEntry) : List CommandRing :=
  let afterZero := storeZero.stateAfter c
  let afterSrc := (storeSrc src).stateAfter afterZero
  let afterCycle := storeCycle.stateAfter afterSrc
  [afterZero, afterSrc, afterCycle, (push src).stateAfter c]

/-- Push number `n` of `src`, which takes the ring from `c` to `c'`. -/
structure Stored (c c' : CommandRing) (base : BitVec 64) (n : ℕ) (src : GenericTrbEntry) :
    Prop where
  /-- The address of the slot is returned. -/
  returned : push src c = .ok (base + 16#64 * BitVec.ofNat 64 (n % 15)) c'
  /-- The slot holds the TRB. -/
  slot_eq : (c'.ring.slot (n % 15)).EqExceptCycle src
  /-- No store changes anything else than the cycle bit of the Link TRB. -/
  link : ∀ d ∈ stages c src, (d.ring.slot 15).EqExceptCycle (c.ring.slot 15)

variable {c : CommandRing} {src : GenericTrbEntry} {hist srcs : List GenericTrbEntry}

theorem pushAll_append (srcs srcs' : List GenericTrbEntry) (c : CommandRing) :
    pushAll (srcs ++ srcs') c = pushAll srcs' (pushAll srcs c) := List.foldl_append

/-- Pushes do not move the ring. -/
theorem base_pushAll (h : Tracks c hist) (hsrcs : ∀ t ∈ srcs, NotLink t) :
    (pushAll srcs c).ring.base = c.ring.base := by
  induction srcs generalizing c hist with
  | nil => rfl
  | cons src srcs ih =>
    obtain ⟨c', hpush, htracks, hbase⟩ := h.push (hsrcs src List.mem_cons_self)
    have hrest := ih htracks fun t ht => hsrcs t (List.mem_cons_of_mem src ht)
    rw [hbase] at hrest
    simpa only [pushAll, List.foldl_cons, Method.stateAfter_of_ok hpush] using hrest

namespace Tracks

/-- The cycle bit of a data slot tells whether this lap has passed it. -/
theorem cycleState_slot (h : Tracks c hist) {j : ℕ} (hj : j < 15) :
    (c.ring.slot j).cycleState =
      if j < hist.length % 15 then !c.cycleStateOurs else c.cycleStateOurs := by
  have hbit := h.data.bit_eq j hj
  rw [List.length_map] at hbit
  rw [hbit, h.ours_eq, CycleRing.slotBit, CycleRing.slotCount, CycleRing.producerBit]
  rcases Nat.mod_two_eq_zero_or_one (hist.length / 15) with hlap | hlap
  · split <;> simp [hlap, Nat.add_mod (hist.length / 15) 1 2]
  · split <;> simp [hlap, Nat.add_mod (hist.length / 15) 1 2]

/-- What a ring contains after the pushes that it tracks. -/
theorem contents (h : Tracks c hist) : Contents c c.ring.base.addr hist.length where
  index_eq := h.index_eq
  ours_iff := by
    rw [h.ours_eq, CycleRing.producerBit]
    rcases Nat.mod_two_eq_zero_or_one (hist.length / 15) with hlap | hlap <;> simp [hlap]
  handed j hj := by
    rw [h.index_eq] at hj
    rw [h.cycleState_slot (hj.trans (Nat.mod_lt _ (by decide))), if_pos hj]
  waiting j hlo hhi := by
    rw [h.index_eq] at hlo
    rcases Nat.lt_or_eq_of_le hhi with hlt | rfl
    · rw [h.cycleState_slot hlt, if_neg (Nat.not_lt.2 hlo)]
    · rw [h.link, GenericTrbEntry.cycleState_setCycleState]
  linkType := by
    rw [h.link, GenericTrbEntry.trbType_setCycleState, GenericTrbEntry.trbType_trbLink]
    rfl
  linkToggle := by
    rw [h.link, (GenericTrbEntry.setCycleState_eqExceptCycle _ _).toggleCycle_eq,
      GenericTrbEntry.toggleCycle_trbLink]
  linkData := by
    rw [h.link]
    rfl

/-- The Link TRB of two rings at the same address differs at most in its cycle bit. -/
theorem link_eqExceptCycle {c' : CommandRing} {hist' : List GenericTrbEntry} (h : Tracks c hist)
    (h' : Tracks c' hist') (hbase : c'.ring.base = c.ring.base) :
    (c'.ring.slot 15).EqExceptCycle (c.ring.slot 15) := by
  rw [h.link, h'.link, hbase]
  exact (GenericTrbEntry.setCycleState_eqExceptCycle _ _).trans
    (GenericTrbEntry.setCycleState_eqExceptCycle _ _).symm

/-- The last push is found in its slot. -/
theorem slot_last (h : Tracks c (hist ++ [src])) :
    (c.ring.slot (hist.length % 15)).EqExceptCycle src := by
  have hlast := h.data.slot_eq hist.length (by simp) (by simp)
  rw [GenericTrbEntry.eqExceptCycle_iff, hlast]
  simp

end Tracks

/-- The three stores of a push leave every slot but the current one as it is. -/
theorem stages_slot {j : ℕ} (hj : j < 16) (hne : j ≠ c.ring.currentIndex) {d : CommandRing}
    (hd : d ∈ (stages c src).take 3) : d.ring.slot j = c.ring.slot j := by
  have hzero : storeZero.stateAfter c = _ := Method.stateAfter_of_ok storeZero_eq
  have hsrc : (storeSrc src).stateAfter (storeZero.stateAfter c) = _ :=
    Method.stateAfter_of_ok storeSrc_eq
  -- the third store is the last one of the three that `stores_eq` is about
  have hcycle : storeCycle.stateAfter ((storeSrc src).stateAfter (storeZero.stateAfter c)) =
      c.handOver src := by
    have hstores : (do storeZero; storeSrc src; storeCycle : Method CommandRing Unit).stateAfter c =
        c.handOver src := Method.stateAfter_of_ok stores_eq
    rw [← hstores, Method.stateAfter_bind_of_ok storeZero_eq,
      Method.stateAfter_bind_of_ok storeSrc_eq, hsrc, hzero]
  simp only [stages, List.take_succ_cons, List.take_zero, List.mem_cons, List.not_mem_nil,
    or_false] at hd
  obtain rfl | rfl | rfl := hd
  · rw [hzero, TrbRing.slot_update hj, if_neg hne]
  · rw [hsrc, hzero, TrbRing.slot_update hj, if_neg hne, TrbRing.slot_update hj, if_neg hne]
  · rw [hcycle]
    exact (TrbRing.slot_update hj).trans (if_neg hne)

/-- One push. -/
theorem Tracks.stored (h : Tracks c hist) (hsrc : NotLink src) :
    Stored c ((CommandRing.push src).stateAfter c) c.ring.base.addr hist.length src := by
  obtain ⟨c', hpush, htracks, hbase⟩ := h.push hsrc
  have hafter := Method.stateAfter_of_ok hpush
  have hlt := h.index_lt
  rw [hafter]
  refine ⟨hpush, htracks.slot_last, fun d hd => ?_⟩
  -- the last stage is the ring after the push, and the others have not come to the Link TRB yet
  rcases List.mem_append.1 (List.take_append_drop 3 (stages c src) ▸ hd) with hstore | hlast
  · rw [stages_slot (by decide) (by omega) hstore]
    exact ⟨rfl, rfl, fun _ _ => rfl⟩
  · obtain rfl : d = c' := by simpa [stages, hafter] using hlast
    exact h.link_eqExceptCycle htracks hbase

/-- For every sequence of pushes on a fresh ring: the fields of the ring and the cycle bits of its
slots are given by the number of pushes, the Link TRB stays what it is, and every push stores its
TRB in the next data slot and returns that slot's address. -/
theorem push_contents (base : IoBoxAddr) (srcs : List GenericTrbEntry)
    (hsrcs : ∀ t ∈ srcs, NotLink t) :
    Contents (pushAll srcs (default base)) base.addr srcs.length ∧
      ∀ k (hk : k < srcs.length),
        Stored (pushAll (srcs.take k) (default base)) (pushAll (srcs.take (k + 1)) (default base))
          base.addr k srcs[k] := by
  have htracks : ∀ k, Tracks (pushAll (srcs.take k) (default base)) (srcs.take k) := fun k =>
    tracks_pushAll (tracks_default base) fun t ht => hsrcs t (List.mem_of_mem_take ht)
  have hbase : ∀ k, (pushAll (srcs.take k) (default base)).ring.base = base := fun k =>
    base_pushAll (tracks_default base) fun t ht => hsrcs t (List.mem_of_mem_take ht)
  constructor
  · have hcontents := (htracks srcs.length).contents
    rwa [hbase, List.take_length] at hcontents
  · intro k hk
    have hstored := (htracks k).stored (hsrcs srcs[k] (List.getElem_mem hk))
    have hnext : pushAll (srcs.take (k + 1)) (default base) =
        (push srcs[k]).stateAfter (pushAll (srcs.take k) (default base)) := by
      rw [List.take_succ_eq_append_getElem hk, pushAll_append]
      rfl
    rw [hnext]
    rwa [hbase, List.length_take, Nat.min_eq_left hk.le] at hstored

theorem push_contents_thirty :
    let srcs := (List.range 30).map RingSystem.numbered
    Contents (pushAll srcs (default RingSystem.page0)) RingSystem.page0.addr srcs.length ∧
      ∀ k (hk : k < srcs.length),
        Stored (pushAll (srcs.take k) (default RingSystem.page0))
          (pushAll (srcs.take (k + 1)) (default RingSystem.page0)) RingSystem.page0.addr k
          srcs[k] :=
  push_contents RingSystem.page0 ((List.range 30).map RingSystem.numbered) (by decide)

end CommandRing

end Mushix

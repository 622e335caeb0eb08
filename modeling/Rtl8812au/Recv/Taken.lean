import Rtl8812au.Recv.LetThrough

/-!
# Whether a frame is taken

`process_recv_indicatepkts` refuses a frame that has no room for an Ethernet header, one
whose number is behind the reorder window, and one whose number waits there already. `MsduTaken`
says that none of this is so, on the pointers of the frame and the numbers in the window.
-/

namespace Rtl8812au

/-! ## Room for the Ethernet header -/

/-- The frame without the ICV that `wlanhdr_to_ethhdr` cuts off. -/
def withoutIcv (f : RecvFrame) : RecvFrame :=
  if f.attrib.encrypt != .noPrivacy then (f.pullTail f.attrib.icvLen).1 else f

/-- The bytes `wlanhdr_to_ethhdr` removes. -/
def removedLen (f : RecvFrame) : Nat :=
  f.attrib.hdrlen + f.attrib.ivLen + if snapRemoved f.buf (payloadAt f) then snapSize else 0

/-- How far the front of the frame moves. In `WIFI_MP_STATE` there are 24 bytes of receive
status in front of the header. -/
def pulledLen (mp : Bool) (f : RecvFrame) : Int :=
  if mp then (removedLen f : Int) - ethHlen + 2 - 24
  else (removedLen f : Int) - ethHlen + if snapRemoved f.buf (payloadAt f) then 2 else 0

/-- There is as much of the frame as its front moves. -/
def HasRoom (mp : Bool) (f : RecvFrame) : Prop :=
  (f.rxData : Int) + pulledLen mp f ≤ (withoutIcv f).rxTail

instance (mp : Bool) (f : RecvFrame) : Decidable (HasRoom mp f) := inferInstanceAs (Decidable (_ ≤ _))

theorem pull_done {f : RecvFrame} {sz : Int} :
    (f.pull sz).2 = true ↔ (f.rxData : Int) + sz ≤ f.rxTail := by
  unfold RecvFrame.pull
  split
  · simp; omega
  · simp; omega

/-- What the cut of the ICV leaves alone. -/
theorem withoutIcv_same (f : RecvFrame) :
    (withoutIcv f).rxData = f.rxData ∧ (withoutIcv f).buf = f.buf
      ∧ (withoutIcv f).attrib = f.attrib := by
  unfold withoutIcv RecvFrame.pullTail
  split_ifs <;> exact ⟨rfl, rfl, rfl⟩

/-- The Ethernet header in front of a packet. -/
def putEthHdr (f : RecvFrame) (snap : Bool) (len p : Nat) : RecvFrame :=
  let buf := (f.buf.write p f.attrib.dst.bytes).write (p + 6) f.attrib.src.bytes
  { f with buf := if snap then buf else buf.write (p + 12) (htons len) }

/-- The frame as `wlanhdr_to_ethhdr` pulls it: without its ICV, and in `WIFI_MP_STATE` with
the type of the test packets. -/
def pulledForm (mp : Bool) (f : RecvFrame) : RecvFrame :=
  let g := withoutIcv f
  { g with
    attrib := { g.attrib with ethType := f.buf.be16 (f.rxData + removedLen f) }
    buf := if mp then f.buf.write (f.rxData + removedLen f) [0x87, 0x12] else f.buf }

/-- The length that may stand for a type. -/
def ethLen (f : RecvFrame) : Nat := (((withoutIcv f).len - removedLen f : Int) % 2 ^ 16).toNat

/-- The result of the pull is looked at twice. -/
theorem ite_triple {α β : Type} (c : Bool) (x y : α) (p q : Nat) (yes : α → Nat → β)
    (no : α → β) :
    (if (if c then (x, p, true) else (y, q, false)).2.2 = true then
        yes (if c then (x, p, true) else (y, q, false)).1
          (if c then (x, p, true) else (y, q, false)).2.1
      else no (if c then (x, p, true) else (y, q, false)).1) = if c then yes x p else no y := by
  cases c with
  | true => rfl
  | false => rfl

theorem payloadAt_eq (f : RecvFrame) :
    payloadAt f = f.rxData + (f.attrib.hdrlen + f.attrib.ivLen) := Nat.add_assoc ..

/-- **`wlanhdr_to_ethhdr` outside `WIFI_MP_STATE`**: a pull, and the header. -/
theorem wlanhdrToEthhdr_eq (f : RecvFrame) : wlanhdrToEthhdr false f =
    let r := (pulledForm false f).pull (pulledLen false f)
    if r.2 then (putEthHdr r.1 (snapRemoved f.buf (payloadAt f)) (ethLen f) r.1.rxData, true)
    else (r.1, false) := by
  obtain ⟨hdata, hbuf, hattrib⟩ := withoutIcv_same f
  unfold pulledForm pulledLen ethLen removedLen
  rw [payloadAt_eq, ← hattrib, ← hbuf]
  rfl

/-- **In `WIFI_MP_STATE`** the receive status is copied in front of it. -/
theorem wlanhdrToEthhdr_mpEq (f : RecvFrame) : wlanhdrToEthhdr true f =
    let r := (pulledForm true f).pull (pulledLen true f)
    if r.2 then
      (putEthHdr { r.1 with buf := r.1.buf.copy r.1.rxData r.1.buf r.1.rxHead 24 }
        (snapRemoved f.buf (payloadAt f)) (ethLen f) (r.1.rxData + 24), true)
    else (r.1, false) := by
  obtain ⟨hdata, hbuf, hattrib⟩ := withoutIcv_same f
  unfold pulledForm pulledLen ethLen removedLen
  rw [payloadAt_eq, ← hattrib, ← hbuf]
  generalize hg : withoutIcv f = g
  have hunfold : ∀ g : RecvFrame, g = withoutIcv f → wlanhdrToEthhdr true f =
      let snap := snapRemoved g.buf (f.rxData + (g.attrib.hdrlen + g.attrib.ivLen))
      let rmv := g.attrib.hdrlen + g.attrib.ivLen + if snap then snapSize else 0
      let r := RecvFrame.pull { g with
        attrib := { g.attrib with ethType := g.buf.be16 (f.rxData + rmv) }
        buf := g.buf.write (f.rxData + rmv) [0x87, 0x12] } ((rmv : Int) - ethHlen + 2 - 24)
      if r.2 then
        (putEthHdr { r.1 with buf := r.1.buf.copy r.1.rxData r.1.buf r.1.rxHead 24 } snap
          (((g.len : Int) - rmv) % 2 ^ 16).toNat (r.1.rxData + 24), true)
      else (r.1, false) := by
    rintro g rfl
    exact ite_triple _ _ _ _ _ (fun x p => (putEthHdr x _ _ p, true)) fun x => (x, false)
  exact hunfold g hg.symm

/-- **`wlanhdr_to_ethhdr` succeeds when there is room.** -/
theorem wlanhdrToEthhdr_room {mp : Bool} {f : RecvFrame} :
    (wlanhdrToEthhdr mp f).2 = true ↔ HasRoom mp f := by
  have hdata : (pulledForm mp f).rxData = f.rxData := (withoutIcv_same f).1
  have hpull : (wlanhdrToEthhdr mp f).2 = ((pulledForm mp f).pull (pulledLen mp f)).2 := by
    cases mp with
    | true =>
        rw [wlanhdrToEthhdr_mpEq]
        dsimp only
        split <;> simp_all
    | false =>
        rw [wlanhdrToEthhdr_eq]
        dsimp only
        split <;> simp_all
  rw [hpull, pull_done, hdata]
  rfl

/-! ## The reorder window -/

/-- The window takes a number: it is not behind, and no frame with it waits. -/
structure WindowTakes (c : RecvReorderCtrl) (seq : Nat) : Prop where
  notBehind : c.indicateSeq ≠ 0xFFFF → snLess seq c.indicateSeq = false
  fresh : ((seqs c.pendingRecvframeQueue).dropWhile fun s => snLess s seq).head? ≠ some seq

instance (c : RecvReorderCtrl) (seq : Nat) : Decidable (WindowTakes c seq) :=
  decidable_of_iff (_ ∧ _) ⟨fun h => ⟨h.1, h.2⟩, fun h => ⟨h.notBehind, h.fresh⟩⟩

/-- The reorder buffer takes the frame. A frame that is no A-MSDU gets its Ethernet header
first; what has no QoS field, and what is not reordered, passes the window by. -/
structure ReorderTakes (mp : Bool) (c : RecvReorderCtrl) (k : RecvFrame) : Prop where
  room : k.attrib.amsdu = false → HasRoom mp k
  window : (k.attrib.amsdu = true ∨ k.attrib.qos = true) → c.enable = true →
    WindowTakes c k.attrib.seqNum

instance (mp : Bool) (c : RecvReorderCtrl) (k : RecvFrame) : Decidable (ReorderTakes mp c k) :=
  decidable_of_iff (_ ∧ _) ⟨fun h => ⟨h.1, h.2⟩, fun h => ⟨h.room, h.window⟩⟩

/-- `process_recv_indicatepkts` takes the frame. -/
def MsduTaken (a : Adapter) (k : RecvFrame) : Prop :=
  if a.mlme.htOption = true then
    ∀ p ∈ k.preorderCtrl, ReorderTakes a.mlme.mpState ((a.sta p.1).recvreorderCtrl p.2) k
  else HasRoom a.mlme.mpState k

instance (a : Adapter) (k : RecvFrame) : Decidable (MsduTaken a k) :=
  @instDecidableIte _ _ _ _ (Option.decidableForallMem k.preorderCtrl) _

theorem snLess_self (n : Nat) : snLess n n = false := by
  unfold snLess
  rw [Nat.add_sub_cancel_left]
  rfl

theorem checkIndicateSeq_ok {c : RecvReorderCtrl} {seq : Nat} :
    (checkIndicateSeq c seq).2 = true ↔
      (c.indicateSeq ≠ 0xFFFF → snLess seq c.indicateSeq = false) := by
  unfold checkIndicateSeq
  dsimp only
  by_cases hn : c.indicateSeq = 0xFFFF
  · have hbeq : (c.indicateSeq == 0xFFFF) = true := by simpa using hn
    simp only [hbeq, if_true, snLess_self, Bool.false_eq_true, if_false]
    refine ⟨fun _ h => absurd hn h, fun _ => ?_⟩
    split_ifs <;> rfl
  · have hbeq : (c.indicateSeq == 0xFFFF) = false := by simpa using hn
    simp only [hbeq, Bool.false_eq_true, if_false]
    cases hl : snLess seq c.indicateSeq with
    | true =>
        rw [if_pos rfl]
        exact ⟨fun h => (nomatch h), fun h => (nomatch h hn)⟩
    | false =>
        rw [if_neg Bool.false_ne_true]
        refine ⟨fun _ _ => rfl, fun _ => ?_⟩
        split_ifs <;> rfl

/-- The walk finds a place unless it stops at the same number. -/
theorem enqueue_fresh {f : RecvFrame} : ∀ {q : List RecvFrame},
    enqueueReorderRecvframe f q ≠ none ↔
      ((seqs q).dropWhile fun s => snLess s f.attrib.seqNum).head? ≠ some f.attrib.seqNum
  | [] => by simp [enqueueReorderRecvframe, seqs]
  | g :: q => by
      have ih := enqueue_fresh (f := f) (q := q)
      have hcons : seqs (g :: q) = g.attrib.seqNum :: seqs q := rfl
      rw [enqueueReorderRecvframe, hcons, List.dropWhile_cons]
      split
      · rw [← ih]
        cases enqueueReorderRecvframe f q <;> simp
      · rw [List.head?_cons]
        unfold snEqual
        split <;> simp_all

theorem reorderInsert_ret {c : RecvReorderCtrl} {f : RecvFrame} :
    (reorderInsert c f).ret = true ↔ WindowTakes c f.attrib.seqNum := by
  have hok := @checkIndicateSeq_ok c f.attrib.seqNum
  have hq := @enqueue_fresh f c.pendingRecvframeQueue
  rcases reorderInsert_cases c f with ⟨hno, hr⟩ | ⟨hyes, hnone, hr⟩ | ⟨q, b, hyes, hsome, hr⟩
  · rw [hr]
    refine ⟨fun h => (nomatch h), fun h => ?_⟩
    rw [hok.mpr h.notBehind] at hno
    cases hno
  · rw [hr]
    refine ⟨fun h => (nomatch h), fun h => absurd hnone (hq.mpr h.fresh)⟩
  · rw [hr]
    exact ⟨fun _ => ⟨hok.mp hyes, hq.mp (by rw [hsome]; simp)⟩, fun _ => rfl⟩

/-- **The reorder buffer of a running driver.** -/
theorem recvIndicatepktReorder_ret {mp : Bool} {c : RecvReorderCtrl} {k : RecvFrame} :
    (recvIndicatepktReorder true mp c k).ret = true ↔ ReorderTakes mp c k := by
  have hqos := wlanhdrToEthhdr_qos mp k
  have hseq := wlanhdrToEthhdr_seqNum mp k
  unfold recvIndicatepktReorder
  cases hamsdu : k.attrib.amsdu with
  | true =>
      rw [if_neg (by simp)]
      cases he : c.enable with
      | false =>
          rw [if_pos (by simp)]
          refine ⟨fun _ => ⟨fun h => ?_, fun _ h => ?_⟩, fun _ => rfl⟩
          · rw [hamsdu] at h
            cases h
          · rw [he] at h
            cases h
      | true =>
          rw [if_neg (by simp), reorderInsert_ret]
          refine ⟨fun h => ⟨fun h' => ?_, fun _ _ => h⟩, fun h => h.window (Or.inl hamsdu) he⟩
          rw [hamsdu] at h'
          cases h'
  | false =>
      rw [if_pos (by simp)]
      rcases hw : wlanhdrToEthhdr mp k with ⟨g, ok⟩
      have hroom := @wlanhdrToEthhdr_room mp k
      rw [hw] at hroom hqos hseq
      dsimp only at hroom hqos hseq ⊢
      rw [hqos]
      cases ok with
      | false =>
          rw [if_pos (by simp)]
          exact ⟨fun h => (nomatch h), fun h => absurd (hroom.mpr (h.room hamsdu)) (by simp)⟩
      | true =>
          have hroom := hroom.mp rfl
          rw [if_neg (by simp)]
          cases hq : k.attrib.qos with
          | false =>
              -- not in the window's business
              rw [if_pos (by simp), if_pos rfl]
              refine ⟨fun _ => ⟨fun _ => hroom, fun h => ?_⟩, fun _ => rfl⟩
              rw [hamsdu, hq] at h
              rcases h with h | h <;> cases h
          | true =>
              rw [if_neg (by simp)]
              cases he : c.enable with
              | false =>
                  rw [if_pos (by simp)]
                  refine ⟨fun _ => ⟨fun _ => hroom, fun _ h => ?_⟩, fun _ => rfl⟩
                  rw [he] at h
                  cases h
              | true =>
                  rw [if_neg (by simp), reorderInsert_ret, hseq]
                  exact ⟨fun h => ⟨fun _ => hroom, fun _ _ => h⟩,
                    fun h => h.window (Or.inr hq) he⟩

/-- **`process_recv_indicatepkts` of a running driver succeeds** when it takes the frame. -/
theorem processRecvIndicatepkts_ret {os : Os} {a c : Adapter} {k : RecvFrame} {ret : RxRet}
    (hr : a.running = true) (h : processRecvIndicatepkts os a k = .done (c, ret)) :
    ret = .success ↔ MsduTaken a k := by
  unfold processRecvIndicatepkts at h
  unfold MsduTaken
  dsimp only at h
  rw [hr] at h
  split at h
  · rename_i hht
    rw [if_pos hht]
    split at h
    · cases h
    · rename_i s t hctrl
      rw [hctrl]
      have hall : (∀ p ∈ some (s, t),
          ReorderTakes a.mlme.mpState ((a.sta p.1).recvreorderCtrl p.2) k) ↔
          ReorderTakes a.mlme.mpState ((a.sta s).recvreorderCtrl t) k :=
        ⟨fun h => h (s, t) rfl, fun h p hp => by cases hp; exact h⟩
      rw [hall, ← recvIndicatepktReorder_ret, ← (Prod.mk.inj (Outcome.done.inj h)).2]
      cases (recvIndicatepktReorder true a.mlme.mpState ((a.sta s).recvreorderCtrl t) k).ret <;> simp
  · rename_i hht
    rw [if_neg hht, ← wlanhdrToEthhdr_room]
    rcases hw : wlanhdrToEthhdr a.mlme.mpState k with ⟨g, ok⟩
    rw [hw] at h
    cases ok with
    | false =>
        rw [← (Prod.mk.inj (Outcome.done.inj h)).2]
        simp
    | true =>
        rw [← (Prod.mk.inj (Outcome.done.inj h)).2]
        simp

/-- Only the mode and the windows matter. -/
theorem MsduTaken.congr {a b : Adapter} {k : RecvFrame} (hm : b.mlme = a.mlme)
    (hw : SameWindows a b) : MsduTaken b k ↔ MsduTaken a k := by
  unfold MsduTaken
  simp only [hm, hw _ _]

/-! ## Reassembled MSDUs -/

section

variable {aes : AesKey → BlockMode.Block → BlockMode.Block} {a : Adapter} {f : RecvFrame}

/-- **The MSDU that a last fragment completes is taken**, if one is let through. -/
def PostOk (aes : AesKey → BlockMode.Block → BlockMode.Block) (a : Adapter) (f : RecvFrame) : Prop :=
  isLastFragment f = true → ∀ k gone, LetThrough aes a f k gone → MsduTaken (a.without gone) k

/-- The same on the state in which `recv_func_posthandle` indicates. -/
theorem postOk_iff : PostOk aes a f ↔
    (isLastFragment f = true → ∀ b k, posthandleFrame aes a f = .done (b, .inl k) → MsduTaken b k) := by
  refine ⟨fun h hl b k hpost => ?_, fun h hl k gone hk => ?_⟩
  · obtain ⟨gone, hk, hw⟩ := letThrough_of_posthandle hpost
    have hm : b.mlme = (a.without gone).mlme := by
      rw [(sameConfig_posthandleFrame hpost).mlme, (Adapter.without_mlme gone a).1]
    exact (MsduTaken.congr hm hw).mpr (h hl k gone hk)
  · obtain ⟨b, hpost, hw⟩ := hk.posthandle
    have hm : b.mlme = (a.without gone).mlme := by
      rw [(sameConfig_posthandleFrame hpost).mlme, (Adapter.without_mlme gone a).1]
    exact (MsduTaken.congr hm hw).mp (h hl b k hpost)

/-- So it can be tested. -/
instance : Decidable (PostOk aes a f) :=
  match hpost : posthandleFrame aes a f with
  | .done (b, .inl k) =>
    decidable_of_iff (isLastFragment f = true → MsduTaken b k) (by
      rw [postOk_iff, hpost]
      refine forall_congr' fun _ => ⟨fun h b' k' he => ?_, fun h => h b k rfl⟩
      cases he
      exact h)
  | .done (b, .inr r) => .isTrue (postOk_iff.mpr fun _ b' k' he => by rw [hpost] at he; cases he)
  | .overrun => .isTrue (postOk_iff.mpr fun _ b' k' he => by rw [hpost] at he; cases he)
  | .hangs => .isTrue (postOk_iff.mpr fun _ b' k' he => by rw [hpost] at he; cases he)

end

end Rtl8812au

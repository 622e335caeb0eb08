import Rtl8812au.Lib.Reach
import Rtl8812au.Recv.Taken

/-!
# What a closed port lets through

`portctrl` looks at two bytes, six behind the header and the IV. They are the EtherType of
what goes up when the frame is an MSDU behind a SNAP header that is removed. They are something
else when it is an A-MSDU, whose first subframe has its source address there, or an MSDU without
such a header, which gets its length for a type.

The theorem says for exactly which frames of a closed port nothing but EAPOL goes up.
-/

namespace Rtl8812au

/-! ## The type of a packet -/

theorem getD_read (m : Mem) (p n i : Nat) :
    (m.read p n).getD i 0 = if i < n then m (p + i) else 0 := by
  rw [List.getD_eq_getElem?_getD]
  split
  · rename_i hi
    rw [Mem.getElem?_read m hi]
    rfl
  · rename_i hi
    rw [List.getElem?_eq_none (by rw [Mem.length_read]; omega)]
    rfl

/-- The type stands behind the two addresses. -/
theorem etherType_addrs (dst src : MacAddr) (rest : List UInt8) :
    Pkt.etherType (dst.bytes ++ src.bytes ++ rest) =
      (rest.getD 0 0).toNat * 256 + (rest.getD 1 0).toNat := by
  cases dst
  cases src
  rfl

theorem htons_value (n : Nat) (rest : List UInt8) :
    ((htons n ++ rest).getD 0 0).toNat * 256 + ((htons n ++ rest).getD 1 0).toNat = n % 2 ^ 16 := by
  simp [htons]
  omega

/-- A packet is EAPOL when it has a whole header with that type in it. -/
theorem etherType_read (m : Mem) (p n : Nat) :
    Pkt.etherType (m.read p n) = eapolType ↔ 14 ≤ n ∧ m.be16 (p + 12) = eapolType := by
  unfold Pkt.etherType Mem.be16
  rw [getD_read, getD_read]
  by_cases h : 14 ≤ n
  · rw [if_pos (by omega), if_pos (by omega), Nat.add_assoc]
    exact ⟨fun he => ⟨h, he⟩, fun he => he.2⟩
  · rw [if_neg (show ¬ 13 < n by omega)]
    refine ⟨fun he => ?_, fun he => absurd he.1 h⟩
    -- the second byte of the type is missing, and it is not zero
    have h0 : (0 : UInt8).toNat = 0 := rfl
    unfold eapolType at he
    rw [h0] at he
    omega

/-! ## Subframes of an A-MSDU -/

/-- The type a payload of `n` bytes at `p` gets in an A-MSDU. -/
def subframeType (m : Mem) (p n : Nat) : Nat :=
  if 8 ≤ n ∧ snapRemoved m p then m.be16 (p + snapSize) else n

theorem etherType_msduPkt (a : RxPktAttrib) (m : Mem) (n pdata : Nat) (hn : n < 2 ^ 16) :
    (rtwOsAllocMsduPkt a m n pdata).etherType = subframeType m (pdata + ethHlen) n := by
  unfold rtwOsAllocMsduPkt subframeType
  dsimp only
  split
  · rename_i h
    rw [etherType_addrs, Mem.drop_read m (by unfold snapSize; omega), getD_read, getD_read,
      if_pos (by unfold snapSize; omega), if_pos (by unfold snapSize; omega)]
    rfl
  · rw [List.append_assoc (a.dst.bytes ++ a.src.bytes), etherType_addrs, htons_value,
      Nat.mod_eq_of_lt hn]

/-- Where the subframes stand that `amsdu_to_msdu` cuts out, and how long their payloads are. -/
def subframeSpans (m : Mem) (alloc : Nat → Bool) :
    (room pdata : Nat) → (aLen : Int) → List (Nat × Nat)
  | 0, _, _ => []
  | room + 1, pdata, aLen =>
    if aLen ≤ ethHlen then []
    else
      let n := m.be16 (pdata + 12)
      if aLen < ethHlen + n then []
      else if !alloc (maxSubframeCount - (room + 1)) then []
      else
        let next := aLen - ethHlen - n
        let pad := (4 - (n + ethHlen) % 4) % 4
        if next = 0 ∨ next < pad then [(pdata, n)]
        else (pdata, n) :: subframeSpans m alloc room (pdata + ethHlen + n + pad) (next - pad)

theorem be16_lt (m : Mem) (p : Nat) : m.be16 p < 2 ^ 16 := by
  unfold Mem.be16
  have h1 := (m p).toNat_lt
  have h2 := (m (p + 1)).toNat_lt
  omega

theorem parseSubframes_eq (a : RxPktAttrib) (m : Mem) (alloc : Nat → Bool) :
    ∀ (room pdata : Nat) (aLen : Int), parseSubframes a m alloc room pdata aLen =
      (subframeSpans m alloc room pdata aLen).map fun s => rtwOsAllocMsduPkt a m s.2 s.1 := by
  intro room
  induction room with
  | zero => intro pdata aLen; rfl
  | succ room ih =>
      intro pdata aLen
      unfold parseSubframes subframeSpans
      dsimp only
      split
      · rfl
      · split
        · rfl
        · split
          · rfl
          · split
            · rename_i h0
              rw [if_pos (Or.inl h0)]
              rfl
            · rename_i h0
              split
              · rename_i hpad
                rw [if_pos (Or.inr hpad)]
                rfl
              · rename_i hpad
                rw [if_neg (not_or.mpr ⟨h0, hpad⟩), List.map_cons, ih]

theorem subframeSpans_lt (m : Mem) (alloc : Nat → Bool) :
    ∀ (room pdata : Nat) (aLen : Int), ∀ s ∈ subframeSpans m alloc room pdata aLen,
      s.2 < 2 ^ 16 := by
  intro room
  induction room with
  | zero => intro pdata aLen s hs; cases hs
  | succ room ih =>
      intro pdata aLen s hs
      unfold subframeSpans at hs
      dsimp only at hs
      split at hs
      · cases hs
      · split at hs
        · cases hs
        · split at hs
          · cases hs
          · split at hs
            · rw [List.mem_singleton.mp hs]
              exact be16_lt m _
            · rcases List.mem_cons.mp hs with rfl | hs
              · exact be16_lt m _
              · exact ih _ _ s hs

/-- The subframes of an A-MSDU. -/
def amsduSpans (alloc : Nat → Bool) (f : RecvFrame) : List (Nat × Nat) :=
  let f := (f.pull f.attrib.hdrlen).1
  let f := if 0 < f.attrib.ivLen then (f.pull f.attrib.ivLen).1 else f
  subframeSpans f.buf alloc maxSubframeCount f.rxData (toInt32 f.len)

/-- **An A-MSDU is EAPOL** when each of its subframes is. -/
theorem amsduSubframes_eapol (alloc : Nat → Bool) (f : RecvFrame) :
    (∀ p ∈ amsduSubframes alloc f, p.etherType = eapolType) ↔
      ∀ s ∈ amsduSpans alloc f, subframeType f.buf (s.1 + ethHlen) s.2 = eapolType := by
  have hbuf : ∀ (g : RecvFrame) (n : Int), (g.pull n).1.buf = g.buf := by
    intro g n
    unfold RecvFrame.pull
    split
    · rfl
    · rfl
  unfold amsduSubframes amsduSpans
  dsimp only
  have hbuf' : (if 0 < (f.pull f.attrib.hdrlen).1.attrib.ivLen then
      ((f.pull f.attrib.hdrlen).1.pull (f.pull f.attrib.hdrlen).1.attrib.ivLen).1
      else (f.pull f.attrib.hdrlen).1).buf = f.buf := by
    split
    · rw [hbuf, hbuf]
    · rw [hbuf]
  generalize (if 0 < (f.pull f.attrib.hdrlen).1.attrib.ivLen then
    ((f.pull f.attrib.hdrlen).1.pull (f.pull f.attrib.hdrlen).1.attrib.ivLen).1
    else (f.pull f.attrib.hdrlen).1) = g at hbuf' ⊢
  rw [← hbuf', parseSubframes_eq, List.forall_mem_map]
  refine forall₂_congr fun s hs => ?_
  rw [etherType_msduPkt _ _ _ _ (subframeSpans_lt _ _ _ _ _ s hs)]

/-! ## An MSDU -/

/-- A data frame as validation passes it on: with its pointers in order, a whole MAC header,
and of a size that a buffer can have. -/
structure DataFrame (f : RecvFrame) : Prop where
  wf : f.WF
  hdrlen : 24 ≤ f.attrib.hdrlen
  size : f.rxEnd < f.rxHead + 2 ^ 31

/-- The length of a frame without the ICV that `wlanhdr_to_ethhdr` cuts off. -/
def cutLen (f : RecvFrame) : Nat :=
  if f.attrib.encrypt != .noPrivacy then lenAfterCut f.len f.attrib.icvLen else f.len

theorem withoutIcv_eq {f : RecvFrame} (hw : f.WF) :
    (withoutIcv f).WF ∧ (withoutIcv f).len = cutLen f ∧
      withoutIcv f = { f with len := (withoutIcv f).len, rxTail := (withoutIcv f).rxTail } := by
  unfold withoutIcv cutLen
  split
  · refine ⟨RecvFrame.wf_pullTail hw, ?_, ?_⟩
    · rw [trim_eq hw]
    · rw [trim_eq hw]
  · exact ⟨hw, rfl, rfl⟩

/-- The MSDU of a frame whose bytes six behind the header and the IV are the EAPOL type goes up
with that type: the SNAP header is removed and the type is all there; or the length, which takes
the place of a type, happens to be that number. In `WIFI_MP_STATE` the receive status stands
where the type is looked for. -/
def MsduEapol (mp : Bool) (f : RecvFrame) : Prop :=
  let hdr := f.attrib.hdrlen + f.attrib.ivLen
  let snap := snapRemoved f.buf (payloadAt f)
  if mp then
    hdr + (if snap then snapSize else 0) ≤ cutLen f + 22 ∧ f.buf.be16 (f.rxHead + 12) = eapolType
  else if snap then hdr + 8 ≤ cutLen f
  else hdr ≤ cutLen f ∧ (cutLen f - hdr) % 2 ^ 16 = eapolType

/-- Two bytes that nothing was written over. -/
theorem be16_write_below {m : Mem} {p q : Nat} {bs : List UInt8} (h : p + bs.length ≤ q) :
    (m.write p bs).be16 q = m.be16 q := by
  unfold Mem.be16
  rw [Mem.write_of_ge h, Mem.write_of_ge (by omega)]

theorem be16_write_htons (m : Mem) (p n : Nat) : (m.write p (htons n)).be16 p = n % 2 ^ 16 := by
  have hlen : (htons n).length = 2 := rfl
  have h0 : (m.write p (htons n)) (p + 0) = (htons n).get ⟨0, by omega⟩ := Mem.write_inside _
  have h1 : (m.write p (htons n)) (p + 1) = (htons n).get ⟨1, by omega⟩ := Mem.write_inside _
  unfold Mem.be16
  rw [Nat.add_zero] at h0
  rw [h0, h1]
  exact htons_value n []

section Msdu

variable {f : RecvFrame}

theorem pull_ok {h : RecvFrame} {n : Nat} (hw : h.WF) (hok : (h.pull n).2 = true) :
    n ≤ h.len ∧ (h.pull n).1 = { h with rxData := h.rxData + n, len := h.len - n } := by
  rw [RecvFrame.pull_eq hw] at hok ⊢
  split at hok
  · rename_i hle
    rw [if_pos hle]
    exact ⟨hle, rfl⟩
  · cases hok

/-- The frame as it is pulled: the pointers in order, and as much of it as the cut leaves. -/
theorem pulledForm_wf (mp : Bool) (hw : f.WF) : (pulledForm mp f).WF ∧
    (pulledForm mp f).len = cutLen f ∧ (pulledForm mp f).rxData = f.rxData ∧
    (pulledForm mp f).rxHead = f.rxHead ∧ (pulledForm mp f).rxEnd = f.rxEnd := by
  obtain ⟨hwc, hlen, heq⟩ := withoutIcv_eq hw
  refine ⟨⟨hwc.head_le, hwc.data_le, hwc.tail_le, hwc.len_eq, hwc.small⟩, hlen, ?_, ?_, ?_⟩
  · have h := congrArg RecvFrame.rxData heq
    exact h
  · have h := congrArg RecvFrame.rxHead heq
    exact h
  · have h := congrArg RecvFrame.rxEnd heq
    exact h

theorem ethLen_eq (hw : f.WF) : ethLen f = (((cutLen f : Int) - removedLen f) % 2 ^ 16).toNat := by
  unfold ethLen
  rw [(withoutIcv_eq hw).2.1]

/-- Outside `WIFI_MP_STATE` the type is what `portctrl` has looked at, or the length. -/
theorem wlanhdrToEthhdr_eapol (hf : DataFrame f)
    (htype : f.buf.be16 (payloadAt f + llcHeaderSize) = eapolType)
    (hok : (wlanhdrToEthhdr false f).2 = true) :
    Pkt.etherType (wlanhdrToEthhdr false f).1.bytes = eapolType ↔ MsduEapol false f := by
  obtain ⟨hw, hlen, hdata, -, -⟩ := pulledForm_wf false hf.wf
  have hbuf : (pulledForm false f).buf = f.buf := rfl
  have heq := wlanhdrToEthhdr_eq f
  rw [ethLen_eq hf.wf, pulledLen, if_neg Bool.false_ne_true] at heq
  generalize pulledForm false f = h at hw hlen hdata hbuf heq
  have hhdr := hf.hdrlen
  have hpay : payloadAt f = f.rxData + (f.attrib.hdrlen + f.attrib.ivLen) := by
    unfold payloadAt
    omega
  rw [heq] at hok ⊢
  dsimp only at hok ⊢
  unfold MsduEapol
  rw [if_neg Bool.false_ne_true]
  by_cases hsnap : snapRemoved f.buf (payloadAt f) = true
  · -- the type is the one `portctrl` has looked at
    have hrm : removedLen f = f.attrib.hdrlen + f.attrib.ivLen + 6 := by
      unfold removedLen
      rw [if_pos hsnap]
      rfl
    have hsz : ((removedLen f : Nat) : Int) - ethHlen + 2 =
        ((f.attrib.hdrlen + f.attrib.ivLen - 6 : Nat) : Int) := by
      rw [hrm]
      unfold ethHlen
      omega
    simp only [hsnap, if_true, hsz] at hok ⊢
    split at hok
    · rename_i hpull
      obtain ⟨hle, hpull'⟩ := pull_ok hw hpull
      rw [if_pos hpull, hpull']
      unfold RecvFrame.bytes putEthHdr
      dsimp only
      rw [if_pos rfl, etherType_read, be16_write_below (by rw [MacAddr.length_bytes]),
        be16_write_below (by rw [MacAddr.length_bytes]; omega), hbuf, hdata]
      have hpos : f.rxData + (f.attrib.hdrlen + f.attrib.ivLen - 6) + 12 =
          payloadAt f + llcHeaderSize := by
        rw [hpay]
        unfold llcHeaderSize
        omega
      rw [hpos, htype, hlen]
      rw [hlen] at hle
      constructor
      · rintro ⟨h14, -⟩
        omega
      · intro h8
        exact ⟨by omega, rfl⟩
    · cases hok
  · -- the type is the length
    have hrm : removedLen f = f.attrib.hdrlen + f.attrib.ivLen := by
      unfold removedLen
      rw [if_neg hsnap, Nat.add_zero]
    have hsz : ((removedLen f : Nat) : Int) - ethHlen + 0 =
        ((f.attrib.hdrlen + f.attrib.ivLen - 14 : Nat) : Int) := by
      rw [hrm]
      unfold ethHlen
      omega
    rw [Bool.not_eq_true] at hsnap
    simp only [hsnap, Bool.false_eq_true, if_false, hsz] at hok ⊢
    split at hok
    · rename_i hpull
      obtain ⟨hle, hpull'⟩ := pull_ok hw hpull
      rw [if_pos hpull, hpull']
      unfold RecvFrame.bytes putEthHdr
      dsimp only
      rw [if_neg Bool.false_ne_true, etherType_read, be16_write_htons, hrm, hlen]
      rw [hlen] at hle
      constructor
      · rintro ⟨h14, hval⟩
        refine ⟨by omega, ?_⟩
        rw [← hval]
        omega
      · rintro ⟨h0, hval⟩
        refine ⟨by omega, ?_⟩
        rw [← hval]
        omega
    · cases hok

theorem be16_write_above {m : Mem} {p q : Nat} {bs : List UInt8} (h : q + 1 < p) :
    (m.write p bs).be16 q = m.be16 q := by
  unfold Mem.be16
  rw [Mem.write_of_lt (by omega), Mem.write_of_lt h]

/-- Two bytes of a copy. -/
theorem be16_copy {m : Mem} (p : Nat) (src : Mem) (q : Nat) {n i : Nat} (h : i + 1 < n) :
    (m.copy p src q n).be16 (p + i) = src.be16 (q + i) := by
  have hbyte : ∀ j, j < n → (m.copy p src q n) (p + j) = src (q + j) := by
    intro j hj
    unfold Mem.copy
    rw [Mem.write_inside (by rw [Mem.length_read]; exact hj)]
    simp [Mem.read]
  unfold Mem.be16
  rw [Nat.add_assoc p i 1, Nat.add_assoc q i 1, hbyte i (by omega), hbyte (i + 1) h]

/-- The same in `WIFI_MP_STATE`. -/
theorem wlanhdrToEthhdr_mpEapol (hf : DataFrame f) (hok : (wlanhdrToEthhdr true f).2 = true) :
    Pkt.etherType (wlanhdrToEthhdr true f).1.bytes = eapolType ↔ MsduEapol true f := by
  obtain ⟨hw, hlen, -, hhead, hend⟩ := pulledForm_wf true hf.wf
  have hbuf : (pulledForm true f).buf =
      f.buf.write (f.rxData + removedLen f) [0x87, 0x12] := rfl
  have heq := wlanhdrToEthhdr_mpEq f
  rw [ethLen_eq hf.wf, pulledLen, if_pos rfl] at heq
  generalize pulledForm true f = h at hw hlen hhead hend hbuf heq
  have hhdr := hf.hdrlen
  have hrm : 24 ≤ removedLen f := by
    unfold removedLen
    omega
  have hfits := hf.wf.head_le
  rw [heq] at hok ⊢
  dsimp only at hok ⊢
  unfold MsduEapol
  rw [if_pos rfl]
  split at hok
  · rename_i hpull
    rw [if_pos hpull]
    have hcut : h.len < 2 ^ 31 := by
      have h1 := hw.len_eq
      have h2 := hw.tail_le
      have h3 := hw.head_le
      have h4 := hf.size
      omega
    -- the pull may go back, so its length is looked at as an integer
    have hlen' : ((h.pull ((removedLen f : Int) - ethHlen + 2 - 24)).1.len : Int) =
        (cutLen f : Int) - removedLen f + 36 ∧
        (h.pull ((removedLen f : Int) - ethHlen + 2 - 24)).1.buf = h.buf ∧
        (h.pull ((removedLen f : Int) - ethHlen + 2 - 24)).1.rxHead = h.rxHead := by
      unfold RecvFrame.pull at hpull ⊢
      split at hpull
      · cases hpull
      · rename_i hle
        have h1 := hw.len_eq
        have h2 := hw.data_le
        rw [if_neg hle]
        refine ⟨?_, rfl, rfl⟩
        unfold RecvFrame.addLen ethHlen at *
        dsimp only
        rw [Int.emod_eq_of_lt (by omega) (by omega)]
        omega
    generalize (h.pull ((removedLen f : Int) - ethHlen + 2 - 24)).1 = r at hlen' ⊢
    obtain ⟨hlen', hbuf', hhead'⟩ := hlen'
    have htype : (putEthHdr { r with buf := r.buf.copy r.rxData r.buf r.rxHead 24 }
        (snapRemoved f.buf (payloadAt f)) (((cutLen f : Int) - removedLen f) % 2 ^ 16).toNat
        (r.rxData + 24)).buf.be16 (r.rxData + 12) = f.buf.be16 (f.rxHead + 12) := by
      have hhdrs : ∀ m : Mem, ((m.write (r.rxData + 24) r.attrib.dst.bytes).write
          (r.rxData + 24 + 6) r.attrib.src.bytes).be16 (r.rxData + 12) =
          m.be16 (r.rxData + 12) := fun m => by
        rw [be16_write_above (by omega), be16_write_above (by omega)]
      unfold putEthHdr
      dsimp only
      have hcopy : (r.buf.copy r.rxData r.buf r.rxHead 24).be16 (r.rxData + 12) =
          f.buf.be16 (f.rxHead + 12) := by
        rw [be16_copy r.rxData r.buf r.rxHead (by omega), hbuf', hhead', hhead, hbuf,
          be16_write_above (by omega)]
      split
      · rw [hhdrs, hcopy]
      · rw [be16_write_above (by omega), hhdrs, hcopy]
    unfold RecvFrame.bytes
    rw [etherType_read]
    show 14 ≤ r.len ∧ Mem.be16 _ (r.rxData + 12) = _ ↔ _
    rw [htype]
    unfold removedLen at hlen' hrm
    have hlong : 14 ≤ r.len ↔ f.attrib.hdrlen + f.attrib.ivLen +
        (if snapRemoved f.buf (payloadAt f) = true then snapSize else 0) ≤ cutLen f + 22 := by
      omega
    rw [hlong]
  · cases hok

/-- **When an MSDU goes up as EAPOL**, given what `portctrl` has seen. -/
theorem ethhdr_eapol {mp : Bool} (hf : DataFrame f)
    (htype : f.buf.be16 (payloadAt f + llcHeaderSize) = eapolType)
    (hok : (wlanhdrToEthhdr mp f).2 = true) :
    Pkt.etherType (wlanhdrToEthhdr mp f).1.bytes = eapolType ↔ MsduEapol mp f := by
  cases mp with
  | true => exact wlanhdrToEthhdr_mpEapol hf hok
  | false => exact wlanhdrToEthhdr_eapol hf htype hok

end Msdu

/-! ## What is handed to the OS -/

/-- The packets `rtw_os_recv_indicate_pkt` was given between `a` and `a'`, whether it passed
them to the network stack or sent them on to another station. -/
def handed (a a' : Adapter) : List Pkt :=
  a'.indicated.drop a.indicated.length ++ a'.forwarded.drop a.forwarded.length

/-- These are the packets of `ps`. -/
def Hands (a a' : Adapter) (ps : List Pkt) : Prop :=
  ∃ up fwd, a'.indicated = a.indicated ++ up ∧ a'.forwarded = a.forwarded ++ fwd ∧
    ∀ p, p ∈ up ∨ p ∈ fwd ↔ p ∈ ps

/-- The packets of a frame that leaves the reorder buffer, or passes it by. -/
def framePackets (os : Os) (up : Bool) (g : RecvFrame) : List Pkt :=
  if g.attrib.amsdu then amsduSubframes (os.msduPkt g.id) g
  else if up ∧ g.pkt then [g.bytes]
  else []

section Hands

variable {os : Os} {a b c : Adapter} {ps qs : List Pkt}

theorem Hands.mem_handed (h : Hands a b ps) (p : Pkt) : p ∈ handed a b ↔ p ∈ ps := by
  obtain ⟨up, fwd, hup, hfwd, hmem⟩ := h
  unfold handed
  rw [hup, hfwd, List.drop_left, List.drop_left, List.mem_append]
  exact hmem p

theorem Hands.nil (hup : b.indicated = a.indicated) (hfwd : b.forwarded = a.forwarded) :
    Hands a b [] := by
  refine ⟨[], [], by rw [hup, List.append_nil], by rw [hfwd, List.append_nil], fun p => ?_⟩
  exact or_self_iff

theorem Hands.trans (h : Hands a b ps) (h' : Hands b c qs) : Hands a c (ps ++ qs) := by
  obtain ⟨up, fwd, hup, hfwd, hmem⟩ := h
  obtain ⟨up', fwd', hup', hfwd', hmem'⟩ := h'
  refine ⟨up ++ up', fwd ++ fwd', by rw [hup', hup, List.append_assoc],
    by rw [hfwd', hfwd, List.append_assoc], fun p => ?_⟩
  rw [List.mem_append, List.mem_append, List.mem_append, ← hmem p, ← hmem' p]
  tauto

theorem Hands.free (h : Hands a b ps) (f : RecvFrame) : Hands a (rtwFreeRecvframe b f) ps := by
  have hfree : Hands b (rtwFreeRecvframe b f) [] := Hands.nil rfl rfl
  have := h.trans hfree
  rwa [List.append_nil] at this

/-- A packet goes one way or the other. -/
theorem hands_osIndicate (a : Adapter) (dst : MacAddr) (ok : Bool) (p : Pkt) :
    Hands a (rtwOsRecvIndicatePkt a dst ok p) [p] := by
  refine ⟨if goesUp a dst ok then [p] else [], if relays a dst then [p] else [], ?_, ?_,
    fun q => ?_⟩
  · unfold rtwOsRecvIndicatePkt
    dsimp only
    split
    · rfl
    · rw [List.append_nil]
  · unfold rtwOsRecvIndicatePkt
    dsimp only
    split
    · rfl
    · rw [List.append_nil]
  · unfold goesUp
    cases relays a dst <;> simp

theorem hands_recvIndicatepkt (a : Adapter) (f : RecvFrame) :
    Hands a (rtwRecvIndicatepkt os a f) (if f.pkt then [f.bytes] else []) := by
  unfold rtwRecvIndicatepkt
  dsimp only
  split
  · exact (hands_osIndicate a _ _ _).free f
  · exact (Hands.nil rfl rfl).free f

theorem hands_indicateSubframes {f : RecvFrame} : ∀ (ps : List Pkt) (k : Nat) (a : Adapter),
    Hands a (indicateSubframes os f k ps a) ps := by
  intro ps
  induction ps with
  | nil => intro k a; exact Hands.nil rfl rfl
  | cons p ps ih =>
      intro k a
      rw [indicateSubframes]
      exact (hands_osIndicate a _ _ p).trans (ih (k + 1) _)

theorem hands_indicateFrame (a : Adapter) (g : RecvFrame) (up : Bool) :
    Hands a (indicateFrame os a g up) (framePackets os up g) := by
  unfold indicateFrame framePackets
  split
  · exact (hands_indicateSubframes _ 0 a).free g
  · cases up with
    | true =>
      rw [if_pos rfl]
      simpa using hands_recvIndicatepkt a g
    | false =>
      rw [if_neg Bool.false_ne_true, if_neg (by simp)]
      exact Hands.nil rfl rfl

theorem hands_indicateFrames {up : Bool} : ∀ (q : List RecvFrame) (a : Adapter),
    Hands a (q.foldl (fun b g => indicateFrame os b g up) a) (q.flatMap (framePackets os up)) := by
  intro q
  induction q with
  | nil => intro a; exact Hands.nil rfl rfl
  | cons g q ih =>
      intro a
      rw [List.foldl_cons, List.flatMap_cons]
      exact (hands_indicateFrame a g up).trans (ih _)

/-- Nothing goes up before port control. -/
theorem hands_posthandleFrame {aes : AesKey → BlockMode.Block → BlockMode.Block} {f : RecvFrame}
    {x : RecvFrame ⊕ RxRet} (h : posthandleFrame aes a f = .done (b, x)) : Hands a b [] := by
  obtain ⟨d, -, -, ⟨g, -, -, -, rfl⟩ | ⟨g, e, r, -, -, hchk, hrest⟩⟩ := posthandleFrame_cases h
  · exact Hands.nil rfl rfl
  · have hstart : Hands a { a with sec := d.sec, message := d.message } [] := Hands.nil rfl rfl
    have he : Hands a e [] := chkDefrag_keeps (P := fun e => Hands a e [])
      (fun g h => h.free g) (fun s q h => h.trans (Hands.nil rfl rfl)) hstart hchk
    rcases hrest with ⟨-, -, rfl⟩ | ⟨k, -, ⟨-, -, rfl⟩ | ⟨-, -, rfl⟩⟩
    · exact he
    · exact he.free k
    · exact he

end Hands

/-! ## The frame that is let through -/

section Through

variable {aes : AesKey → BlockMode.Block → BlockMode.Block} {a b : Adapter} {f k : RecvFrame}

/-- What reassembly keeps of the first fragment. -/
theorem defragLoop_keeps {P : RecvFrame → Prop}
    (hstep : ∀ {f g}, P f → P g → P (joinFragment f g).joined) :
    ∀ (q : List RecvFrame) {f out : RecvFrame} {cur : Nat}, P f → (∀ g ∈ q, P g) →
      (defragLoop f cur q).1 = some out → P out := by
  intro q
  induction q with
  | nil =>
      intro f out cur hf _ hout
      rw [← Option.some.inj hout]
      exact hf
  | cons g q ih =>
      intro f out cur hf hq hout
      unfold defragLoop at hout
      split at hout
      · cases hout
      · exact ih (hstep hf (hq g (List.mem_cons_self ..)))
          (fun x hx => hq x (List.mem_cons_of_mem g hx)) hout

/-- The MIC is cut off, or not looked for. -/
theorem recvframeChkmic_frame {x : RecvFrame} {ok : Bool}
    (h : recvframeChkmic a f = .done (x, ok)) : x = f ∨ x = (f.pullTail 8).1 := by
  unfold recvframeChkmic at h
  split at h
  · exact Or.inl (Prod.mk.inj (Outcome.done.inj h)).1.symm
  · split at h
    · exact Or.inr (Prod.mk.inj (Outcome.done.inj h)).1.symm
    · split at h
      · exact Or.inl (Prod.mk.inj (Outcome.done.inj h)).1.symm
      · split at h
        · cases h
        · exact Or.inr (Prod.mk.inj (Outcome.done.inj h)).1.symm

/-- What `recvframe_chk_defrag` gives back has every property that the frame and the fragments
before it have, when reassembly and the cut of the MIC keep it. -/
theorem chkDefragIn_keeps {P : RecvFrame → Prop} {slot : Option StaSlot}
    (hjoin : ∀ {f g}, P f → P g → P (joinFragment f g).joined)
    (hmic : ∀ {f}, P f → P (f.pullTail 8).1) (hf : P f)
    (hq : ∀ s ∈ slot, ∀ g ∈ (a.sta s).defragQ, P g)
    (hd : chkDefragIn a slot f = .done (b, some k)) : P k := by
  -- a whole frame is kept as it is, a last fragment is joined to those before it
  have hframe : ∀ g, (chkDefragQueue (slot.map fun s => (a.sta s).defragQ) f).frame = some g →
      P g := by
    intro g hg
    by_cases hm : f.attrib.mfrag = true
    · rw [chkDefragQueue_more hm] at hg
      cases hg
    · rw [Bool.not_eq_true] at hm
      by_cases h0 : f.attrib.fragNum = 0
      · rw [chkDefragQueue_whole hm h0] at hg
        rw [← Option.some.inj hg]
        exact hf
      · obtain ⟨x, rest, hx, -, hloop⟩ := (chkDefragQueue_last hm h0).mp hg
        obtain ⟨s, hs, hx⟩ := Option.map_eq_some_iff.mp hx
        have hq := hq s hs
        rw [hx] at hq
        refine defragLoop_keeps hjoin _ (hq x (List.mem_cons_self ..)) ?_ hloop
        intro y hy
        rcases List.mem_append.mp hy with hy | hy
        · exact hq y (List.mem_cons_of_mem x hy)
        · rw [List.mem_singleton.mp hy]
          exact hf
  unfold chkDefragIn at hd
  dsimp only at hd
  split at hd
  · unfold chkDefragMic at hd
    cases hg : (chkDefragQueue (slot.map fun s => (a.sta s).defragQ) f).frame with
    | none =>
        rw [hg] at hd
        exact absurd (Prod.mk.inj (Outcome.done.inj hd)).2 (by simp)
    | some g =>
        have hPg := hframe g hg
        rw [hg] at hd
        dsimp only at hd
        split at hd
        · rw [← Option.some.inj (Prod.mk.inj (Outcome.done.inj hd)).2]
          exact hPg
        -- the MIC is cut off, or the frame is dropped
        · obtain ⟨⟨x, ok⟩, hchk, hd⟩ := Outcome.bind_eq_done.mp hd
          dsimp only at hd
          split at hd
          · rw [← Option.some.inj (Prod.mk.inj (Outcome.done.inj hd)).2]
            rcases recvframeChkmic_frame hchk with rfl | rfl
            · exact hPg
            · exact hmic hPg
          · exact absurd (Prod.mk.inj (Outcome.done.inj hd)).2 (by simp)
  · cases hd

/-- A data frame from `ta`. -/
def DataFrom (ta : MacAddr) (f : RecvFrame) : Prop := DataFrame f ∧ f.attrib.ta = ta

theorem dataFrom_join {ta : MacAddr} {f g : RecvFrame} (hf : DataFrom ta f) (hg : DataFrom ta g) :
    DataFrom ta (joinFragment f g).joined := by
  have hptr := (joinFragment_pointers hf.1.wf hg.1.wf).joined
  have hput : ∀ (x : RecvFrame) (n : Int), (x.put n).1.rxHead = x.rxHead ∧
      (x.put n).1.rxEnd = x.rxEnd := by
    intro x n
    unfold RecvFrame.put
    split
    · exact ⟨rfl, rfl⟩
    · exact ⟨rfl, rfl⟩
  have htrim := trim_eq hf.1.wf f.attrib.icvLen
  have hattrib : (joinFragment f g).joined.attrib =
      { f.attrib with icvLen := g.attrib.icvLen } := by
    unfold joinFragment
    dsimp only
    rw [RecvFrame.put_attrib, htrim]
  have hends : (joinFragment f g).joined.rxHead = f.rxHead ∧
      (joinFragment f g).joined.rxEnd = f.rxEnd := by
    unfold joinFragment
    dsimp only
    rw [(hput _ _).1, (hput _ _).2, htrim]
    exact ⟨rfl, rfl⟩
  refine ⟨⟨hptr, ?_, ?_⟩, ?_⟩
  · rw [hattrib]
    exact hf.1.hdrlen
  · rw [hends.1, hends.2]
    exact hf.1.size
  · rw [hattrib]
    exact hf.2

theorem dataFrom_cutMic {ta : MacAddr} {f : RecvFrame} (hf : DataFrom ta f) :
    DataFrom ta (f.pullTail 8).1 := by
  have hw : (f.pullTail 8).1.WF := RecvFrame.wf_pullTail (n := 8) hf.1.wf
  have htrim : (f.pullTail 8).1 = { f with
      rxTail := f.rxData + lenAfterCut f.len 8, len := lenAfterCut f.len 8 } := trim_eq hf.1.wf 8
  rw [htrim] at hw ⊢
  exact ⟨⟨hw, hf.1.hdrlen, hf.1.size⟩, hf.2⟩

/-- **What a closed port lets through**: a data frame of that station with the two bytes. -/
theorem posthandleFrame_blocked (hf : DataFrame f) (hblocked : portBlocked a f = true)
    (hq : ∀ s, rtwGetStainfo a f.attrib.ta = some s →
      ∀ g ∈ (a.sta s).defragQ, DataFrom f.attrib.ta g)
    (h : posthandleFrame aes a f = .done (b, .inl k)) :
    DataFrame k ∧ k.buf.be16 (payloadAt k + llcHeaderSize) = eapolType := by
  have hcfg := sameConfig_posthandleFrame h
  obtain ⟨s, hs⟩ : ∃ s, rtwGetStainfo a f.attrib.ta = some s := by
    unfold portBlocked at hblocked
    split at hblocked
    · exact ⟨_, by assumption⟩
    · cases hblocked
  obtain ⟨d, -, -, ⟨g, -, -, hx, -⟩ | ⟨g, e, r, -, hre, hchk, hrest⟩⟩ := posthandleFrame_cases h
  · cases hx
  · rcases hrest with ⟨-, hx, -⟩ | ⟨x, hr, ⟨-, hx, -⟩ | ⟨hport, hx, rfl⟩⟩
    · cases hx
    · cases hx
    · cases hx
      -- decryption leaves the pointers, the header and the transmitter alone
      have hg : DataFrom f.attrib.ta g := by
        unfold Reopened at hre
        rw [hre]
        exact ⟨⟨⟨hf.wf.head_le, hf.wf.data_le, hf.wf.tail_le, hf.wf.len_eq, hf.wf.small⟩,
          hf.hdrlen, hf.size⟩, rfl⟩
      have hslot : chkDefragIn { a with sec := d.sec, message := d.message } (some s) g =
          .done (b, some k) := by
        unfold recvframeChkDefrag at hchk
        rw [hg.2, show rtwGetStainfo { a with sec := d.sec, message := d.message } f.attrib.ta =
          some s from hs, hr] at hchk
        exact hchk
      have hk : DataFrom f.attrib.ta k := chkDefragIn_keeps (P := DataFrom f.attrib.ta)
        (a := { a with sec := d.sec, message := d.message })
        dataFrom_join dataFrom_cutMic hg (by rintro s' ⟨⟩; exact hq s hs) hslot
      refine ⟨hk.1, ?_⟩
      have hclosed : portBlocked b k = true := by
        have hsame : portBlocked a k = portBlocked a f := by
          unfold portBlocked
          rw [hk.2]
        rw [hcfg.portBlocked, hsame, hblocked]
      by_contra hno
      unfold portctrl at hport
      rw [hclosed, if_pos (by simpa using hno)] at hport
      exact absurd (Prod.mk.inj hport).2 (by simp)

end Through

/-! ## Indication -/

section Indicate

variable {os : Os} {a a' b : Adapter} {f k : RecvFrame} {ret : RxRet}

theorem wlanhdrToEthhdr_pkt (mp : Bool) (f : RecvFrame) :
    (wlanhdrToEthhdr mp f).1.pkt = f.pkt := by
  have hpull : ∀ (g : RecvFrame) (n : Int), (g.pull n).1.pkt = g.pkt := by
    intro g n
    unfold RecvFrame.pull
    split
    · rfl
    · rfl
  have htail : ∀ (g : RecvFrame) (n : Int), (g.pullTail n).1.pkt = g.pkt := by
    intro g n
    unfold RecvFrame.pullTail
    split
    · rfl
    · rfl
  unfold wlanhdrToEthhdr
  dsimp only
  split_ifs <;> simp [hpull, htail]

/-! ### What the reorder buffer releases -/

/-- How many frames with these numbers are due, one after the other, when the window stands at
`ind`. -/
def dueCount : Nat → List Nat → Nat
  | _, [] => 0
  | ind, s :: q =>
    if snLess ind s then 0 else dueCount (if s = ind then (ind + 1) % 4096 else ind) q + 1

/-- The waiting frames whose numbers are before `seq`. -/
def framesBefore (c : RecvReorderCtrl) (seq : Nat) : List RecvFrame :=
  c.pendingRecvframeQueue.takeWhile fun g => snLess g.attrib.seqNum seq

/-- The waiting frames from there on. -/
def framesBehind (c : RecvReorderCtrl) (seq : Nat) : List RecvFrame :=
  c.pendingRecvframeQueue.dropWhile fun g => snLess g.attrib.seqNum seq

/-- With a frame of the number `seq` in its place: how many are due. -/
def dueWith (c : RecvReorderCtrl) (seq : Nat) : Nat :=
  dueCount (checkIndicateSeq c seq).1.indicateSeq
    (seqs (framesBefore c seq) ++ seq :: seqs (framesBehind c seq))

/-- The frame is reordered. -/
def reordered (c : RecvReorderCtrl) (k : RecvFrame) : Bool :=
  (k.attrib.amsdu || k.attrib.qos) && c.enable

theorem indicateLoop_take : ∀ (q : List RecvFrame) (ind : Nat),
    (indicateLoop ind q).1 = q.take (dueCount ind (seqs q))
  | [], _ => rfl
  | g :: q, ind => by
      have hseqs : seqs (g :: q) = g.attrib.seqNum :: seqs q := rfl
      rw [indicateLoop, hseqs, dueCount]
      cases hl : snLess ind g.attrib.seqNum with
      | true => rfl
      | false =>
          have hnext : (if snEqual ind g.attrib.seqNum then (ind + 1) &&& 0xFFF else ind) =
              if g.attrib.seqNum = ind then (ind + 1) % 4096 else ind := by
            unfold snEqual
            rw [and_fff]
            by_cases he : g.attrib.seqNum = ind
            · rw [if_pos he, if_pos (by simp [he])]
            · rw [if_neg he, if_neg (by simpa using fun h => he h.symm)]
          rw [if_pos (by simp), if_neg Bool.false_ne_true, List.take_succ_cons]
          dsimp only
          rw [hnext, indicateLoop_take q]

theorem enqueue_place {f : RecvFrame} : ∀ {q q' : List RecvFrame},
    enqueueReorderRecvframe f q = some q' →
      q' = (q.takeWhile fun g => snLess g.attrib.seqNum f.attrib.seqNum) ++
        f :: q.dropWhile fun g => snLess g.attrib.seqNum f.attrib.seqNum
  | [], q', h => by rw [← Option.some.inj h]; rfl
  | g :: q, q', h => by
      rw [enqueueReorderRecvframe] at h
      rw [List.takeWhile_cons, List.dropWhile_cons]
      split at h
      · rename_i hl
        obtain ⟨q1, hq1, rfl⟩ := Option.map_eq_some_iff.mp h
        rw [if_pos hl, if_pos hl, enqueue_place hq1]
        rfl
      · rename_i hl
        rw [if_neg hl, if_neg hl]
        split at h
        · cases h
        · rw [← Option.some.inj h]
          rfl

/-- **What comes out of the reorder buffer**: as many frames as are due, the frame in its
place among those that waited. -/
theorem reorderInsert_indicated (c : RecvReorderCtrl) (f : RecvFrame) :
    (reorderInsert c f).indicated =
      if WindowTakes c f.attrib.seqNum then
        (framesBefore c f.attrib.seqNum ++ f :: framesBehind c f.attrib.seqNum).take
          (dueWith c f.attrib.seqNum)
      else [] := by
  have hret := @reorderInsert_ret c f
  rcases reorderInsert_cases c f with ⟨-, hr⟩ | ⟨-, -, hr⟩ | ⟨q, b, -, hq, hr⟩
  · rw [hr] at hret ⊢
    rw [if_neg (fun h => by cases hret.mpr h)]
  · rw [hr] at hret ⊢
    rw [if_neg (fun h => by cases hret.mpr h)]
  · rw [hr] at hret ⊢
    rw [if_pos (hret.mp rfl)]
    dsimp only
    rw [indicateLoop_take, enqueue_place hq]
    unfold dueWith seqs
    rw [List.map_append, List.map_cons]
    rfl

/-- The same for the whole function: the frame has its Ethernet header when it comes out. -/
theorem reorder_indicated (running mp : Bool) (c : RecvReorderCtrl) (k : RecvFrame) :
    (recvIndicatepktReorder running mp c k).indicated =
      if k.attrib.amsdu = false → HasRoom mp k then
        if reordered c k = true then
          if WindowTakes c k.attrib.seqNum then
            (framesBefore c k.attrib.seqNum ++
              queuedForm mp k :: framesBehind c k.attrib.seqNum).take (dueWith c k.attrib.seqNum)
          else []
        else if (k.attrib.amsdu || k.attrib.qos || running) = true then [queuedForm mp k]
        else []
      else [] := by
  have hqos := wlanhdrToEthhdr_qos mp k
  have hseq := queuedForm_seqNum mp k
  have hins := reorderInsert_indicated c (queuedForm mp k)
  rw [hseq] at hins
  unfold recvIndicatepktReorder reordered
  unfold queuedForm at hins ⊢
  cases hamsdu : k.attrib.amsdu with
  | true =>
      -- an A-MSDU has no Ethernet header yet, so that there is nothing to make room for
      rw [if_neg (by simp), if_pos (fun h => by cases h)]
      rw [hamsdu, if_pos rfl] at hins
      cases he : c.enable with
      | false => simp
      | true =>
          rw [if_neg (by simp), if_pos (by simp), hins, if_pos rfl]
  | false =>
      rw [if_pos (by simp)]
      rw [hamsdu, if_neg (by simp)] at hins
      -- any other frame gets its header first, and is dropped where that does not fit
      have hroom := @wlanhdrToEthhdr_room mp k
      rcases hw : wlanhdrToEthhdr mp k with ⟨g, ok⟩
      rw [hw] at hroom hqos hins
      dsimp only at hroom hqos hins ⊢
      rw [hqos]
      cases ok with
      | false =>
          rw [if_pos (by simp), if_neg (fun h => by cases hroom.mpr (h rfl))]
      | true =>
          rw [if_neg (by simp), if_pos (fun _ => hroom.mp rfl)]
          cases k.attrib.qos with
          | false => cases running <;> simp
          | true =>
              cases he : c.enable with
              | false => simp
              | true =>
                  rw [if_neg (by simp), if_neg (by simp), if_pos (by simp), hins]
                  rfl

/-- Every packet of the frame is EAPOL: every subframe of an A-MSDU, or the MSDU. -/
def CarriesEapol (os : Os) (up mp : Bool) (k : RecvFrame) : Prop :=
  if k.attrib.amsdu then
    ∀ s ∈ amsduSpans (os.msduPkt k.id) k, subframeType k.buf (s.1 + ethHlen) s.2 = eapolType
  else up = true → k.pkt = true → MsduEapol mp k

/-- The same of a frame that waits: its MSDU has its Ethernet header already. -/
def QueuedEapol (os : Os) (up : Bool) (g : RecvFrame) : Prop :=
  if g.attrib.amsdu then
    ∀ s ∈ amsduSpans (os.msduPkt g.id) g, subframeType g.buf (s.1 + ethHlen) s.2 = eapolType
  else up = true → g.pkt = true → 14 ≤ g.len ∧ g.buf.be16 (g.rxData + 12) = eapolType

theorem framePackets_queued {up : Bool} (g : RecvFrame) :
    (∀ p ∈ framePackets os up g, p.etherType = eapolType) ↔ QueuedEapol os up g := by
  unfold framePackets QueuedEapol
  cases g.attrib.amsdu with
  | true => exact amsduSubframes_eapol _ g
  | false =>
      rw [if_neg Bool.false_ne_true, if_neg Bool.false_ne_true, ← etherType_read]
      split
      · rename_i h
        simp [h.1, h.2, RecvFrame.bytes]
      · rename_i h
        exact ⟨fun _ hup hpkt => absurd ⟨hup, hpkt⟩ h, fun _ p hp => absurd hp List.not_mem_nil⟩

theorem framePackets_eapol {up mp : Bool} (hk : DataFrame k)
    (htype : k.buf.be16 (payloadAt k + llcHeaderSize) = eapolType)
    (hroom : k.attrib.amsdu = false → HasRoom mp k) :
    (∀ p ∈ framePackets os up (queuedForm mp k), p.etherType = eapolType) ↔
      CarriesEapol os up mp k := by
  unfold framePackets CarriesEapol queuedForm
  cases hamsdu : k.attrib.amsdu with
  | true =>
    simp only [if_true, hamsdu]
    exact amsduSubframes_eapol _ k
  | false =>
    have hok := wlanhdrToEthhdr_room.mpr (hroom hamsdu)
    have hsame : (wlanhdrToEthhdr mp k).1.attrib.amsdu = false := by
      rw [(wlanhdrToEthhdr_same mp k).2]
      exact hamsdu
    simp only [Bool.false_eq_true, if_false, hsame, wlanhdrToEthhdr_pkt]
    rw [← ethhdr_eapol hk htype hok]
    split
    · rename_i h
      simp [h.1, h.2]
    · rename_i h
      refine ⟨fun _ hup hpkt => absurd ⟨hup, hpkt⟩ h, fun _ p hp => absurd hp List.not_mem_nil⟩

/-- The frames that leave the reorder buffer with `k` are EAPOL: `k`, if it is among those that
are due, and the waiting ones before and behind it that are. -/
def ReleasesEapol (os : Os) (up mp : Bool) (c : RecvReorderCtrl) (k : RecvFrame) : Prop :=
  let seq := k.attrib.seqNum
  let before := framesBefore c seq
  let due := dueWith c seq
  (before.length < due → CarriesEapol os up mp k) ∧
    ∀ g ∈ before.take due ++ (framesBehind c seq).take (due - before.length - 1),
      QueuedEapol os up g

/-- The condition on the frame that is let through, in the state it is indicated in. Not taken,
or not due, it may carry anything. -/
def IndicatesEapol (os : Os) (a : Adapter) (k : RecvFrame) : Prop :=
  if a.mlme.htOption = true then
    ∀ p ∈ k.preorderCtrl, let c := (a.sta p.1).recvreorderCtrl p.2
      (k.attrib.amsdu = false → HasRoom a.mlme.mpState k) →
        if reordered c k = true then
          WindowTakes c k.attrib.seqNum → ReleasesEapol os a.running a.mlme.mpState c k
        else (k.attrib.amsdu || k.attrib.qos || a.running) = true →
          CarriesEapol os true a.mlme.mpState k
  else
    HasRoom a.mlme.mpState k → a.running = true → k.pkt = true → MsduEapol a.mlme.mpState k

/-- Only the mode and the windows matter. -/
theorem IndicatesEapol.congr (hm : b.mlme = a.mlme) (hr : b.running = a.running)
    (hw : SameWindows a b) : IndicatesEapol os b k ↔ IndicatesEapol os a k := by
  unfold IndicatesEapol
  simp only [hm, hr, hw _ _]

/-- A prefix of a list with `x` in it. -/
theorem forall_take_middle {α : Type} {P : α → Prop} (l r : List α) (x : α) (n : Nat) :
    (∀ y ∈ (l ++ x :: r).take n, P y) ↔
      (l.length < n → P x) ∧ ∀ y ∈ l.take n ++ r.take (n - l.length - 1), P y := by
  have hsplit : (l ++ x :: r).take n = l.take n ++ (x :: r).take (n - l.length) := List.take_append
  rw [hsplit]
  by_cases hn : l.length < n
  · obtain ⟨d, hd⟩ : ∃ d, n - l.length = d + 1 := ⟨n - l.length - 1, by omega⟩
    rw [hd, List.take_succ_cons, Nat.add_sub_cancel]
    simp only [List.mem_append, List.mem_cons]
    constructor
    · intro h
      exact ⟨fun _ => h x (Or.inr (Or.inl rfl)), fun y hy => h y (hy.imp_right Or.inr)⟩
    · rintro ⟨hx, hrest⟩ y (hy | rfl | hy)
      · exact hrest y (Or.inl hy)
      · exact hx hn
      · exact hrest y (Or.inr hy)
  · have h0 : n - l.length = 0 := by omega
    rw [h0, List.take_zero, List.take_zero]
    exact ⟨fun h => ⟨fun h' => absurd h' hn, h⟩, fun h => h.2⟩

/-- **What indication hands to the OS is EAPOL** when the condition says so. -/
theorem indicates_eapol (hk : DataFrame k)
    (htype : k.buf.be16 (payloadAt k + llcHeaderSize) = eapolType)
    (h : processRecvIndicatepkts os a k = .done (b, ret)) :
    ∃ ps, Hands a b ps ∧ ((∀ p ∈ ps, p.etherType = eapolType) ↔ IndicatesEapol os a k) := by
  unfold processRecvIndicatepkts at h
  unfold IndicatesEapol
  dsimp only at h ⊢
  by_cases hht : a.mlme.htOption = true
  · rw [if_pos hht] at h ⊢
    split at h
    · cases h
    · rename_i s tid hctrl
      obtain ⟨rfl, -⟩ := Prod.mk.inj (Outcome.done.inj h)
      have hstart : Hands a (a.updReorder s tid (recvIndicatepktReorder a.running a.mlme.mpState
          ((a.sta s).recvreorderCtrl tid) k).ctrl) [] := Hands.nil rfl rfl
      refine ⟨_, hstart.trans (hands_indicateFrames _ _), ?_⟩
      have hone : ∀ {P : StaSlot × Tid → Prop}, (∀ p ∈ k.preorderCtrl, P p) ↔ P (s, tid) := by
        intro P
        rw [hctrl]
        exact ⟨fun h => h (s, tid) rfl, fun h p hp => by cases hp; exact h⟩
      rw [hone, List.nil_append, List.forall_mem_flatMap, reorder_indicated]
      dsimp only
      by_cases hroom : k.attrib.amsdu = false → HasRoom a.mlme.mpState k
      · rw [if_pos hroom, forall_prop_of_true hroom]
        have hown := @framePackets_eapol os k (a.running || !((a.sta s).recvreorderCtrl tid).enable)
          a.mlme.mpState hk htype hroom
        by_cases hre : reordered ((a.sta s).recvreorderCtrl tid) k = true
        · -- a frame that is reordered goes up while the driver runs
          have hup : (a.running || !((a.sta s).recvreorderCtrl tid).enable) = a.running := by
            unfold reordered at hre
            rw [Bool.and_eq_true] at hre
            rw [hre.2, Bool.not_true, Bool.or_false]
          rw [hup] at hown ⊢
          rw [if_pos hre, if_pos hre]
          by_cases hwin : WindowTakes ((a.sta s).recvreorderCtrl tid) k.attrib.seqNum
          · rw [if_pos hwin, forall_prop_of_true hwin, forall_take_middle, hown]
            unfold ReleasesEapol
            simp only [framePackets_queued]
          · rw [if_neg hwin]
            exact ⟨fun _ h => absurd h hwin, fun _ g hg => absurd hg List.not_mem_nil⟩
        · rw [if_neg hre, if_neg hre]
          by_cases hgo : (k.attrib.amsdu || k.attrib.qos || a.running) = true
          · rw [if_pos hgo, forall_prop_of_true hgo, List.forall_mem_singleton, hown]
            -- what is not reordered goes up unasked, or the driver runs
            have hup : (a.running || !((a.sta s).recvreorderCtrl tid).enable) = true := by
              unfold reordered at hre
              revert hre hgo
              cases k.attrib.amsdu <;> cases k.attrib.qos <;> cases a.running <;>
                cases ((a.sta s).recvreorderCtrl tid).enable <;> simp
            rw [hup]
          · rw [if_neg hgo]
            exact ⟨fun _ h => absurd h hgo, fun _ g hg => absurd hg List.not_mem_nil⟩
      · rw [if_neg hroom]
        exact ⟨fun _ h => absurd h hroom, fun _ g hg => absurd hg List.not_mem_nil⟩
  · rw [if_neg hht] at h ⊢
    rw [← wlanhdrToEthhdr_room]
    split at h
    · rename_i hno
      obtain ⟨rfl, -⟩ := Prod.mk.inj (Outcome.done.inj h)
      refine ⟨[], Hands.nil rfl rfl, fun _ hok => ?_, fun _ p hp => absurd hp List.not_mem_nil⟩
      rw [hok] at hno
      cases hno
    · rename_i hok
      replace hok : (wlanhdrToEthhdr a.mlme.mpState k).2 = true := by simpa using hok
      split at h
      · rename_i hrun
        obtain ⟨rfl, -⟩ := Prod.mk.inj (Outcome.done.inj h)
        refine ⟨_, hands_recvIndicatepkt a _, ?_⟩
        rw [wlanhdrToEthhdr_pkt, ← ethhdr_eapol hk htype hok]
        split
        · rename_i hpkt
          simp [hok, hrun, hpkt]
        · rename_i hpkt
          refine ⟨fun _ _ _ hp => absurd hp hpkt, fun _ p hp => absurd hp List.not_mem_nil⟩
      · rename_i hrun
        obtain ⟨rfl, -⟩ := Prod.mk.inj (Outcome.done.inj h)
        exact ⟨[], Hands.nil rfl rfl, fun _ _ hr => absurd hr hrun,
          fun _ p hp => absurd hp List.not_mem_nil⟩

end Indicate

/-- **When a closed port lets nothing but EAPOL through.** For every data frame of a station
whose port is closed, alone or the last of its fragments: every packet that
`recv_func_posthandle` hands to the OS is EAPOL exactly when the frame that is let through, if
there is one, carries nothing else to where it goes up, and the frames that waited for it do
not either. -/
theorem closed_port_eapol_only {os : Os} {aes : AesKey → BlockMode.Block → BlockMode.Block}
    {a a' : Adapter} {f : RecvFrame} {ret : RxRet} (hf : DataFrame f)
    (hq : ∀ s, rtwGetStainfo a f.attrib.ta = some s →
      ∀ g ∈ (a.sta s).defragQ, DataFrom f.attrib.ta g)
    (hblocked : portBlocked a f = true) (h : recvFuncPosthandle os aes a f = .done (a', ret)) :
    (∀ p ∈ handed a a', p.etherType = eapolType) ↔
      ∀ k gone, LetThrough aes a f k gone → IndicatesEapol os (a.without gone) k := by
  have hcongr : ∀ {b k gone}, posthandleFrame aes a f = .done (b, .inl k) →
      SameWindows (a.without gone) b →
      (IndicatesEapol os b k ↔ IndicatesEapol os (a.without gone) k) := by
    intro b k gone hpost hw
    have hcfg := sameConfig_posthandleFrame hpost
    obtain ⟨hm, hr⟩ := Adapter.without_mlme gone a
    exact IndicatesEapol.congr (hcfg.mlme.trans hm.symm) (hcfg.running.trans hr.symm) hw
  rcases recvFuncPosthandle_cases h with hpost | ⟨b, k, c, hpost, hproc, hend⟩
  · -- nothing was let through
    have hnone := hands_posthandleFrame hpost
    refine ⟨fun _ k gone hk => ?_, fun _ p hp => ?_⟩
    · obtain ⟨b, hk, -⟩ := hk.posthandle
      rw [hpost] at hk
      exact absurd (Prod.mk.inj (Outcome.done.inj hk)).2 (by simp)
    · exact absurd ((hnone.mem_handed p).mp hp) List.not_mem_nil
  · obtain ⟨hk, htype⟩ := posthandleFrame_blocked hf hblocked hq hpost
    obtain ⟨ps, hps, hiff⟩ := indicates_eapol hk htype hproc
    have hall : Hands a a' ps := by
      have hboth := (hands_posthandleFrame hpost).trans hps
      rcases hend with ⟨-, rfl⟩ | ⟨-, rfl⟩
      · exact hboth
      · exact hboth.free f
    have hcond : (∀ k' gone, LetThrough aes a f k' gone →
        IndicatesEapol os (a.without gone) k') ↔ IndicatesEapol os b k := by
      refine ⟨fun hb => ?_, fun hb k' gone hk' => ?_⟩
      · obtain ⟨gone, hlet, hw⟩ := letThrough_of_posthandle hpost
        exact (hcongr hpost hw).mpr (hb k gone hlet)
      · obtain ⟨b', hpost', hw⟩ := hk'.posthandle
        have hsame := hpost'
        rw [hpost] at hsame
        obtain ⟨rfl, hkk⟩ := Prod.mk.inj (Outcome.done.inj hsame)
        cases hkk
        exact (hcongr hpost' hw).mp hb
    rw [hcond, ← hiff]
    exact ⟨fun hh p hp => hh p ((hall.mem_handed p).mpr hp),
      fun hh p hp => hh p ((hall.mem_handed p).mp hp)⟩

/-- An access point with 802.1X and one station, whose port is closed. -/
def closedPortAp : Adapter :=
  { mlme := { apState := true, htOption := true }
    sec := { dot11AuthAlgrthm := .ieee8021x }
    staHash := [1]
    sta := fun s => if s = 1 then { hwaddr := ⟨2, 0, 0, 0, 0, 1⟩, ieee8021xBlocked := true } else {} }

/-- A QoS data frame from that station to the access point; `qc` is the QoS control field. -/
def stationFrame (qc : UInt8) (body : List UInt8) : RecvFrame :=
  let bytes := [0x88, 0x01, 0, 0] ++ List.replicate 6 0 ++ [2, 0, 0, 0, 0, 1] ++
    List.replicate 6 0 ++ [0x10, 0, qc, 0] ++ body
  { id := 0, len := bytes.length, rxTail := bytes.length, rxEnd := 2048
    buf := fun k => bytes.getD k 0 }

/-- EAPOL behind a SNAP header. -/
def eapolFrame : RecvFrame := stationFrame 0 [0xaa, 0xaa, 3, 0, 0, 0, 0x88, 0x8e, 1, 1]

/-- An A-MSDU with one subframe, whose source address starts with the EAPOL type and whose
payload is IP. -/
def ipInAmsdu : RecvFrame :=
  stationFrame 0x80 ([0, 0, 0, 0, 0, 0, 0x88, 0x8e, 0, 0, 0, 1, 0, 10] ++
    [0xaa, 0xaa, 3, 0, 0, 0, 8, 0, 0x45, 0])

/-- The frame is validated and goes through `recv_func_posthandle`. -/
def handleStationFrame (raw : RecvFrame) : Outcome ((RxRet × Adapter × RecvFrame) × Adapter × RxRet) :=
  (validateRecvFrame closedPortAp raw) >>= fun r =>
    (recvFuncPosthandle {} (fun _ x => x) r.2.1 r.2.2) >>= fun x => .done (r, x)

/-- What is looked at of the result: the frame, its station, and the types of the packets. -/
def handledView (x : (RxRet × Adapter × RecvFrame) × Adapter × RxRet) :
    RxRet × Bool × List Nat × List Nat × List Nat :=
  (x.1.1, portBlocked x.1.2.1 x.1.2.2,
    [x.1.2.2.rxHead, x.1.2.2.rxData, x.1.2.2.rxTail, x.1.2.2.rxEnd, x.1.2.2.len,
      x.1.2.2.attrib.hdrlen],
    (List.finRange numSta).map fun s => (x.1.2.1.sta s).defragQ.length,
    (handed x.1.2.1 x.2.1).map Pkt.etherType)

/-- The hypotheses of the theorem, read off the view. -/
theorem handleStationFrame_spec (raw : RecvFrame) (n : Nat) (types : List Nat) (hn : n < 2048)
    (h : (handleStationFrame raw).view handledView = some (.success, true,
      [0, 0, n, 2048, n, 26], List.replicate numSta 0, types)) :
    ∃ a f a' ret, validateRecvFrame closedPortAp raw = .done (.success, a, f) ∧ DataFrame f ∧
      (∀ s, (a.sta s).defragQ = []) ∧ portBlocked a f = true ∧
      recvFuncPosthandle {} (fun _ x => x) a f = .done (a', ret) ∧
      (handed a a').map Pkt.etherType = types := by
  obtain ⟨⟨⟨ret, a, f⟩, a', ret'⟩, hx, hview⟩ := Outcome.of_view h
  obtain ⟨r, hval, hx⟩ := Outcome.bind_eq_done.mp hx
  obtain ⟨x, hpost, hx⟩ := Outcome.bind_eq_done.mp hx
  cases hx
  unfold handledView at hview
  simp only [Prod.mk.injEq, List.cons.injEq] at hview
  obtain ⟨rfl, hblocked, ⟨h1, h2, h3, h4, h5, h6, -⟩, hqueues, htypes⟩ := hview
  refine ⟨a, f, a', ret', hval, ⟨⟨?_, ?_, ?_, ?_, ?_⟩, ?_, ?_⟩, fun s => ?_, hblocked, hpost, htypes⟩
  · omega
  · omega
  · omega
  · omega
  · omega
  · omega
  · omega
  · have hmem : (a.sta s).defragQ.length ∈ (List.finRange numSta).map fun s =>
        (a.sta s).defragQ.length := List.mem_map.mpr ⟨s, List.mem_finRange s, rfl⟩
    rw [hqueues] at hmem
    exact List.length_eq_zero_iff.mp (List.eq_of_mem_replicate hmem)

/-- EAPOL goes up through the closed port, and the condition holds of it. -/
theorem closed_port_eapol_only_sample : ∃ a f a' ret,
    validateRecvFrame closedPortAp eapolFrame = .done (.success, a, f) ∧
      recvFuncPosthandle {} (fun _ x => x) a f = .done (a', ret) ∧
      (handed a a').map Pkt.etherType = [eapolType] ∧
      ∀ k gone, LetThrough (fun _ x => x) a f k gone → IndicatesEapol {} (a.without gone) k := by
  obtain ⟨a, f, a', ret, hval, hf, hq, hblocked, hpost, htypes⟩ := handleStationFrame_spec
    eapolFrame 36 [eapolType] (by decide) (by decide)
  refine ⟨a, f, a', ret, hval, hpost, htypes, ?_⟩
  refine (closed_port_eapol_only hf (fun s _ g hg => ?_) hblocked hpost).mp fun p hp => ?_
  · rw [hq s] at hg
    cases hg
  · have hmem := List.mem_map_of_mem (f := Pkt.etherType) hp
    rw [htypes] at hmem
    exact List.mem_singleton.mp hmem

/-- IP goes up through the closed port as well. -/
theorem amsdu_passes_closed_port : ∃ a f a' ret,
    validateRecvFrame closedPortAp ipInAmsdu = .done (.success, a, f) ∧ DataFrame f ∧
      (∀ s, (a.sta s).defragQ = []) ∧ portBlocked a f = true ∧
      recvFuncPosthandle {} (fun _ x => x) a f = .done (a', ret) ∧
      (handed a a').map Pkt.etherType = [0x0800] ∧
      ¬ ∀ p ∈ handed a a', p.etherType = eapolType := by
  obtain ⟨a, f, a', ret, hval, hf, hq, hblocked, hpost, htypes⟩ := handleStationFrame_spec
    ipInAmsdu 50 [0x0800] (by decide) (by decide)
  refine ⟨a, f, a', ret, hval, hf, hq, hblocked, hpost, htypes, fun hall => ?_⟩
  have hmem : (0x0800 : Nat) ∈ (handed a a').map Pkt.etherType := by
    rw [htypes]
    exact List.mem_singleton_self _
  obtain ⟨p, hp, hval⟩ := List.mem_map.mp hmem
  rw [hall p hp] at hval
  exact absurd hval (by decide)

end Rtl8812au

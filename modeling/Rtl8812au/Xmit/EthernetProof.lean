import Rtl8812au.Xmit.UpdateAttrib
import Rtl8812au.Xmit.CoalesceProof
import Rtl8812au.Recv.PortProof

/-!
# From Ethernet to 802.11 and back

An Ethernet frame that fits one MPDU goes out with its addresses spread over the three of
the MAC header, by the role of the sender, and its type behind one of two SNAP headers. The
receiver takes the addresses from where the direction bits say they are, and
`wlanhdr_to_ethhdr` removes the SNAP header that was put there, whichever it was.

The transmitter address of a station is its own, so a station hands on a frame of somebody
else under its own name; an access point has the third address for the source.
-/

namespace Rtl8812au

/-! ## The three addresses of a data header -/

theorem ofMem_of_read {m : Mem} {p : Nat} {addr : MacAddr} (h : m.read p 6 = addr.bytes) :
    MacAddr.ofMem m p = addr := by
  have h6 : m.read p 6 = (MacAddr.ofMem m p).bytes := rfl
  rw [h6] at h
  obtain ⟨b0, b1, b2, b3, b4, b5⟩ := addr
  simp only [MacAddr.ofMem, MacAddr.bytes, List.cons.injEq, and_true] at h
  obtain ⟨h0, h1, h2, h3, h4, h5⟩ := h
  unfold MacAddr.ofMem
  rw [h0, h1, h2, h3, h4, h5]

/-- A data header at `p` with the frame-control field `fc` and three addresses, and with no
A-MSDU bit where it has a QoS control field. -/
structure WlanHdr (m : Mem) (p hdrlen fc : Nat) (a1 a2 a3 : MacAddr) : Prop where
  fctrl : m.le16 p = fc
  addrs : m.read (p + 4) 18 = a1.bytes ++ (a2.bytes ++ a3.bytes)
  amsdu : hdrlen = 26 → Wifi.getAMsdu m (p + 24) = false

namespace WlanHdr

variable {m m' : Mem} {p q hdrlen fc : Nat} {a1 a2 a3 : MacAddr}

theorem addr1 (h : WlanHdr m p hdrlen fc a1 a2 a3) : Wifi.getAddr1 m p = a1 := by
  have hr : m.read (p + 4) 18 = [] ++ (a1.bytes ++ (a2.bytes ++ a3.bytes)) := h.addrs
  exact ofMem_of_read (Mem.read_middle hr)

theorem addr2 (h : WlanHdr m p hdrlen fc a1 a2 a3) : Wifi.getAddr2 m p = a2 :=
  ofMem_of_read (Mem.read_middle h.addrs)

theorem addr3 (h : WlanHdr m p hdrlen fc a1 a2 a3) : Wifi.getAddr3 m p = a3 := by
  have hr : m.read (p + 4) 18 = (a1.bytes ++ a2.bytes) ++ (a3.bytes ++ []) := by
    rw [h.addrs, List.append_nil, List.append_assoc]
  exact ofMem_of_read (Mem.read_middle hr)

/-- A header is where its bytes are. -/
theorem congr (h : WlanHdr m p hdrlen fc a1 a2 a3) (hlen : 24 ≤ hdrlen)
    (heq : ∀ i < hdrlen, m' (q + i) = m (p + i)) : WlanHdr m' q hdrlen fc a1 a2 a3 := by
  refine ⟨?_, ?_, fun h26 => ?_⟩
  · rw [← h.fctrl]
    unfold Mem.le16
    have h0 := heq 0 (by omega)
    rw [Nat.add_zero, Nat.add_zero] at h0
    rw [h0, heq 1 (by omega)]
  · rw [← h.addrs]
    refine List.map_congr_left fun i hi => ?_
    have hi' := List.mem_range.mp hi
    rw [Nat.add_assoc, Nat.add_assoc, heq (4 + i) (by omega)]
  · rw [← h.amsdu h26]
    unfold Wifi.getAMsdu Mem.le16
    rw [heq 24 (by omega), Nat.add_assoc, Nat.add_assoc, heq (24 + 1) (by omega)]

/-- The sequence number is behind the addresses and in front of the QoS control field. -/
theorem writeSeq (h : WlanHdr m p hdrlen fc a1 a2 a3) (v : Nat) :
    WlanHdr (m.write (p + 22) (le16Bytes v)) p hdrlen fc a1 a2 a3 := by
  refine ⟨?_, ?_, fun h26 => ?_⟩
  · rw [le16_write_disjoint (Or.inl (by omega)), h.fctrl]
  · rw [Mem.read_write_disjoint (Or.inl (by omega)), h.addrs]
  · unfold Wifi.getAMsdu
    rw [le16_write_disjoint (Or.inr (by rw [length_le16Bytes]))]
    exact h.amsdu h26

/-- The QoS control field is where the header ends, and bit 7 stays clear. -/
theorem orQos (h : WlanHdr m p hdrlen fc a1 a2 a3) (hlen : 24 ≤ hdrlen)
    (hz : m.le16 (p + 24) = 0) {v : Nat} (hv : v < 2 ^ 7) :
    WlanHdr (orLe16 m (p + hdrlen - 2) v) p hdrlen fc a1 a2 a3 := by
  unfold orLe16
  refine ⟨?_, ?_, fun h26 => ?_⟩
  · rw [le16_write_disjoint (Or.inl (by omega)), h.fctrl]
  · rw [Mem.read_write_disjoint (Or.inl (by omega)), h.addrs]
  · have h24 : p + hdrlen - 2 = p + 24 := by omega
    unfold Wifi.getAMsdu
    rw [h24, hz, Nat.zero_or, le16_write _ _ (by omega)]
    exact Nat.testBit_lt_two_pow hv

end WlanHdr

/-! ## The header as it is made -/

/-- The header before the QoS control field and the sequence number. -/
def bareHdr (m : Mem) (hdr fc : Nat) (a1 a2 a3 : MacAddr) : Mem :=
  ((m.write hdr (List.replicate 64 0)).write hdr (le16Bytes fc)).write (hdr + 4)
    (a1.bytes ++ a2.bytes ++ a3.bytes)

section

variable (m : Mem) (hdr fc : Nat) (a1 a2 a3 : MacAddr)

theorem le16_bareHdr_qos : (bareHdr m hdr fc a1 a2 a3).le16 (hdr + 24) = 0 := by
  have hl : (a1.bytes ++ a2.bytes ++ a3.bytes).length = 18 := rfl
  have hz : ∀ i < 64, (m.write hdr (List.replicate 64 0)) (hdr + i) = 0 := by
    intro i hi
    rw [Mem.write_inside (by rw [List.length_replicate]; exact hi)]
    exact List.getElem_replicate _
  unfold bareHdr
  rw [le16_write_disjoint (Or.inr (by rw [hl]; omega)),
    le16_write_disjoint (Or.inr (by rw [length_le16Bytes]; omega))]
  unfold Mem.le16
  rw [hz 24 (by omega), Nat.add_assoc, hz (24 + 1) (by omega)]
  rfl

theorem wlanHdr_bareHdr (hdrlen : Nat) (hfc : fc < 2 ^ 16) :
    WlanHdr (bareHdr m hdr fc a1 a2 a3) hdr hdrlen fc a1 a2 a3 := by
  refine ⟨?_, ?_, fun _ => ?_⟩
  · unfold bareHdr
    rw [le16_write_disjoint (Or.inl (by omega)), le16_write _ _ hfc]
  · unfold bareHdr
    rw [← List.append_assoc]
    exact Mem.read_write_self _ _ _
  · unfold Wifi.getAMsdu
    rw [le16_bareHdr_qos]
    rfl

end

/-- The bits of the QoS control field that `rtw_make_wlanhdr` sets. -/
def qosCtrl (a : PktAttrib) : Nat :=
  (a.priority &&& 0xf) ||| ((a.eosp &&& 1) <<< 4) ||| ((a.ackPolicy &&& 3) <<< 5)

theorem qosCtrl_lt (a : PktAttrib) : qosCtrl a < 2 ^ 7 := by
  have h1 : a.priority &&& 0xf < 2 ^ 7 := Nat.lt_of_le_of_lt Nat.and_le_right (by decide)
  have h2 : (a.eosp &&& 1) <<< 4 < 2 ^ 7 := by
    have := @Nat.and_le_right a.eosp 1
    rw [Nat.shiftLeft_eq]
    omega
  have h3 : (a.ackPolicy &&& 3) <<< 5 < 2 ^ 7 := by
    have := @Nat.and_le_right a.ackPolicy 3
    rw [Nat.shiftLeft_eq]
    omega
  exact Nat.or_lt_two_pow (Nat.or_lt_two_pow h1 h2) h3

section

variable {mlme : MlmePriv} {lookup : Option (Nat × StaInfo)} {m m' : Mem} {hdr : Nat}
  {a a' : PktAttrib}

/-- **A header that is made** has the frame-control bits and the addresses of its mode. -/
theorem wlanHdr_of_make (h : rtwMakeWlanhdr mlme lookup m hdr a = some (m', a')) :
    ∃ ds a1 a2 a3 q, wlanhdrForMode mlme a = some (ds, a1, a2, a3, q)
      ∧ WlanHdr m' hdr a.hdrlen (wlanhdrFctrl ds a) a1 a2 a3 := by
  unfold rtwMakeWlanhdr at h
  cases hmode : wlanhdrForMode mlme a with
  | none => rw [hmode] at h; cases h
  | some r =>
      obtain ⟨ds, a1, a2, a3, qosOption⟩ := r
      have hfc := wlanhdrFctrl_of a (wlanhdrForMode_ds hmode)
      have hbare := wlanHdr_bareHdr m hdr _ a1 a2 a3 a.hdrlen hfc.1
      have hzero := le16_bareHdr_qos m hdr (wlanhdrFctrl ds a) a1 a2 a3
      rw [hmode] at h
      refine ⟨ds, a1, a2, a3, qosOption, rfl, ?_⟩
      cases lookup with
      | none => cases h
      | some r =>
          dsimp only at h
          split_ifs at h
          all_goals obtain ⟨rfl, rfl⟩ := Prod.mk.inj (Option.some.inj h)
          · exact (hbare.orQos (hdrlen_ge a) hzero (qosCtrl_lt a)).writeSeq _
          · exact hbare.writeSeq _

/-- It is made when the station for the receiver is the one of the attributes and linked. -/
theorem rtwMakeWlanhdr_linked {id : Nat} {psta : StaInfo}
    {r : Nat × MacAddr × MacAddr × MacAddr × Bool}
    (hmode : wlanhdrForMode mlme a = some r) (hsta : a.psta = some id)
    (hlink : psta.linked = true) :
    ∃ m' seqnum, rtwMakeWlanhdr mlme (some (id, psta)) m hdr a
      = some (m', { a with seqnum := seqnum }) := by
  obtain ⟨ds, a1, a2, a3, q⟩ := r
  unfold rtwMakeWlanhdr
  rw [hmode]
  dsimp only
  rw [if_neg (by rw [not_not]; exact hsta), if_neg (by rw [hlink]; decide)]
  exact ⟨_, _, rfl⟩

end

/-! ## The header as it is laid out -/

section

variable {x : XmitFrame} {a : PktAttrib} {m : Mem} {data : List UInt8} {ds : Nat}
  {a1 a2 a3 : MacAddr}

/-- Setting and clearing the more-fragments bit leaves the bits below it. -/
theorem clear_set_mfrag {fc : Nat} (hfc : fc < 2 ^ 10) : (fc ||| 0x400) &&& 0xfbff = fc := by
  have hlow : fc &&& (2 ^ 10 - 1) = fc := by
    rw [Nat.and_two_pow_sub_one_eq_mod, Nat.mod_eq_of_lt hfc]
  have h1 : (0x400 : Nat) &&& 0xfbff = 0 := by decide
  have h2 : (2 ^ 10 - 1 : Nat) &&& 0xfbff = 2 ^ 10 - 1 := by decide
  calc (fc ||| 0x400) &&& 0xfbff = fc &&& 0xfbff := by
        rw [Nat.and_or_distrib_right, h1, Nat.or_zero]
    _ = fc &&& (2 ^ 10 - 1) &&& 0xfbff := by rw [hlow]
    _ = fc := by rw [Nat.and_assoc, h2, hlow]

theorem WlanHdr.laidOut {fc : Nat} (h : WlanHdr m x.firstStart a.hdrlen fc a1 a2 a3)
    (hfc : fc < 2 ^ 10) :
    WlanHdr (soleFragment x a m data).mem x.firstStart a.hdrlen fc a1 a2 a3 := by
  have hlen := hdrlen_ge a
  have hm16 : m.le16 x.firstStart < 2 ^ 16 := by rw [h.fctrl]; omega
  have hor := @le16_layFragment a x.firstStart (rtwPutSnap a.etherType) data m hm16
  refine ⟨?_, ?_, fun h26 => ?_⟩
  · have hclear := clear_set_mfrag hfc
    unfold soleFragment clearMFrag
    dsimp only
    rw [hor, h.fctrl, hclear, le16_write _ _ (by omega)]
  · unfold soleFragment
    dsimp only
    rw [read_clearMFrag (by omega), ← h.addrs]
    unfold layFragment setMFrag orLe16
    dsimp only
    rw [Mem.read_write_disjoint (Or.inl (by omega)), Mem.read_write_disjoint (Or.inl (by omega)),
      Mem.read_write_disjoint (Or.inl (by omega)), Mem.read_write_disjoint (Or.inl (by omega)),
      Mem.read_write_disjoint (Or.inr (by rw [length_le16Bytes]; omega))]
  · rw [← h.amsdu h26]
    unfold soleFragment clearMFrag Wifi.getAMsdu layFragment setMFrag orLe16
    dsimp only
    rw [le16_write_disjoint (Or.inr (by rw [length_le16Bytes]; omega)),
      le16_write_disjoint (Or.inl (by omega)), le16_write_disjoint (Or.inl (by omega)),
      le16_write_disjoint (Or.inl (by omega)), le16_write_disjoint (Or.inl (by omega)),
      le16_write_disjoint (Or.inr (by rw [length_le16Bytes]; omega))]

/-- Without encryption the SNAP header and the payload stand right behind it. -/
theorem payload_soleFragment (hiv : a.ivLen = 0) (hicv : icvRoom a = 0) :
    (soleFragment x a m data).mem.read (x.firstStart + a.hdrlen) (8 + data.length)
      = rtwPutSnap a.etherType ++ data := by
  have hlen := hdrlen_ge a
  have h8 : (rtwPutSnap a.etherType).length = 8 := rfl
  unfold soleFragment
  dsimp only
  rw [read_clearMFrag (by omega)]
  unfold layFragment
  rw [hiv, hicv, Nat.add_zero]
  dsimp only
  rw [Mem.read_write_disjoint (Or.inl (by rw [h8]; omega)), Mem.write_append,
    ← h8, ← List.length_append, Mem.read_write_self]

end

/-! ## The addresses that the receiver takes -/

section

variable {a : Adapter} {f : RecvFrame}

theorem sta2staDataFrame_frame (hmp : a.mlme.mpState = false) : (sta2staDataFrame a f).2.1 = f := by
  unfold sta2staDataFrame
  dsimp only
  rw [hmp, if_neg Bool.false_ne_true]
  split_ifs
  all_goals first
    | rfl
    | exact sta2staStation_frame _ _ _ _ _

theorem ap2staDataFrame_frame (hmp : a.mlme.mpState = false) : (ap2staDataFrame a f).2.1 = f := by
  unfold ap2staDataFrame
  dsimp only
  rw [hmp, Bool.false_and, if_neg Bool.false_ne_true]
  split_ifs
  all_goals first
    | rfl
    | (cases rtwGetBcmcStainfo a <;> rfl)
    | (cases rtwGetStainfo a f.attrib.bssid <;> rfl)

theorem sta2apDataFrame_frame (hmp : a.mlme.mpState = false) : (sta2apDataFrame a f).2.1 = f := by
  unfold sta2apDataFrame
  rw [hmp, Bool.false_and, if_neg Bool.false_ne_true]
  split_ifs
  all_goals first
    | rfl
    | (cases rtwGetStainfo a f.attrib.src <;> rfl)

/-- Outside `WIFI_MP_STATE` the direction bits decide, whoever the receiver is. -/
theorem dsDataFrame_addrs (hmp : a.mlme.mpState = false) :
    (dsDataFrame a f).2.1.attrib.dst = Wifi.getDa f.buf f.rxData
      ∧ (dsDataFrame a f).2.1.attrib.src = Wifi.getSa f.buf f.rxData := by
  unfold dsDataFrame
  dsimp only
  split
  · rw [sta2staDataFrame_frame hmp]
    exact ⟨rfl, rfl⟩
  · rw [ap2staDataFrame_frame hmp]
    exact ⟨rfl, rfl⟩
  · rw [sta2apDataFrame_frame hmp]
    exact ⟨rfl, rfl⟩
  · exact ⟨rfl, rfl⟩

/-- What comes after the addresses leaves them. -/
theorem validateRecvDataFrame_addrs :
    (validateRecvDataFrame a f).2.2.attrib.dst = (dsDataFrame a f).2.1.attrib.dst
      ∧ (validateRecvDataFrame a f).2.2.attrib.src = (dsDataFrame a f).2.1.attrib.src := by
  unfold validateRecvDataFrame
  rcases dsDataFrame a f with ⟨ret, k, psta⟩
  cases ret with
  | fail => cases psta <;> exact ⟨rfl, rfl⟩
  | handled => cases psta <;> exact ⟨rfl, rfl⟩
  | success =>
      cases psta with
      | none => exact ⟨rfl, rfl⟩
      | some s =>
          dsimp only
          rw [parseQos_same]
          split
          · exact ⟨rfl, rfl⟩
          · exact ⟨rfl, rfl⟩

end

/-! ## What the receiver makes of the frame-control field -/

/-- What a receiver reads from the frame-control field of a data frame in the clear, for
the direction bits `ds` of one of the two infrastructure roles. -/
structure ClearData (m : Mem) (p ds hdrlen : Nat) : Prop where
  version : m.le16 p &&& 3 = 0
  type : Wifi.getFrameType m p = .data
  qos : (Wifi.getFrameSubType m p).testBit 7 = decide (hdrlen = 26)
  order : Wifi.getOrder m p = false
  privacy : Wifi.getPrivacy m p = false
  toFrDs : Wifi.getToFrDs m p = if ds = 0x100 then 2 else 1

theorem clearData_of {m : Mem} {p ds : Nat} {a : PktAttrib} (hds : ds = 0x100 ∨ ds = 0x200)
    (hmd : a.mdata = false) (henc : a.encrypt = .noPrivacy)
    (hfc : m.le16 p = wlanhdrFctrl ds a) : ClearData m p ds a.hdrlen := by
  unfold wlanhdrFctrl at hfc
  rw [hmd, henc, if_neg Bool.false_ne_true, if_pos rfl, Nat.or_zero, Nat.or_zero] at hfc
  rcases a.hdr with ⟨hs, hl⟩ | ⟨hs, hl⟩ <;> rw [hs] at hfc <;> rw [hl] <;>
    rcases hds with rfl | rfl <;>
    refine ⟨?_, ?_, ?_, ?_, ?_, ?_⟩ <;>
    simp only [Wifi.getFrameType, Wifi.getFrameSubType, Wifi.getOrder, Wifi.getPrivacy,
      Wifi.getToFrDs, Wifi.getToDs, Wifi.getFrDs, Wifi.fcBit, hfc] <;> decide

/-- The frame with the header fields that `validate_recv_frame` reads of a data frame. -/
def dataHeader (f : RecvFrame) : RecvFrame :=
  { readHeader f with attrib := { (readHeader f).attrib with
    qos := (Wifi.getFrameSubType f.buf f.rxData).testBit 7 } }

section

variable {a : Adapter} {f : RecvFrame} {ds hdrlen : Nat}

theorem ClearData.validate (h : ClearData f.buf f.rxData ds hdrlen) :
    validateRecvFrame a f = .done (validateRecvDataFrame a (dataHeader f)) := by
  have htype : Wifi.getFrameType (readHeader f).buf (readHeader f).rxData = .data := h.type
  unfold validateRecvFrame
  rw [if_neg (by rw [not_not]; exact h.version)]
  dsimp only
  rw [htype]
  rfl

theorem ClearData.airHdrlen (h : ClearData f.buf f.rxData ds hdrlen)
    (hlen : hdrlen = 24 ∨ hdrlen = 26) : airHdrlen f = hdrlen := by
  unfold Rtl8812au.airHdrlen
  rw [h.qos, h.order]
  rcases hlen with rfl | rfl <;> rfl

/-- A frame in the clear is accepted as one, and as no A-MSDU. -/
theorem ClearData.accepted {a' : Adapter} {g : RecvFrame} (h : ClearData f.buf f.rxData ds hdrlen)
    (hamsdu : hdrlen = 26 → Wifi.getAMsdu f.buf (f.rxData + 24) = false)
    (hv : validateRecvDataFrame a (dataHeader f) = (.success, a', g)) :
    g.attrib.encrypt = .noPrivacy ∧ g.attrib.amsdu = false := by
  obtain ⟨k, s, hds, hk, rfl⟩ := validateRecvDataFrame_success hv
  obtain ⟨hsame, -⟩ := dsDataFrame_same a (dataHeader f)
  rw [hk] at hsame
  have hpriv : k.attrib.privacy = false := by rw [hsame]; exact h.privacy
  have hqos : k.attrib.qos = decide (hdrlen = 26) := by rw [hsame]; exact h.qos
  have hbuf : k.buf = f.buf := by rw [hsame]; rfl
  have hdata : k.rxData = f.rxData := by rw [hsame]; rfl
  refine ⟨?_, ?_⟩
  · unfold setEncrypt
    dsimp only
    rw [parseQos_same]
    dsimp only
    rw [hpriv]
    rfl
  · show (parseQos { k with psta := some s }).attrib.amsdu = false
    unfold parseQos
    dsimp only
    rw [hqos, hbuf, hdata]
    by_cases h26 : hdrlen = 26
    · rw [hamsdu h26]
      split_ifs <;> rfl
    · rw [decide_eq_false h26, if_neg Bool.false_ne_true]
      split_ifs <;> rfl

end

/-! ## The SNAP header comes off -/

/-- **Either SNAP header of `rtw_put_snap` is one that is removed.** -/
theorem snapRemoved_putSnap {m : Mem} {p t : Nat} (ht : t < 2 ^ 16)
    (h : m.read p 8 = rtwPutSnap t) : snapRemoved m p = true ∧ m.be16 (p + 6) = t := by
  have hread : m.read p 8 = m.read p 6 ++ [m (p + 6), m (p + 6 + 1)] := Mem.read_add m p 6 2
  have hsplit : rtwPutSnap t
      = [0xaa, 0xaa, 0x03, 0x00, 0x00, if t = 0x8137 ∨ t = 0x80f3 then 0xf8 else 0x00]
        ++ htons t := rfl
  rw [hread, hsplit] at h
  obtain ⟨hhead, htail⟩ := List.append_inj h (Mem.length_read m p 6)
  have hbe : m.be16 (p + 6) = t := by
    simp only [htons, List.cons.injEq, and_true] at htail
    unfold Mem.be16
    rw [htail.1, htail.2, UInt8.toNat_ofNat', UInt8.toNat_ofNat']
    omega
  refine ⟨?_, hbe⟩
  unfold snapRemoved
  have h6 : snapSize = 6 := rfl
  rw [h6, hhead, hbe]
  by_cases hb : t = 0x8137 ∨ t = 0x80f3
  · rw [if_pos hb]
    exact Bool.or_eq_true_iff.mpr (Or.inr (by decide))
  · rw [if_neg hb]
    rw [not_or] at hb
    unfold ethPIpx ethPAarp
    simp [hb.1, hb.2, rfc1042Header]

/-- What stands behind the twelve bytes of the addresses stays. -/
theorem read_putEthHdr (f : RecvFrame) (len p n : Nat) :
    (putEthHdr f true len p).buf.read p (12 + n)
      = f.attrib.dst.bytes ++ (f.attrib.src.bytes ++ f.buf.read (p + 12) n) := by
  have hlen : (f.attrib.dst.bytes ++ f.attrib.src.bytes).length = 12 := rfl
  have hbuf : (putEthHdr f true len p).buf
      = f.buf.write p (f.attrib.dst.bytes ++ f.attrib.src.bytes) :=
    Mem.write_append f.buf p f.attrib.dst.bytes f.attrib.src.bytes
  have hself := Mem.read_write_self f.buf p (f.attrib.dst.bytes ++ f.attrib.src.bytes)
  rw [hlen] at hself
  rw [hbuf, Mem.read_add, hself, Mem.read_write_disjoint (Or.inr (by rw [hlen])),
    List.append_assoc]

/-- **An MSDU behind a SNAP header of `rtw_put_snap`** comes out with its type in place. -/
theorem wlanhdrToEthhdr_snap {g : RecvFrame} {t : Nat} {data : List UInt8} (hw : g.WF)
    (henc : g.attrib.encrypt = .noPrivacy) (hiv : g.attrib.ivLen = 0)
    (hhdr : 24 ≤ g.attrib.hdrlen) (ht : t < 2 ^ 16)
    (hlen : g.len = g.attrib.hdrlen + (8 + data.length))
    (hread : g.buf.read (g.rxData + g.attrib.hdrlen) (8 + data.length) = rtwPutSnap t ++ data) :
    (wlanhdrToEthhdr false g).2 = true
      ∧ (wlanhdrToEthhdr false g).1.bytes
        = g.attrib.dst.bytes ++ (g.attrib.src.bytes ++ (htons t ++ data)) := by
  obtain ⟨hwh, hhlen, hdata, -, -⟩ := pulledForm_wf false hw
  have hbuf : (pulledForm false g).buf = g.buf := rfl
  have heq := wlanhdrToEthhdr_eq g
  rw [pulledLen, if_neg Bool.false_ne_true] at heq
  generalize pulledForm false g = h at hwh hhlen hdata hbuf heq
  have hdst : (wlanhdrToEthhdr false g).1.attrib.dst = g.attrib.dst := by
    rw [(wlanhdrToEthhdr_same false g).2]
  have hsrc : (wlanhdrToEthhdr false g).1.attrib.src = g.attrib.src := by
    rw [(wlanhdrToEthhdr_same false g).2]
  have hpay : payloadAt g = g.rxData + g.attrib.hdrlen := by
    unfold payloadAt
    rw [hiv, Nat.add_zero]
  have hcut : cutLen g = g.len := by
    unfold cutLen
    rw [henc]
    rfl
  have hsnap8 : (rtwPutSnap t).length = 8 := rfl
  have h8 : g.buf.read (g.rxData + g.attrib.hdrlen) 8 = rtwPutSnap t := by
    have htake := congrArg (List.take 8) hread
    rwa [Mem.take_read _ (Nat.le_add_right 8 data.length), List.take_left' hsnap8] at htake
  obtain ⟨hsnap, -⟩ := snapRemoved_putSnap ht h8
  -- the type and what follows it stay where they are
  have htype : g.buf.read (g.rxData + g.attrib.hdrlen + 6) (2 + data.length)
      = htons t ++ data := by
    have hdrop := congrArg (List.drop 6) hread
    have hle : 6 ≤ 8 + data.length := by omega
    have hsub : 8 + data.length - 6 = 2 + data.length := by omega
    rw [Mem.drop_read _ hle, hsub, List.drop_append_of_le_length (by rw [hsnap8]; omega)] at hdrop
    exact hdrop
  have hsz : ((removedLen g : Nat) : Int) - ethHlen + 2 = ((g.attrib.hdrlen - 6 : Nat) : Int) := by
    unfold removedLen
    rw [hpay, hsnap, if_pos rfl, hiv]
    unfold ethHlen snapSize
    omega
  have hle : g.attrib.hdrlen - 6 ≤ h.len := by omega
  rw [hpay, hsnap] at heq
  dsimp only at heq
  rw [if_pos rfl, hsz, RecvFrame.pull_eq hwh, if_pos hle] at heq
  dsimp only at heq
  rw [if_pos rfl] at heq
  rw [heq] at hdst hsrc ⊢
  refine ⟨rfl, ?_⟩
  have hn : h.len - (g.attrib.hdrlen - 6) = 12 + (2 + data.length) := by omega
  have hat : h.rxData + (g.attrib.hdrlen - 6) + 12 = g.rxData + g.attrib.hdrlen + 6 := by omega
  refine (congrArg (Mem.read _ _) hn).trans ?_
  refine (read_putEthHdr _ _ _ _).trans ?_
  refine congrArg₂ (· ++ ·) (congrArg MacAddr.bytes hdst) ?_
  refine congrArg₂ (· ++ ·) (congrArg MacAddr.bytes hsrc) ?_
  dsimp only
  rw [hat, hbuf, htype]

/-! ## What `update_attrib` says of the frame -/

/-- The fields that the choice of a cipher leaves. -/
structure PktAttrib.SameAddrs (x y : PktAttrib) : Prop where
  dst : y.dst = x.dst
  src : y.src = x.src
  ta : y.ta = x.ta
  ra : y.ra = x.ra
  etherType : y.etherType = x.etherType
  pktlen : y.pktlen = x.pktlen

section

variable {sec : SecurityPriv} {psta : StaInfo} {x : PktAttrib}

theorem fillIv_same : x.SameAddrs (fillIv sec psta x).attrib := by
  unfold fillIv
  cases x.encrypt
  case tkip =>
    dsimp only
    split
    · exact ⟨rfl, rfl, rfl, rfl, rfl, rfl⟩
    · exact ⟨rfl, rfl, rfl, rfl, rfl, rfl⟩
  all_goals exact ⟨rfl, rfl, rfl, rfl, rfl, rfl⟩

theorem fillIv_encrypt : (fillIv sec psta x).attrib.encrypt = x.encrypt := by
  unfold fillIv
  cases x.encrypt
  case tkip =>
    dsimp only
    split
    · rfl
    · rfl
  all_goals rfl

/-- A frame in the clear gets no IV and no ICV. -/
theorem fillIv_clear (h : x.encrypt = .noPrivacy) :
    (fillIv sec psta x).attrib.ivLen = 0 ∧ (fillIv sec psta x).attrib.icvLen = 0 := by
  unfold fillIv
  rw [h]
  exact ⟨rfl, rfl⟩

/-- The attributes with the cipher that `update_attrib_sec_info` chooses. -/
def withCipher (sec : SecurityPriv) (psta : StaInfo) (x : PktAttrib) : PktAttrib :=
  let x := { x with dot118021xUncstKey := fun _ => 0, dot11tkiptxmickey := fun _ => 0 }
  if psta.ieee8021xBlocked then { x with encrypt := .noPrivacy }
  else { x with encrypt := (chooseEncrypt sec psta x).1, keyIdx := (chooseEncrypt sec psta x).2 }

theorem withCipher_same : x.SameAddrs (withCipher sec psta x) := by
  unfold withCipher
  dsimp only
  split
  · exact ⟨rfl, rfl, rfl, rfl, rfl, rfl⟩
  · exact ⟨rfl, rfl, rfl, rfl, rfl, rfl⟩

/-- When `update_attrib_sec_info` succeeds, it has filled in the IV of some cipher, and a key. -/
theorem updateAttribSecInfo_ok {mp : Bool} (hok : (updateAttribSecInfo mp sec psta x).ok = true) :
    ∃ key sw, (updateAttribSecInfo mp sec psta x).attrib
      = { (fillIv sec psta (withCipher sec psta x)).attrib with
          dot118021xUncstKey := key, bswenc := sw } := by
  have heq : updateAttribSecInfo mp sec psta x =
      if psta.ieee8021xBlocked && x.etherType != 0x888e && !mp then
        ⟨false, { x with
          dot118021xUncstKey := fun _ => 0, dot11tkiptxmickey := fun _ => 0
          encrypt := .noPrivacy }, psta.dot11txpn⟩
      else
        let r := fillIv sec psta (withCipher sec psta x)
        if !r.ok then r
        else { r with attrib := { r.attrib with
          dot118021xUncstKey := if r.attrib.encrypt = .noPrivacy then r.attrib.dot118021xUncstKey
            else psta.dot118021xUncstKey
          bswenc := decide (r.attrib.encrypt ≠ .noPrivacy)
            && (sec.swEncrypt || !sec.hwDecrypted) } } := rfl
  rw [heq] at hok ⊢
  dsimp only at hok ⊢
  split at hok
  · cases hok
  · rename_i hblocked
    rw [if_neg hblocked]
    split at hok
    · rename_i hfail
      rw [hok] at hfail
      cases hfail
    · rename_i hfill
      rw [if_neg hfill]
      exact ⟨_, _, rfl⟩

theorem updateAttribSecInfo_same {mp : Bool}
    (hok : (updateAttribSecInfo mp sec psta x).ok = true) :
    x.SameAddrs (updateAttribSecInfo mp sec psta x).attrib := by
  obtain ⟨key, sw, heq⟩ := updateAttribSecInfo_ok hok
  have hxy := @withCipher_same sec psta x
  have hfill := @fillIv_same sec psta (withCipher sec psta x)
  rw [heq]
  exact ⟨hfill.dst.trans hxy.dst, hfill.src.trans hxy.src, hfill.ta.trans hxy.ta,
    hfill.ra.trans hxy.ra, hfill.etherType.trans hxy.etherType, hfill.pktlen.trans hxy.pktlen⟩

theorem updateAttribSecInfo_clear {mp : Bool}
    (hok : (updateAttribSecInfo mp sec psta x).ok = true)
    (h : (updateAttribSecInfo mp sec psta x).attrib.encrypt = .noPrivacy) :
    (updateAttribSecInfo mp sec psta x).attrib.ivLen = 0
      ∧ (updateAttribSecInfo mp sec psta x).attrib.icvLen = 0 := by
  obtain ⟨key, sw, heq⟩ := updateAttribSecInfo_ok hok
  rw [heq] at h ⊢
  have hy : (fillIv sec psta (withCipher sec psta x)).attrib.encrypt = .noPrivacy := h
  rw [fillIv_encrypt] at hy
  exact fillIv_clear hy

end

/-! ## The attributes of an infrastructure frame -/

section

variable {a a' : Adapter} {qosOf : StaSlot → Bool} {acmMask : Nat} {pkt : Pkt}
  {x y : PktAttrib}

/-- A group address finds the broadcast station either way. -/
theorem getStainfo_of_mcast (addr : MacAddr) :
    (if addr.isMcast then rtwGetBcmcStainfo a else rtwGetStainfo a addr)
      = rtwGetStainfo a addr := by
  cases h : addr.isMcast with
  | false => rfl
  | true =>
      unfold rtwGetBcmcStainfo rtwGetStainfo
      rw [h]
      rfl

/-- Packet numbers play no part in looking up a station. -/
theorem getStainfo_updPn (s : StaSlot) (pn : Nat) (addr : MacAddr) :
    rtwGetStainfo (a.updSta s fun u => { u with dot11txpn := pn }) addr = rtwGetStainfo a addr := by
  have hsame : ∀ k, ((a.updSta s fun u => { u with dot11txpn := pn }).sta k).hwaddr
      = (a.sta k).hwaddr := by
    intro k
    unfold Adapter.updSta
    dsimp only
    split <;> rfl
  unfold rtwGetStainfo
  simp only [hsame]
  rfl

theorem attribQos_same (x : PktAttrib) :
    attribQos a pkt x acmMask
      = { x with
          subtype := (attribQos a pkt x acmMask).subtype
          hdrlen := (attribQos a pkt x acmMask).hdrlen
          hdr := (attribQos a pkt x acmMask).hdr
          priority := (attribQos a pkt x acmMask).priority } := by
  unfold attribQos
  split_ifs
  all_goals rfl

/-- What `update_attrib` leaves when it succeeds: the Ethernet header as `attribAddrs` has
it, a linked station for the receiver, and no IV for a frame in the clear. -/
structure Updated (a : Adapter) (pkt : Pkt) (x : PktAttrib) (a' : Adapter) (y : PktAttrib) :
    Prop where
  addrs : (attribAddrs a pkt x).SameAddrs y
  mlme : a'.mlme = a.mlme
  sta : ∃ id psta, staOf a' y.ra = some (id, psta) ∧ y.psta = some id ∧ psta.linked = true
  mdata : y.mdata = false
  pktHdrlen : y.pktHdrlen = ethHlen
  clear : y.encrypt = .noPrivacy → y.ivLen = 0 ∧ y.icvLen = 0

theorem updated_of (h : updateAttrib a pkt x qosOf acmMask = some (a', y)) :
    Updated a pkt x a' y := by
  unfold updateAttrib at h
  dsimp only at h
  rw [getStainfo_of_mcast] at h
  cases hs : rtwGetStainfo a (attribAddrs a pkt x).ra with
  | none => rw [hs] at h; cases h
  | some s =>
      rw [hs] at h
      dsimp only at h
      split at h
      · cases h
      · rename_i hlinked
        rw [Bool.not_eq_true, Bool.not_eq_false'] at hlinked
        split at h
        · cases h
        · rename_i hok
          rw [Bool.not_eq_true, Bool.not_eq_false'] at hok
          obtain ⟨rfl, rfl⟩ := Prod.mk.inj (Option.some.inj h)
          have hsame := updateAttribSecInfo_same hok
          generalize hr : updateAttribSecInfo a.mlme.mpState a.sec (a.sta s) (attribAddrs a pkt x)
            = r at hok hsame ⊢
          rw [attribQos_same]
          refine ⟨⟨hsame.dst, hsame.src, hsame.ta, hsame.ra, hsame.etherType, hsame.pktlen⟩,
            rfl, ?_, rfl, rfl, fun henc => ?_⟩
          · refine ⟨s.val, { a.sta s with dot11txpn := r.dot11txpn }, ?_, rfl, hlinked⟩
            show staOf _ r.attrib.ra = _
            rw [hsame.ra, staOf, getStainfo_updPn, hs]
            exact congrArg (fun u => some (s.val, u)) (if_pos rfl)
          · subst hr
            exact updateAttribSecInfo_clear hok henc

end

/-! ## There and back -/

/-- The adapter is a station or an access point, and in no ad hoc network. -/
structure MlmePriv.Infra (m : MlmePriv) : Prop where
  adhoc : m.adhocState = false
  adhocMaster : m.adhocMasterState = false
  role : m.stationState = true ∨ m.apState = true

/-- The frame as adapter `a` hands it on: a station is the source of all that it sends. -/
def EthFrame.sentBy (e : EthFrame) (a : Adapter) : EthFrame :=
  { e with src := if a.mlme.stationState then a.myid else e.src }

/-- Where the two addresses of an Ethernet frame stand in the three of the MAC header. -/
def CarriesAddrs (ds : Nat) (a1 a2 a3 : MacAddr) (e : EthFrame) : Prop :=
  (ds = 0x100 ∧ a3 = e.dst ∧ a2 = e.src) ∨ (ds = 0x200 ∧ a1 = e.dst ∧ a3 = e.src)

section

variable {a a' : Adapter} {e : EthFrame} {x y : PktAttrib}

/-- **The sender's side of the addresses**, in either role. -/
theorem carriesAddrs_of (hi : a.mlme.Infra) (hu : Updated a e.bytes x a' y) {ds : Nat}
    {a1 a2 a3 : MacAddr} {q : Bool} (hmode : wlanhdrForMode a'.mlme y = some (ds, a1, a2, a3, q)) :
    CarriesAddrs ds a1 a2 a3 (e.sentBy a) := by
  have hdst := hu.addrs.dst
  have hsrc := hu.addrs.src
  have hta := hu.addrs.ta
  unfold attribAddrs at hdst hsrc hta
  rw [hi.adhoc, hi.adhocMaster, Bool.or_false, if_neg Bool.false_ne_true] at hdst hsrc hta
  rw [hu.mlme] at hmode
  unfold wlanhdrForMode at hmode
  unfold EthFrame.sentBy
  cases hst : a.mlme.stationState with
  | true =>
      rw [hst, if_pos rfl] at hdst hta hmode
      obtain ⟨rfl, -, rfl, rfl, -⟩ : 0x100 = ds ∧ a.mlme.bssid = a1 ∧ y.ta = a2 ∧ y.dst = a3
          ∧ a.mlme.qosOption = q := by simpa using hmode
      exact Or.inl ⟨rfl, hdst, hta⟩
  | false =>
      have hap : a.mlme.apState = true := by simpa [hst] using hi.role
      rw [hst, hap, if_neg Bool.false_ne_true, if_pos rfl] at hdst hsrc hmode
      obtain ⟨rfl, rfl, -, rfl, -⟩ : 0x200 = ds ∧ y.dst = a1 ∧ a.mlme.bssid = a2 ∧ y.src = a3
          ∧ y.qosEn = q := by simpa using hmode
      exact Or.inr ⟨rfl, hdst, hsrc⟩

theorem infra_mode (hi : a.mlme.Infra) (hm : a'.mlme = a.mlme) :
    ∃ r, wlanhdrForMode a'.mlme y = some r := by
  unfold wlanhdrForMode
  rw [hm]
  rcases hi.role with h | h
  · rw [h]
    exact ⟨_, rfl⟩
  · rw [h]
    split
    · exact ⟨_, rfl⟩
    · exact ⟨_, rfl⟩

/-- **The receiver's side of them.** -/
theorem carriesAddrs_back {m : Mem} {p hdrlen fc ds : Nat} {a1 a2 a3 : MacAddr}
    (hh : WlanHdr m p hdrlen fc a1 a2 a3) (hc : ClearData m p ds hdrlen)
    (ha : CarriesAddrs ds a1 a2 a3 e) : Wifi.getDa m p = e.dst ∧ Wifi.getSa m p = e.src := by
  have hto := hc.toFrDs
  unfold Wifi.getDa Wifi.getSa
  rcases ha with ⟨rfl, h1, h2⟩ | ⟨rfl, h1, h2⟩
  · rw [if_pos rfl] at hto
    rw [hto, ← h1, ← h2]
    exact ⟨hh.addr3, hh.addr2⟩
  · rw [if_neg (by decide)] at hto
    rw [hto, ← h1, ← h2]
    exact ⟨hh.addr1, hh.addr3⟩

/-- The other fields of the frame. -/
theorem Updated.etherType (hu : Updated a e.bytes x a' y) : y.etherType = e.etherType := by
  have h := hu.addrs.etherType
  rw [h]
  unfold attribAddrs
  split_ifs
  all_goals exact e.etherType_bytes

theorem Updated.pktlen (hu : Updated a e.bytes x a' y) : y.pktlen = e.payload.length := by
  have h := hu.addrs.pktlen
  have hlen := e.length_bytes
  rw [h]
  unfold attribAddrs
  split_ifs
  all_goals
    show e.bytes.length - ethHlen = e.payload.length
    omega

end

/-- What stands on the air for the Ethernet frame `e`: a data header that carries its
addresses, the SNAP header of its type, and its payload. -/
structure OnAir (x : XmitFrame) (e : EthFrame) : Prop where
  sole : x.frags.length = 1
  mdata : x.attrib.mdata = false
  encrypt : x.attrib.encrypt = .noPrivacy
  hdr : ∃ ds a1 a2 a3, WlanHdr x.mem x.firstStart x.attrib.hdrlen (wlanhdrFctrl ds x.attrib) a1 a2 a3
    ∧ CarriesAddrs ds a1 a2 a3 e
  len : x.attrib.lastTxcmdsz = x.attrib.hdrlen + (8 + e.payload.length)
  msdu : x.mem.read (x.firstStart + x.attrib.hdrlen) (8 + e.payload.length)
    = rtwPutSnap e.etherType ++ e.payload

/-- **Out.** A packet that `update_attrib` let through goes on the air, whole. -/
theorem coalesce_onAir (aes : AesKey → BlockMode.Block → BlockMode.Block) (p : XmitPriv)
    {a a' : Adapter} {sec : SecurityPriv} {e : EthFrame} {x₀ : PktAttrib} {x : XmitFrame}
    (hi : a.mlme.Infra) (hu : Updated a e.bytes x₀ a' x.attrib) (hbuf : x.bufAddr ≠ 0)
    (henc : x.attrib.encrypt = .noPrivacy)
    (hfit : x.attrib.ra.isMcast = false → FitsOneFragment p.fragLen x.attrib e.bytes) :
    ∃ x', rtwXmitframeCoalesce aes p.fragLen a'.mlme sec (staOf a' x.attrib.ra) e.bytes x
        = some x' ∧ OnAir x' (e.sentBy a) := by
  obtain ⟨hiv, hicv⟩ := hu.clear henc
  have hroom : icvRoom x.attrib = 0 := by
    unfold icvRoom
    rw [hicv]
    exact ite_self 0
  have hdata : e.bytes.drop x.attrib.pktHdrlen = e.payload := by
    rw [hu.pktHdrlen]
    exact e.drop_bytes
  have hread : (e.bytes.drop x.attrib.pktHdrlen).length ≤ readLen p.fragLen x.attrib 8 := by
    cases hra : x.attrib.ra.isMcast with
    | false => exact readLen_of_fits p hra (hfit hra)
    | true =>
        unfold readLen
        rw [if_pos hra, hdata, hu.pktlen]
  obtain ⟨r, hmode⟩ := @infra_mode a a' x.attrib hi hu.mlme
  obtain ⟨id, psta, hsta, hid, hlink⟩ := hu.sta
  obtain ⟨m, seqnum, hmk⟩ := @rtwMakeWlanhdr_linked a'.mlme x.mem x.firstStart x.attrib id psta r
    hmode hid hlink
  rw [← hsta] at hmk
  obtain ⟨ds, a1, a2, a3, q, hmode', hwlan⟩ := wlanHdr_of_make hmk
  have hcarry := carriesAddrs_of hi hu hmode'
  have hds := wlanhdrForMode_ds hmode'
  have hcoal := coalesceFrags_of_make hbuf hread hmk
  rw [hdata] at hcoal
  -- no MIC and no cipher touches it
  refine ⟨soleFragment x { x.attrib with seqnum := seqnum } m e.payload, ?_, ?_⟩
  · have hmic : xmitframeAddmic p.fragLen sec
        (soleFragment x { x.attrib with seqnum := seqnum } m e.payload)
        = some (soleFragment x { x.attrib with seqnum := seqnum } m e.payload) := by
      refine if_pos ?_
      show x.attrib.encrypt ≠ .tkip
      rw [henc]
      decide
    have hsw : xmitframeSwencrypt aes p.fragLen sec
        (soleFragment x { x.attrib with seqnum := seqnum } m e.payload)
        = soleFragment x { x.attrib with seqnum := seqnum } m e.payload := by
      have henc' : (soleFragment x { x.attrib with seqnum := seqnum } m e.payload).attrib.encrypt
          = .noPrivacy := henc
      unfold xmitframeSwencrypt
      rw [henc']
      exact ite_self _
    unfold rtwXmitframeCoalesce
    rw [hcoal]
    dsimp only
    rw [hmic]
    exact congrArg some hsw
  · have hfc : wlanhdrFctrl ds { x.attrib with seqnum := seqnum } < 2 ^ 10 := by
      unfold wlanhdrFctrl
      dsimp only
      rw [hu.mdata, henc, if_neg Bool.false_ne_true, if_pos rfl, Nat.or_zero, Nat.or_zero]
      refine Nat.or_lt_two_pow ?_ ?_
      · rcases x.attrib.hdr with ⟨hs, -⟩ | ⟨hs, -⟩
        · rw [hs]; decide
        · rw [hs]; decide
      · rcases hds with rfl | rfl | rfl <;> decide
    have hlaid := @WlanHdr.laidOut x { x.attrib with seqnum := seqnum } m e.payload a1 a2 a3 _
      hwlan hfc
    have hpay := @payload_soleFragment x { x.attrib with seqnum := seqnum } m e.payload hiv hroom
    refine ⟨rfl, hu.mdata, henc, ⟨ds, a1, a2, a3, hlaid, hcarry⟩, ?_, ?_⟩
    · show x.attrib.hdrlen + x.attrib.ivLen + 8 + icvRoom x.attrib + e.payload.length = _
      rw [hiv, hroom]
      show _ = x.attrib.hdrlen + (8 + e.payload.length)
      omega
    · rw [hu.etherType] at hpay
      exact hpay

/-- **And back.** Any receiver takes the addresses of the frame from it, and when it accepts
the MPDU, `wlanhdr_to_ethhdr` makes the frame of it. -/
theorem onAir_received {x : XmitFrame} {e : EthFrame} (ho : OnAir x e) {b : Adapter}
    {f : RecvFrame} (hmp : b.mlme.mpState = false) (hw : f.WF) (hf : f.bytes = x.airBytes) :
    ∃ ret b' g, validateRecvFrame b f = .done (ret, b', g)
      ∧ g.attrib.dst = e.dst ∧ g.attrib.src = e.src
      ∧ (ret = .success → g.attrib.amsdu = false
        ∧ (wlanhdrToEthhdr b.mlme.mpState g).2 = true
        ∧ (wlanhdrToEthhdr b.mlme.mpState g).1.bytes = e.bytes) := by
  have hhl := hdrlen_ge x.attrib
  have hlen : f.len = x.attrib.hdrlen + (8 + e.payload.length) := by
    have h := congrArg List.length hf
    unfold RecvFrame.bytes XmitFrame.airBytes at h
    rw [Mem.length_read, Mem.length_read, ho.len] at h
    exact h
  -- the frame has the bytes of the air, wherever its buffer starts
  have hbyte : ∀ i < f.len, f.buf (f.rxData + i) = x.mem (x.firstStart + i) := by
    intro i hi
    have h : f.bytes[i]? = x.airBytes[i]? := congrArg (fun l : List UInt8 => l[i]?) hf
    unfold RecvFrame.bytes XmitFrame.airBytes at h
    rw [Mem.getElem?_read _ hi, Mem.getElem?_read _ (by rw [ho.len, ← hlen]; exact hi)] at h
    exact Option.some.inj h
  obtain ⟨ds, a1, a2, a3, hhdr, hcarry⟩ := ho.hdr
  have hhdr' : WlanHdr f.buf f.rxData x.attrib.hdrlen (wlanhdrFctrl ds x.attrib) a1 a2 a3 :=
    hhdr.congr hhl fun i hi => hbyte i (by omega)
  have hds : ds = 0x100 ∨ ds = 0x200 := hcarry.imp And.left And.left
  have hclear := clearData_of hds ho.mdata ho.encrypt hhdr'.fctrl
  -- the addresses are taken from the places that the two bits of the direction name
  obtain ⟨hda, hsa⟩ := carriesAddrs_back hhdr' hclear hcarry
  obtain ⟨hdst, hsrc⟩ := @validateRecvDataFrame_addrs b (dataHeader f)
  obtain ⟨hdst', hsrc'⟩ := @dsDataFrame_addrs b (dataHeader f) hmp
  generalize hv : validateRecvDataFrame b (dataHeader f) = v at hdst hsrc
  obtain ⟨ret, b', g⟩ := v
  have hvalid : validateRecvFrame b f = .done (ret, b', g) := by rw [hclear.validate, hv]
  have hgd : g.attrib.dst = e.dst := hdst.trans (hdst'.trans hda)
  have hgs : g.attrib.src = e.src := hsrc.trans (hsrc'.trans hsa)
  refine ⟨ret, b', g, hvalid, hgd, hgs, fun hret => ?_⟩
  subst hret
  -- accepted, the frame is what it was, with the header length of the sender
  obtain ⟨henc, hamsdu⟩ := hclear.accepted hhdr'.amsdu hv
  have hacc := validateRecvFrame_accepted hvalid
  have hg : g.attrib.hdrlen = x.attrib.hdrlen := by
    rw [hacc.hdrlen]
    refine hclear.airHdrlen ?_
    rcases x.attrib.hdr with ⟨-, h⟩ | ⟨-, h⟩
    · exact Or.inl h
    · exact Or.inr h
  have hiv : g.attrib.ivLen = 0 := by
    rw [hacc.ivLen, henc]
    rfl
  have hmsdu : g.buf.read (g.rxData + g.attrib.hdrlen) (8 + e.payload.length)
      = rtwPutSnap e.etherType ++ e.payload := by
    rw [← ho.msdu, hacc.buf, hacc.rxData, hg]
    refine List.map_congr_left fun i hi => ?_
    have hi' := List.mem_range.mp hi
    rw [Nat.add_assoc, Nat.add_assoc]
    exact hbyte _ (by omega)
  have hglen : g.len = g.attrib.hdrlen + (8 + e.payload.length) := by
    rw [hacc.len, hlen, hg]
  obtain ⟨hok, hbytes⟩ := wlanhdrToEthhdr_snap (hacc.wf hw) henc hiv (by omega) e.etherType_lt
    hglen hmsdu
  rw [hmp]
  refine ⟨hamsdu, hok, ?_⟩
  rw [hbytes, hgd, hgs]
  rfl

/-- **Ethernet to 802.11 and back.** Whatever the destination, the type and the payload of a
frame that goes out in the clear in one MPDU, in either role, with QoS or without: the
receiver reads its destination and its source from the MAC header, and `wlanhdr_to_ethhdr`
makes the same frame again. The source is that of the frame when an access point sent it,
and the address of the station when a station did. -/
theorem ethernet_there_and_back (aes : AesKey → BlockMode.Block → BlockMode.Block)
    (p : XmitPriv) {qosOf : StaSlot → Bool} {acmMask : Nat} {a a' : Adapter} {e : EthFrame}
    {x : XmitFrame} {y : PktAttrib} (hi : a.mlme.Infra)
    (hup : updateAttrib a e.bytes x.attrib qosOf acmMask = some (a', y))
    (hbuf : x.bufAddr ≠ 0) (henc : y.encrypt = .noPrivacy)
    (hfit : y.ra.isMcast = false → FitsOneFragment p.fragLen y e.bytes) :
    ∃ x', rtwXmitframeCoalesce aes p.fragLen a'.mlme a'.sec (staOf a' y.ra) e.bytes
        { x with attrib := y } = some x'
      ∧ x'.frags.length = 1
      ∧ ∀ (b : Adapter) (f : RecvFrame), b.mlme.mpState = false → f.WF → f.bytes = x'.airBytes →
        ∃ ret b' g, validateRecvFrame b f = .done (ret, b', g)
          ∧ g.attrib.dst = e.dst
          ∧ g.attrib.src = (if a.mlme.stationState then a.myid else e.src)
          ∧ (ret = .success → g.attrib.amsdu = false
            ∧ (wlanhdrToEthhdr b.mlme.mpState g).2 = true
            ∧ (wlanhdrToEthhdr b.mlme.mpState g).1.bytes = (e.sentBy a).bytes) := by
  have hu := updated_of hup
  obtain ⟨x', hx', ho⟩ := @coalesce_onAir aes p a a' a'.sec e x.attrib { x with attrib := y } hi
    hu hbuf henc hfit
  refine ⟨x', hx', ho.sole, fun b f hmp hw hf => ?_⟩
  exact onAir_received ho hmp hw hf

/-! ### A station and its access point -/

/-- A station that belongs to the access point `02:..:01`. -/
def sampleSender : Adapter where
  mlme := { stationState := true, fwLinked := true, bssid := ⟨2, 0, 0, 0, 0, 1⟩ }
  myid := ⟨2, 0, 0, 0, 0, 2⟩
  staHash := [0]
  sta := fun _ => { hwaddr := ⟨2, 0, 0, 0, 0, 1⟩, linked := true }

/-- That access point, which knows the station. -/
def sampleApPeer : Adapter where
  mlme := { apState := true, bssid := ⟨2, 0, 0, 0, 0, 1⟩ }
  myid := ⟨2, 0, 0, 0, 0, 1⟩
  staHash := [0]
  sta := fun _ => { hwaddr := ⟨2, 0, 0, 0, 0, 2⟩, linked := true, tidRxseq := fun _ => 0xffff }

/-- An IPX packet for a third party, from `src`. -/
def sampleIpx (src : MacAddr) : EthFrame where
  dst := ⟨2, 0, 0, 0, 0, 3⟩
  src := src
  etherType := 0x8137
  etherType_lt := by decide
  payload := [1, 2, 3]

/-- A transmit buffer. -/
def sampleBuffer (y : PktAttrib) : XmitFrame where
  attrib := y
  bufAddr := 64
  aligned := aligned_64
  mem := fun _ => 0

/-- The MPDU as it arrives. -/
def arrival (x : XmitFrame) : RecvFrame where
  id := 0
  len := x.attrib.lastTxcmdsz
  rxTail := x.attrib.lastTxcmdsz
  rxEnd := x.attrib.lastTxcmdsz
  buf := x.mem.shift x.firstStart

instance (fragLen : Nat) (a : PktAttrib) (pkt : List UInt8) :
    Decidable (FitsOneFragment fragLen a pkt) :=
  inferInstanceAs (Decidable (_ ≤ _))

/-- What a packet of the station comes to: its cipher, whether it is one MPDU, and of what
size, and what the access point makes of that. -/
structure Trip where
  encrypt : Cipher
  fits : Bool
  size : Nat
  ok : Bool
  pkt : Pkt
  deriving DecidableEq

def sampleTrip (e : EthFrame) : Option Trip := do
  let r ← updateAttrib sampleSender e.bytes { hdr := plainHdr } (fun _ => false) 0
  let x ← rtwXmitframeCoalesce (fun _ b => b) 2346 r.1.mlme r.1.sec (staOf r.1 r.2.ra) e.bytes
    (sampleBuffer r.2)
  match validateRecvFrame sampleApPeer (arrival x) with
  | .done (.success, _, g) =>
    some ⟨r.2.encrypt, decide (FitsOneFragment 2346 r.2 e.bytes), x.attrib.lastTxcmdsz,
      (wlanhdrToEthhdr false g).2, (wlanhdrToEthhdr false g).1.bytes⟩
  | _ => none

/-- The functions that a trip goes through. -/
structure TripRuns (e : EthFrame) (t : Trip) (a' : Adapter) (y : PktAttrib) (x : XmitFrame)
    (b' : Adapter) (g : RecvFrame) : Prop where
  up : updateAttrib sampleSender e.bytes {} (fun _ => false) 0 = some (a', y)
  encrypt : y.encrypt = t.encrypt
  fits : decide (FitsOneFragment 2346 y e.bytes) = t.fits
  coalesce : rtwXmitframeCoalesce (fun _ b => b) 2346 a'.mlme a'.sec (staOf a' y.ra) e.bytes
    (sampleBuffer y) = some x
  size : x.attrib.lastTxcmdsz = t.size
  valid : validateRecvFrame sampleApPeer (arrival x) = .done (.success, b', g)
  ok : (wlanhdrToEthhdr false g).2 = t.ok
  pkt : (wlanhdrToEthhdr false g).1.bytes = t.pkt

theorem tripRuns_of {e : EthFrame} {t : Trip} (h : sampleTrip e = some t) :
    ∃ a' y x b' g, TripRuns e t a' y x b' g := by
  unfold sampleTrip at h
  cases hup : updateAttrib sampleSender e.bytes {} (fun _ => false) 0 with
  | none => rw [hup] at h; cases h
  | some r =>
      obtain ⟨a', y⟩ := r
      rw [hup] at h
      cases hx : rtwXmitframeCoalesce (fun _ b => b) 2346 a'.mlme a'.sec (staOf a' y.ra) e.bytes
          (sampleBuffer y) with
      | none =>
          simp only [Option.bind_eq_bind, Option.bind_some, hx] at h
          cases h
      | some x =>
          simp only [Option.bind_eq_bind, Option.bind_some, hx] at h
          split at h
          · rename_i b' g hv
            obtain rfl := Option.some.inj h
            exact ⟨a', y, x, b', g, hup, rfl, rfl, hx, rfl, hv, rfl, rfl⟩
          · cases h

/-- The station's own packet comes back as it was. -/
theorem sampleTrip_own : sampleTrip (sampleIpx sampleSender.myid)
    = some ⟨.noPrivacy, true, 35, true, (sampleIpx sampleSender.myid).bytes⟩ := by
  decide

/-- A packet of somebody else comes back as the station's. -/
theorem sampleTrip_other : sampleTrip (sampleIpx ⟨2, 0, 0, 0, 0, 4⟩)
    = some ⟨.noPrivacy, true, 35, true, (sampleIpx sampleSender.myid).bytes⟩ := by
  decide

theorem sampleSender_infra : sampleSender.mlme.Infra := ⟨rfl, rfl, Or.inl rfl⟩

theorem arrival_wf {x : XmitFrame} (h : x.attrib.lastTxcmdsz < 2 ^ 32) : (arrival x).WF := by
  refine ⟨Nat.le_refl 0, Nat.zero_le _, Nat.le_refl _, rfl, ?_⟩
  have hhead : (arrival x).rxHead = 0 := rfl
  rw [hhead, Nat.zero_add]
  exact h

theorem arrival_bytes (x : XmitFrame) : (arrival x).bytes = x.airBytes := by
  refine List.map_congr_left fun i _ => ?_
  show x.mem (x.firstStart + (0 + i)) = x.mem (x.firstStart + i)
  rw [Nat.zero_add]

theorem ethernet_there_and_back_sample :
    ∃ x', (∃ a' y, updateAttrib sampleSender (sampleIpx sampleSender.myid).bytes {}
          (fun _ => false) 0 = some (a', y)
        ∧ rtwXmitframeCoalesce (fun _ b => b) 2346 a'.mlme a'.sec (staOf a' y.ra)
          (sampleIpx sampleSender.myid).bytes (sampleBuffer y) = some x')
      ∧ ∃ b' g, validateRecvFrame sampleApPeer (arrival x') = .done (.success, b', g)
        ∧ (wlanhdrToEthhdr false g).1.bytes = (sampleIpx sampleSender.myid).bytes := by
  obtain ⟨a', y, x, b', g, ht⟩ := tripRuns_of sampleTrip_own
  obtain ⟨x', hx', -, hback⟩ := @ethernet_there_and_back (fun _ b => b)
    ⟨2346, by decide⟩ (fun _ => false) 0 sampleSender a' (sampleIpx sampleSender.myid)
    (sampleBuffer {}) y sampleSender_infra ht.up (by decide) ht.encrypt
    (fun _ => of_decide_eq_true ht.fits)
  obtain rfl : x' = x := Option.some.inj (hx'.symm.trans ht.coalesce)
  obtain ⟨ret, c, k, hv, -, -, hrest⟩ := hback sampleApPeer (arrival x') rfl
    (arrival_wf (by rw [ht.size]; decide)) (arrival_bytes x')
  obtain ⟨rfl, rfl, rfl⟩ : ret = .success ∧ c = b' ∧ k = g := by
    have h := Outcome.done.inj (hv.symm.trans ht.valid)
    exact ⟨congrArg Prod.fst h, congrArg (·.2.1) h, congrArg (·.2.2) h⟩
  exact ⟨x', ⟨a', y, ht.up, hx'⟩, c, k, hv, (hrest rfl).2.2⟩

/-- **A station puts its own address for the source.** The packet of somebody else that it
hands on comes back with another source. -/
theorem ethernet_source_lost :
    ∃ (a a' b b' : Adapter) (e : EthFrame) (y : PktAttrib) (x : XmitFrame) (f g : RecvFrame),
      a.mlme.Infra
        ∧ updateAttrib a e.bytes {} (fun _ => false) 0 = some (a', y)
        ∧ y.encrypt = .noPrivacy ∧ FitsOneFragment 2346 y e.bytes
        ∧ rtwXmitframeCoalesce (fun _ b => b) 2346 a'.mlme a'.sec (staOf a' y.ra) e.bytes
          (sampleBuffer y) = some x
        ∧ b.mlme.mpState = false ∧ f.WF ∧ f.bytes = x.airBytes
        ∧ validateRecvFrame b f = .done (.success, b', g)
        ∧ (wlanhdrToEthhdr false g).2 = true
        ∧ (wlanhdrToEthhdr false g).1.bytes ≠ e.bytes := by
  obtain ⟨a', y, x, b', g, ht⟩ := tripRuns_of sampleTrip_other
  refine ⟨sampleSender, a', sampleApPeer, b', sampleIpx ⟨2, 0, 0, 0, 0, 4⟩, y, x, arrival x, g,
    sampleSender_infra, ht.up, ht.encrypt, of_decide_eq_true ht.fits, ht.coalesce, rfl,
    arrival_wf (by rw [ht.size]; decide), arrival_bytes x, ht.valid, ht.ok, ?_⟩
  rw [ht.pkt]
  decide

end Rtl8812au

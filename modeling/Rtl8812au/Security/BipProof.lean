import Rtl8812au.Security.Bip

/-!
# Protected frames come through

The verifier starts its search at the reason code, which it takes for an element. It gets over it to
the management MIC element exactly if the second byte of the code is zero and the first is not the
type it looks for.
-/

namespace Rtl8812au.Bip

open BlockMode

variable {aes : AesKey → Block → Block}

/-! ## Packet numbers -/

@[simp] theorem length_micOf (b : Block) : (micOf b).length = 8 := by simp [micOf]

/-- Six bytes of a packet number read back. -/
theorem le48_ipnBytes {m : Mem} {a ipn : Nat} (h : m.read a 6 = ipnBytes ipn) :
    le48 m a = ipn % 281474976710656 := by
  have hbytes : [m a, m (a + 1), m (a + 2), m (a + 3), m (a + 4), m (a + 5)] = ipnBytes ipn := h
  unfold ipnBytes at hbytes
  simp only [List.cons.injEq, and_true] at hbytes
  obtain ⟨h0, h1, h2, h3, h4, h5⟩ := hbytes
  unfold le48 Mem.le16
  rw [h0, h1, h2, h3, h4, h5]
  simp only [UInt8.toNat_ofNat']
  omega

/-! ## Frames -/

/-- What a sender puts behind a frame, without the MIC. -/
def mmeHead (tx : BipTx) : List UInt8 :=
  [mmeIe, 16, UInt8.ofNat tx.sec.dot11wBIPKeyid.val, 0] ++ ipnBytes tx.ipn

/-- The frame with the element, before the MIC is known. -/
def withMme (tx : BipTx) (m : Mem) (pktlen : Nat) : Mem := m.write pktlen (mmeHead tx ++ zeroMic)

/-- The MIC that the sender computes. -/
def sentMic (aes : AesKey → Block → Block) (tx : BipTx) (m : Mem) (pktlen : Nat) : List UInt8 :=
  micOf (omac1Aes128 (aes tx.sec.key)
    (bipAad (withMme tx m pktlen)
      ++ (withMme tx m pktlen).read wlanHdrA3Len (pktlen + 18 - wlanHdrA3Len)))

/-- The sender protects this frame. -/
structure Protects (tx : BipTx) (m : Mem) : Prop where
  station : tx.stationLinked = true
  installed : tx.binstallBIPkey = true
  subtype : Wifi.getFrameSubType m 0 = wifiDeauth ∨ Wifi.getFrameSubType m 0 = wifiDisassoc

section

variable {tx : BipTx} {m : Mem} {pktlen : Nat}

theorem mgmtXmitframeCoalesce_eq (h : Protects tx m) :
    mgmtXmitframeCoalesce aes tx m pktlen
      = (true, { tx with ipn := (tx.ipn + 1) % 2 ^ 64 },
        (withMme tx m pktlen).write (pktlen + 18 - 8) (sentMic aes tx m pktlen), pktlen + 18) := by
  unfold mgmtXmitframeCoalesce
  rw [if_neg (by rw [h.station]; decide), if_neg (by rw [h.installed]; decide), if_neg]
  · rfl
  · intro hno
    rcases h.subtype with hs | hs
    · exact hno.1 hs
    · exact hno.2 hs

@[simp] theorem length_mmeHead (tx : BipTx) : (mmeHead tx).length = 10 := rfl

/-- The body before the MIC is known: what was there, and the element with zeroes. -/
theorem withMme_read (tx : BipTx) (m : Mem) (k : Nat) :
    (withMme tx m (24 + k)).read 24 (k + 10) = m.read 24 k ++ mmeHead tx
      ∧ (withMme tx m (24 + k)).read 24 (k + 18) = m.read 24 k ++ mmeHead tx ++ zeroMic := by
  have hall : (withMme tx m (24 + k)).read 24 (k + 18) = m.read 24 k ++ (mmeHead tx ++ zeroMic) :=
    Mem.read_write_append m rfl
  refine ⟨?_, by rw [hall, List.append_assoc]⟩
  have htake := Mem.take_read (withMme tx m (24 + k)) (a := 24) (n := k + 18) (k := k + 10) (by omega)
  rw [← htake, hall, ← List.append_assoc]
  refine List.take_left' ?_
  simp

/-- The header is left alone. -/
theorem bipAad_write {m : Mem} {a : Nat} {bs : List UInt8} (h : 24 ≤ a) :
    bipAad (m.write a bs) = bipAad m := by
  unfold bipAad
  rw [Mem.write_of_lt (by omega), Mem.write_of_lt (by omega), Mem.read_write_disjoint (Or.inl (by omega))]

end

/-- The frame as it is received. -/
def sentFrame (aes : AesKey → Block → Block) (tx : BipTx) (m heap : Mem) (pktlen : Nat) : BipFrame where
  data := (mgmtXmitframeCoalesce aes tx m pktlen).2.2.1
  pktLen := (mgmtXmitframeCoalesce aes tx m pktlen).2.2.2
  heap := heap

theorem BipFrame.buf_read (f : BipFrame) {n : Nat} (hn : n ≤ f.bodyLen) :
    f.buf.read bipAadSize n = f.data.read wlanHdrA3Len n := by
  refine List.map_congr_left fun i hi => ?_
  have hi := List.mem_range.mp hi
  show (if bipAadSize + i < bipAadSize then _ else if bipAadSize + i < bipAadSize + f.bodyLen then _
    else _) = _
  rw [if_neg (by omega), if_pos (by omega), Nat.add_sub_cancel_left]

section

variable {tx : BipTx} {m : Mem} (aes : AesKey → Block → Block) (heap : Mem) (k : Nat)

/-- The body of a protected frame. -/
theorem sentFrame_body (h : Protects tx m) :
    (sentFrame aes tx m heap (24 + k)).bodyLen = k + 18
      ∧ (sentFrame aes tx m heap (24 + k)).data.read 24 (k + 10) = m.read 24 k ++ mmeHead tx
      ∧ (sentFrame aes tx m heap (24 + k)).data.read 24 (k + 18)
        = m.read 24 k ++ mmeHead tx ++ sentMic aes tx m (24 + k)
      ∧ bipAad (sentFrame aes tx m heap (24 + k)).data = bipAad (withMme tx m (24 + k)) := by
  unfold sentFrame BipFrame.bodyLen wlanHdrA3Len
  rw [mgmtXmitframeCoalesce_eq h]
  have hwhere : 24 + k + 18 - 8 = 24 + (k + 10) := by omega
  dsimp only
  rw [hwhere]
  refine ⟨by omega, ?_, ?_, ?_⟩
  · rw [Mem.read_write_disjoint (Or.inl (Nat.le_refl _)), (withMme_read tx m k).1]
  · have happ := Mem.read_write_append (withMme tx m (24 + k)) (a := 24) (n := k + 10)
      (length_micOf (omac1Aes128 (aes tx.sec.key) (bipAad (withMme tx m (24 + k))
        ++ (withMme tx m (24 + k)).read wlanHdrA3Len (24 + k + 18 - wlanHdrA3Len))))
    rw [(withMme_read tx m k).1] at happ
    exact happ
  · exact bipAad_write (by omega)

/-- The element of a protected frame where it stands in the buffer. -/
theorem sentFrame_mme (h : Protects tx m) :
    (sentFrame aes tx m heap (24 + k)).buf.le16 (bipAadSize + k + 2) = tx.sec.dot11wBIPKeyid.val
      ∧ (sentFrame aes tx m heap (24 + k)).ipn (bipAadSize + k) = tx.ipn % 281474976710656 := by
  obtain ⟨hlen, hhead, -, -⟩ := sentFrame_body aes heap k h
  generalize sentFrame aes tx m heap (24 + k) = f at hlen hhead ⊢
  have hbuf : f.buf.read bipAadSize (k + 10)
      = m.read 24 k ++ ([mmeIe, 16] ++ ([UInt8.ofNat tx.sec.dot11wBIPKeyid.val, 0] ++ ipnBytes tx.ipn)) := by
    rw [f.buf_read (by omega)]
    exact hhead
  have hfields : f.buf.read (bipAadSize + k + 2) 8
      = [UInt8.ofNat tx.sec.dot11wBIPKeyid.val, 0] ++ ipnBytes tx.ipn := by
    have hsplit : f.buf.read bipAadSize (k + 10) = (m.read 24 k ++ [mmeIe, 16])
        ++ (([UInt8.ofNat tx.sec.dot11wBIPKeyid.val, 0] ++ ipnBytes tx.ipn) ++ []) := by
      rw [hbuf, List.append_nil, List.append_assoc]
    have hmid := Mem.read_middle hsplit
    simpa [ipnBytes, Nat.add_assoc] using hmid
  constructor
  · have htwo : f.buf.read (bipAadSize + k + 2) 2 = [UInt8.ofNat tx.sec.dot11wBIPKeyid.val, 0] := by
      rw [← Mem.take_read f.buf (n := 8) (k := 2) (by omega), hfields]
      rfl
    have hbytes : [f.buf (bipAadSize + k + 2), f.buf (bipAadSize + k + 2 + 1)]
        = [UInt8.ofNat tx.sec.dot11wBIPKeyid.val, 0] := htwo
    simp only [List.cons.injEq, and_true] at hbytes
    unfold Mem.le16
    rw [hbytes.1, hbytes.2, UInt8.toNat_ofNat']
    have hz : (0 : UInt8).toNat * 256 = 0 := rfl
    rw [hz, Nat.add_zero]
    exact Nat.mod_eq_of_lt (Nat.lt_trans tx.sec.dot11wBIPKeyid.isLt (by decide))
  · refine le48_ipnBytes ?_
    have hdrop := Mem.drop_read f.buf (a := bipAadSize + k + 2) (n := 8) (k := 2) (by omega)
    rw [hfields] at hdrop
    exact hdrop.symm

/-- Sender and receiver put the same bytes under the MIC. -/
theorem sentFrame_micInput (h : Protects tx m) :
    (sentFrame aes tx m heap (24 + k)).micInput (bipAadSize + k) 16
        = bipAad (withMme tx m (24 + k))
          ++ (withMme tx m (24 + k)).read wlanHdrA3Len (24 + k + 18 - wlanHdrA3Len)
      ∧ (sentFrame aes tx m heap (24 + k)).lastBytes = sentMic aes tx m (24 + k) := by
  have hpkt : (sentFrame aes tx m heap (24 + k)).pktLen = 24 + k + 18 := by
    unfold sentFrame
    rw [mgmtXmitframeCoalesce_eq h]
  obtain ⟨hlen, hhead, hall, haad⟩ := sentFrame_body aes heap k h
  generalize sentFrame aes tx m heap (24 + k) = f at hpkt hlen hhead hall haad ⊢
  constructor
  · unfold BipFrame.micInput
    have hat : bipAadSize + k + 2 + 16 - 8 = bipAadSize + (k + 10) := by omega
    have hn : 24 + k + 18 - wlanHdrA3Len = k + 18 := by
      simp only [wlanHdrA3Len]
      omega
    have happ : (f.buf.write (bipAadSize + (k + 10)) zeroMic).read bipAadSize (k + 10 + 8)
        = f.buf.read bipAadSize (k + 10) ++ zeroMic := Mem.read_write_append f.buf rfl
    rw [hat, hlen, haad, hn]
    rw [f.buf_read (by omega)] at happ
    have hwith := (withMme_read tx m k).2
    rw [happ.trans (congrArg (· ++ zeroMic) hhead), ← hwith]
    rfl
  · unfold BipFrame.lastBytes
    have hat : f.pktLen - 8 = 24 + (k + 10) := by omega
    rw [hat]
    have hsplit := Mem.read_add f.data 24 (k + 10) 8
    rw [hhead] at hsplit
    have hboth := hsplit.symm.trans hall
    exact (List.append_inj hboth rfl).2

end

/-! ## The round trip -/

/-- The two bytes of a reason code. -/
def reasonBytes (reason : UInt16) : List UInt8 := [UInt8.ofNat reason.toNat, UInt8.ofNat (reason.toNat / 256)]

/-- A broadcast frame with the reason code, and with elements behind it none of which is a management
MIC element. -/
structure Carries (m : Mem) (reason : UInt16) (es : List Tlv) : Prop where
  mcast : (Wifi.getAddr1 m 0).isMcast = true
  body : m.read 24 (2 + Tlv.total es) = reasonBytes reason ++ Tlv.encode es
  plain : ∀ e ∈ es, e.id ≠ mmeIe

/-- A frame with the reason code that goes out protected is accepted under the same key, if its packet
number is greater than the last one. -/
def RoundTrip (reason : UInt16) : Prop :=
  ∀ (aes : AesKey → Block → Block) (tx : BipTx) (rx : BipRx) (m heap : Mem) (es : List Tlv),
    Protects tx m → Carries m reason es → rx.sec = tx.sec → rx.ipnRx < tx.ipn % 2 ^ 48 →
    bipVerify aes rx (sentFrame aes tx m heap (24 + (2 + Tlv.total es)))
      = .done (.success, { rx with ipnRx := tx.ipn % 2 ^ 48 })

/-- The search gets over the reason code as if it were an empty element. -/
theorem sentFrame_found (aes : AesKey → Block → Block) {tx : BipTx} {m : Mem} (heap : Mem)
    {reason : UInt16} {es : List Tlv} (h : Protects tx m) (hc : Carries m reason es) (hlow : reason.toNat < 256)
    (hne : reason.toNat ≠ 76) :
    (sentFrame aes tx m heap (24 + (2 + Tlv.total es))).mme
      = some (bipAadSize + (2 + Tlv.total es), 16) := by
  obtain ⟨hlen, -, hall, -⟩ := sentFrame_body aes heap (2 + Tlv.total es) h
  have hmic : (sentMic aes tx m (24 + (2 + Tlv.total es))).length = 8 := length_micOf _
  generalize sentMic aes tx m (24 + (2 + Tlv.total es)) = mic at hall hmic
  generalize sentFrame aes tx m heap (24 + (2 + Tlv.total es)) = f at hlen hall ⊢
  have hbodylen : (UInt8.ofNat tx.sec.dot11wBIPKeyid.val :: 0 :: (ipnBytes tx.ipn ++ mic)).length = 16 := by
    simp [ipnBytes, hmic]
  -- the body, read as a list of elements: the reason code, what it carries, and the MME
  let e : Tlv := ⟨mmeIe, UInt8.ofNat tx.sec.dot11wBIPKeyid.val :: 0 :: (ipnBytes tx.ipn ++ mic), by omega⟩
  let r : Tlv := ⟨UInt8.ofNat reason.toNat, [], by decide⟩
  have hbytes : e.bytes = mmeHead tx ++ mic := by
    show mmeIe :: UInt8.ofNat _ :: _ = _
    rw [hbodylen]
    rfl
  have hrbytes : r.bytes = reasonBytes reason := by
    have hdiv : reason.toNat / 256 = 0 := by omega
    show [UInt8.ofNat reason.toNat, UInt8.ofNat 0] = reasonBytes reason
    unfold reasonBytes
    rw [hdiv]
  have htotal : Tlv.total ((r :: es) ++ e :: []) = 2 + Tlv.total es + 18 := by
    have hsize : e.size = 18 := congrArg (· + 2) hbodylen
    simp only [Tlv.total_append, Tlv.total_cons, Tlv.total_nil, hsize]
    rfl
  have hholds : Holds f.buf bipAadSize ((r :: es) ++ e :: []) := by
    unfold Holds
    rw [htotal, f.buf_read (by omega)]
    refine hall.trans ?_
    rw [hc.body]
    simp only [Tlv.encode_append, Tlv.encode_cons, Tlv.encode_nil, hbytes, hrbytes, List.append_nil,
      List.append_assoc]
  have hplain : ∀ x ∈ r :: es, x.id ≠ mmeIe := by
    intro x hx
    rcases List.mem_cons.mp hx with rfl | hx
    · -- the low byte of the code is not the type looked for
      intro hid
      have hid : (UInt8.ofNat reason.toNat).toNat = 76 := congrArg UInt8.toNat hid
      rw [UInt8.toNat_ofNat'] at hid
      omega
    · exact hc.plain x hx
  have hfound := rtwGetIe_found hholds hplain rfl
  unfold BipFrame.mme
  rw [hlen, ← htotal, hfound]
  have hpre : Tlv.total (r :: es) = 2 + Tlv.total es := rfl
  rw [hpre, hbodylen]

theorem roundTrip_of_low {reason : UInt16} (hlow : reason.toNat < 256) (hne : reason.toNat ≠ 76) :
    RoundTrip reason := by
  intro aes tx rx m heap es h hc hsec hipn
  have hfound := sentFrame_found aes heap h hc hlow hne
  obtain ⟨hkid, hnum⟩ := sentFrame_mme aes heap (2 + Tlv.total es) h
  obtain ⟨hinput, hlast⟩ := sentFrame_micInput aes heap (2 + Tlv.total es) h
  have hlen : ¬ (sentFrame aes tx m heap (24 + (2 + Tlv.total es))).pktLen < wlanHdrA3Len := by
    unfold sentFrame
    rw [mgmtXmitframeCoalesce_eq h]
    simp only [wlanHdrA3Len]
    omega
  unfold bipVerify
  rw [if_neg hlen, hfound]
  dsimp only
  rw [hnum, if_neg (by omega), hkid, hsec, if_neg (by simp), hinput, hlast]
  exact if_pos rfl

/-! ## Codes that do not come through -/

/-- Nothing but the header and the reason code. -/
def plainFrame (reason : UInt16) : Mem := fun k =>
  if k = 0 then 0xc0
  else if 4 ≤ k ∧ k < 10 then 0xff
  else if k = 24 then UInt8.ofNat reason.toNat
  else if k = 25 then UInt8.ofNat (reason.toNat / 256)
  else 0

/-- A sender with packet number one. -/
def sampleTx : BipTx where
  stationLinked := true
  binstallBIPkey := true
  sec := ⟨4, fun _ _ => 0⟩
  ipn := 1

def sampleRx : BipRx := ⟨⟨4, fun _ _ => 0⟩, 0⟩

theorem sampleTx_protects (reason : UInt16) : Protects sampleTx (plainFrame reason) where
  station := rfl
  installed := rfl
  subtype := by
    have h0 : plainFrame reason 0 = 0xc0 := rfl
    have h1 : plainFrame reason 1 = 0 := rfl
    refine Or.inl ?_
    unfold Wifi.getFrameSubType Mem.le16
    rw [h0, h1]
    rfl

theorem plainFrame_carries (reason : UInt16) : Carries (plainFrame reason) reason [] where
  mcast := by
    have h4 : plainFrame reason 4 = 0xff := rfl
    show (plainFrame reason 4 &&& 1 != 0) = true
    rw [h4]
    rfl
  body := rfl
  plain := fun _ h => by cases h

/-- A cipher for which every MIC is zero. -/
def zeroAes : AesKey → Block → Block := fun _ _ _ => 0

/-- The plain frame as it is received, with nothing else in the heap. -/
def plainSent (reason : UInt16) : BipFrame :=
  sentFrame zeroAes sampleTx (plainFrame reason) (fun _ => 0) 26

/-- The element of the plain frame. -/
def plainMme : List UInt8 := [76, 16, 4, 0, 1, 0, 0, 0, 0, 0] ++ zeroMic

theorem plainSent_buf (reason : UInt16) :
    (plainSent reason).bodyLen = 20
      ∧ (plainSent reason).buf.read bipAadSize 20 = reasonBytes reason ++ plainMme := by
  obtain ⟨hlen, -, hall, -⟩ := sentFrame_body zeroAes (fun _ => 0) 2 (sampleTx_protects reason)
  refine ⟨hlen, ?_⟩
  rw [(plainSent reason).buf_read (Nat.le_of_eq hlen.symm)]
  have hmic : sentMic zeroAes sampleTx (plainFrame reason) 26 = zeroMic := by
    have hzero : ∀ data, omac1Aes128 (zeroAes sampleTx.sec.key) data = fun _ => 0 := by
      intro data
      unfold omac1Aes128
      split
      dsimp only
      split
      · rfl
      · rfl
    unfold sentMic
    rw [hzero]
    rfl
  have hframe := hall
  rw [hmic] at hframe
  refine hframe.trans ?_
  rw [List.append_assoc]
  rfl

theorem plainSent_byte (reason : UInt16) {i : Nat} (hi : i < 20) :
    some ((plainSent reason).buf (bipAadSize + i)) = (reasonBytes reason ++ plainMme)[i]? := by
  rw [← (plainSent_buf reason).2, Mem.getElem?_read _ hi]

/-- Behind the type of the element there is no such type again. -/
theorem plainSent_behind (reason : UInt16) {q : Nat} (hq : bipAadSize + 3 ≤ q) :
    (plainSent reason).buf q ≠ mmeIe := by
  have hlen := (plainSent_buf reason).1
  obtain ⟨i, rfl⟩ := Nat.exists_eq_add_of_le (Nat.le_trans (Nat.le_add_right bipAadSize 3) hq)
  by_cases hi : i < 20
  · have hbyte := plainSent_byte reason hi
    have hrest : ∀ j : Fin 18, 1 ≤ j.val → plainMme[j.val]? ≠ some mmeIe := by decide
    obtain ⟨j, rfl⟩ : ∃ j, i = 2 + j := ⟨i - 2, by omega⟩
    have htail : (reasonBytes reason ++ plainMme)[2 + j]? = plainMme[j]? := by
      rw [List.getElem?_append_right (by simp [reasonBytes])]
      simp [reasonBytes]
    intro heq
    rw [heq, htail] at hbyte
    exact hrest ⟨j, by omega⟩ (by simp only; omega) hbyte.symm
  · have hheap : (plainSent reason).buf (bipAadSize + i) = 0 := by
      show (if bipAadSize + i < bipAadSize then _ else
        if bipAadSize + i < bipAadSize + (plainSent reason).bodyLen then _ else (0 : UInt8)) = 0
      rw [if_neg (by omega), if_neg (by omega)]
    rw [hheap]
    decide

/-- A search that starts behind every byte of the type finds nothing. -/
theorem getIeLoop_none {m : Mem} {index : UInt8} : ∀ (fuel p rest : Nat),
    (∀ q, p ≤ q → m q ≠ index) → getIeLoop m index fuel p rest = none := by
  intro fuel
  induction fuel with
  | zero =>
      intro p rest _
      rfl
  | succ fuel ih =>
      intro p rest h
      unfold getIeLoop
      rw [if_neg (h p (Nat.le_refl p))]
      split
      · rfl
      · exact ih _ _ fun q hq => h q (by omega)

/-- With any other code the plain frame is not accepted. -/
theorem plainSent_refused {reason : UInt16} (h : ¬ (reason.toNat < 256 ∧ reason.toNat ≠ 76)) :
    ∀ rx', bipVerify zeroAes sampleRx (plainSent reason) ≠ .done (.success, rx') := by
  intro rx'
  obtain ⟨hlen, -⟩ := plainSent_buf reason
  have hb0 : (plainSent reason).buf bipAadSize = UInt8.ofNat reason.toNat :=
    Option.some.inj (plainSent_byte reason (i := 0) (by decide))
  have hb1 : (plainSent reason).buf (bipAadSize + 1) = UInt8.ofNat (reason.toNat / 256) :=
    Option.some.inj (plainSent_byte reason (i := 1) (by decide))
  -- the frame is long enough to be looked at
  have hpkt : ¬ (plainSent reason).pktLen < wlanHdrA3Len := by
    have hbody : (plainSent reason).pktLen - wlanHdrA3Len = 20 := hlen
    omega
  unfold bipVerify
  rw [if_neg hpkt]
  by_cases hlow : UInt8.ofNat reason.toNat = mmeIe
  · -- the code itself is taken for the element, and the type and length for its key id
    have hmme : (plainSent reason).mme = some (bipAadSize, ((plainSent reason).buf (bipAadSize + 1)).toNat) := by
      unfold BipFrame.mme
      rw [hlen]
      show getIeLoop _ _ 20 bipAadSize 20 = _
      unfold getIeLoop
      rw [if_pos (hb0.trans hlow)]
    have hkid : (plainSent reason).buf.le16 (bipAadSize + 2) = 4172 := by
      have hb2 : (plainSent reason).buf (bipAadSize + 2) = 76 :=
        Option.some.inj (plainSent_byte reason (i := 2) (by decide))
      have hb3 : (plainSent reason).buf (bipAadSize + 2 + 1) = 16 :=
        Option.some.inj (plainSent_byte reason (i := 3) (by decide))
      unfold Mem.le16
      rw [hb2, hb3]
      rfl
    rw [hmme]
    dsimp only
    split
    · intro hf
      cases hf
    · rw [hkid, if_pos (by decide)]
      intro hf
      cases hf
  · -- the search goes by the high byte of the code, past the element
    have hhigh : 1 ≤ (UInt8.ofNat (reason.toNat / 256)).toNat := by
      have hlt := reason.toNat_lt
      rw [UInt8.toNat_ofNat']
      have hne : reason.toNat % 256 = reason.toNat → reason.toNat ≠ 76 := by
        intro _ h76
        rw [h76] at hlow
        exact hlow rfl
      omega
    have hmme : (plainSent reason).mme = none := by
      unfold BipFrame.mme
      rw [hlen]
      show getIeLoop _ _ 20 bipAadSize 20 = none
      unfold getIeLoop
      rw [if_neg (by rw [hb0]; exact hlow)]
      split
      · rfl
      · refine getIeLoop_none _ _ _ fun q hq => plainSent_behind reason ?_
        rw [hb1] at hq
        omega
    rw [hmme]
    intro hf
    cases hf

theorem not_roundTrip {reason : UInt16} (h : ¬ (reason.toNat < 256 ∧ reason.toNat ≠ 76)) :
    ¬ RoundTrip reason := by
  intro hrt
  exact plainSent_refused h _ (hrt zeroAes sampleTx sampleRx (plainFrame reason) (fun _ => 0) []
    (sampleTx_protects reason) (plainFrame_carries reason) rfl (by decide))

/-! ## Replays -/

/-- What a frame must be for the verifier to accept it: there is an element in it, with the key id of
the receiver, and the last eight bytes are the MIC. -/
def Genuine (aes : AesKey → Block → Block) (sec : BipSec) (f : BipFrame) (ipn : Nat) : Prop :=
  ∃ p len, f.mme = some (p, len) ∧ f.ipn p = ipn ∧ f.buf.le16 (p + 2) = sec.dot11wBIPKeyid.val
    ∧ f.lastBytes = micOf (omac1Aes128 (aes sec.key) (f.micInput p len))

/-- The packet number that the verifier reads. -/
def BipFrame.number (f : BipFrame) : Option Nat := f.mme.map fun e => f.ipn e.1

theorem bipVerify_success {rx rx' : BipRx} {f : BipFrame}
    (h : bipVerify aes rx f = .done (.success, rx')) :
    ∃ ipn, Genuine aes rx.sec f ipn ∧ f.number = some ipn ∧ rx.ipnRx < ipn
      ∧ rx' = { rx with ipnRx := ipn } := by
  unfold bipVerify at h
  split at h
  · cases h
  · cases hm : f.mme with
    | none =>
        rw [hm] at h
        cases h
    | some e =>
        obtain ⟨p, len⟩ := e
        rw [hm] at h
        dsimp only at h
        split at h
        · cases h
        · rename_i hipn
          split at h
          · cases h
          · rename_i hkid
            split at h
            · rename_i hmic
              cases h
              exact ⟨f.ipn p, ⟨p, len, hm, rfl, not_not.mp hkid, hmic.symm⟩, by
                unfold BipFrame.number
                rw [hm]
                rfl, Nat.lt_of_not_le hipn, rfl⟩
            · cases h

/-- What is not a success changes nothing. -/
theorem bipVerify_other {rx rx' : BipRx} {f : BipFrame} {res : BipResult}
    (h : bipVerify aes rx f = .done (res, rx')) (hres : res ≠ .success) : rx' = rx := by
  unfold bipVerify at h
  split at h
  · cases h
  · cases hm : f.mme with
    | none =>
        rw [hm] at h
        cases h
        rfl
    | some e =>
        rw [hm] at h
        dsimp only at h
        split at h
        · cases h
          rfl
        · split at h
          · cases h
            rfl
          · split at h
            · cases h
              exact absurd rfl hres
            · cases h
              rfl

/-- The accepted frames are genuine, and their packet numbers rise up to the last one. -/
structure BipInv (aes : AesKey → Block → Block) (sec : BipSec) (s : BipLog) : Prop where
  sec_eq : s.rx.sec = sec
  genuine : ∀ f ∈ s.accepted, ∃ ipn, Genuine aes sec f ipn ∧ f.number = some ipn ∧ ipn ≤ s.rx.ipnRx
  rising : s.accepted.Pairwise fun f g => ∀ i j, f.number = some i → g.number = some j → i < j

theorem BipInv.step {sec : BipSec} {s s' : BipLog} {f : BipFrame} (h : BipInv aes sec s)
    (hstep : bipStep aes s f = .done s') : BipInv aes sec s' := by
  unfold bipStep at hstep
  obtain ⟨⟨res, rx⟩, hver, hs'⟩ := Outcome.bind_eq_done.mp hstep
  cases hs'
  by_cases hres : res = .success
  · subst hres
    obtain ⟨ipn, hgen, hnum, hlt, rfl⟩ := bipVerify_success hver
    rw [if_pos rfl]
    refine ⟨h.sec_eq, ?_, ?_⟩
    · intro g hg
      rcases List.mem_append.mp hg with hg | hg
      · obtain ⟨i, hgi, hni, hle⟩ := h.genuine g hg
        exact ⟨i, hgi, hni, Nat.le_of_lt (Nat.lt_of_le_of_lt hle hlt)⟩
      · rw [List.mem_singleton.mp hg]
        rw [h.sec_eq] at hgen
        exact ⟨ipn, hgen, hnum, Nat.le_refl ipn⟩
    · refine List.pairwise_append.mpr ⟨h.rising, List.pairwise_singleton _ f, ?_⟩
      intro g hg f' hf' i j hi hj
      rw [List.mem_singleton.mp hf', hnum] at hj
      cases hj
      obtain ⟨i', -, hi', hle⟩ := h.genuine g hg
      rw [hi'] at hi
      cases hi
      exact Nat.lt_of_le_of_lt hle hlt
  · rw [if_neg hres, bipVerify_other hver hres]
    exact h

/-- **Protection of broadcast management frames.** The round trip works for exactly the reason codes
below 256 other than 76. Whatever frames come in, those that are accepted are genuine and their packet
numbers rise. -/
theorem bip_protects_iff (reason : UInt16) :
    (RoundTrip reason ↔ reason.toNat < 256 ∧ reason.toNat ≠ 76)
      ∧ ∀ (aes : AesKey → Block → Block) (rx : BipRx) (s : BipLog),
        Reach (bipStep aes) (fun _ _ => True) ⟨rx, []⟩ s →
          (∀ f ∈ s.accepted, ∃ ipn, Genuine aes rx.sec f ipn)
            ∧ s.accepted.Pairwise fun f g => ∀ i j, f.number = some i → g.number = some j → i < j := by
  constructor
  · constructor
    · intro h
      by_contra hbad
      exact not_roundTrip hbad h
    · intro h
      exact roundTrip_of_low h.1 h.2
  · intro aes rx s h
    have hinv : BipInv aes rx.sec s := by
      refine Reach.invariant (BipInv aes rx.sec) ?_ ?_ h
      · exact ⟨rfl, fun _ hf => absurd hf List.not_mem_nil, List.Pairwise.nil⟩
      · intro s s' f hs _ hstep
        exact hs.step hstep
    refine ⟨fun f hf => ?_, hinv.rising⟩
    obtain ⟨ipn, hgen, -, -⟩ := hinv.genuine f hf
    exact ⟨ipn, hgen⟩

/-- A frame with reason 7 is accepted. -/
theorem bip_protects_sample :
    ∃ s, Reach (bipStep zeroAes) (fun _ _ => True) ⟨sampleRx, []⟩ s ∧ s.accepted = [plainSent 7]
      ∧ ∀ f ∈ s.accepted, ∃ ipn, Genuine zeroAes sampleRx.sec f ipn := by
  have hver : bipVerify zeroAes sampleRx (plainSent 7) = .done (.success, { sampleRx with ipnRx := 1 }) :=
    (bip_protects_iff 7).1.mpr ⟨by decide, by decide⟩ zeroAes sampleTx sampleRx (plainFrame 7) (fun _ => 0)
      [] (sampleTx_protects 7) (plainFrame_carries 7) rfl (by decide)
  have hstep : bipStep zeroAes ⟨sampleRx, []⟩ (plainSent 7)
      = .done ⟨{ sampleRx with ipnRx := 1 }, [plainSent 7]⟩ := by
    unfold bipStep
    rw [hver]
    rfl
  have hreach : Reach (bipStep zeroAes) (fun _ _ => True) ⟨sampleRx, []⟩
      ⟨{ sampleRx with ipnRx := 1 }, [plainSent 7]⟩ := Reach.next .start trivial hstep
  exact ⟨_, hreach, rfl, ((bip_protects_iff 7).2 zeroAes sampleRx _ hreach).1⟩

/-- Reason 76 is taken for the element, and with reason 256 the search goes past it. -/
theorem bip_reason_lost :
    ¬ RoundTrip 76 ∧ ¬ RoundTrip 256
      ∧ (plainSent 76).mme = some (20, 0) ∧ (plainSent 256).mme = none :=
  ⟨not_roundTrip (by decide), not_roundTrip (by decide), by decide, by decide⟩

end Rtl8812au.Bip

import Rtl8812au.Xmit.Coalesce
import Rtl8812au.Security.CcmpProof

/-!
# One fragment, one packet number

An MSDU that fits one fragment is found again by `xmitframe_addmic` and by software
encryption exactly where `rtw_xmitframe_coalesce` put it, and the IV in front of its
payload still holds the packet number that `update_attrib_sec_info` took. Over a run
of such MSDUs no packet number is used twice.

With more than one fragment neither holds: the encryption loops step by `frag_len`
where the layout steps by `frag_len - 4` and the descriptor room, and every fragment
gets a copy of the one IV of its MSDU.
-/

namespace Rtl8812au

open BlockMode

/-! ## Addresses -/

theorem rnd4_of_dvd {x : Nat} (h : x % 4 = 0) : rnd4 x = x := by
  unfold rnd4
  rw [if_pos h]
  omega

theorem hwHdrOffset_mod (k : Nat) : hwHdrOffset k % 4 = 0 := by
  unfold hwHdrOffset txdescSize packetOffsetSz
  omega

theorem toU32_of_nonneg {x : Int} (h : 0 ≤ x) (h' : x < 2 ^ 32) : toU32 x = x.toNat := by
  unfold toU32
  rw [Int.emod_eq_of_lt h h']

/-! ## Sixteen-bit fields in memory -/

theorem le16_write (m : Mem) (p : Nat) {v : Nat} (h : v < 2 ^ 16) :
    (m.write p (le16Bytes v)).le16 p = v := by
  have h0 : m.write p (le16Bytes v) p = UInt8.ofNat v := by
    have := @Mem.write_inside m p 0 (le16Bytes v) (by simp [le16Bytes])
    simpa [le16Bytes] using this
  have h1 : m.write p (le16Bytes v) (p + 1) = UInt8.ofNat (v / 256) := by
    have := @Mem.write_inside m p 1 (le16Bytes v) (by simp [le16Bytes])
    simpa [le16Bytes] using this
  unfold Mem.le16
  rw [h0, h1, UInt8.toNat_ofNat', UInt8.toNat_ofNat']
  omega

theorem le16_write_disjoint {m : Mem} {p q : Nat} {bs : List UInt8}
    (h : p + 2 ≤ q ∨ q + bs.length ≤ p) : (m.write q bs).le16 p = m.le16 p := by
  unfold Mem.le16
  rcases h with h | h
  · rw [Mem.write_of_lt (by omega), Mem.write_of_lt (by omega)]
  · rw [Mem.write_of_ge (by omega), Mem.write_of_ge (by omega)]

theorem length_le16Bytes (v : Nat) : (le16Bytes v).length = 2 := rfl

/-! ## The first header -/

/-- The frame-control bits above the subtype that a data header can have. -/
def FctrlOf (subtype fc : Nat) : Prop :=
  fc < 2 ^ 16 ∧ fc &&& 0xfc = subtype

theorem wlanhdrForMode_ds {mlme : MlmePriv} {a : PktAttrib}
    {ds : Nat} {r : MacAddr × MacAddr × MacAddr × Bool}
    (h : wlanhdrForMode mlme a = some (ds, r)) : ds = 0x100 ∨ ds = 0x200 ∨ ds = 0 := by
  unfold wlanhdrForMode at h
  split_ifs at h
  · exact Or.inl (by simpa using congrArg (fun o => (o.map (·.1)).getD 0) h.symm)
  · exact Or.inr (Or.inl (by simpa using congrArg (fun o => (o.map (·.1)).getD 0) h.symm))
  · exact Or.inr (Or.inr (by simpa using congrArg (fun o => (o.map (·.1)).getD 0) h.symm))

theorem wlanhdrFctrl_of (a : PktAttrib) {ds : Nat} (h : ds = 0x100 ∨ ds = 0x200 ∨ ds = 0) :
    FctrlOf a.subtype (wlanhdrFctrl ds a) := by
  unfold FctrlOf wlanhdrFctrl
  rcases a.hdr with ⟨hs, -⟩ | ⟨hs, -⟩ <;> rw [hs] <;> rcases h with rfl | rfl | rfl <;>
    cases a.mdata <;> by_cases he : a.encrypt = .noPrivacy <;> simp [he] <;> decide

/-- A successful `rtw_make_wlanhdr` gives the attributes a sequence number and leaves
the subtype in the frame-control field. -/
theorem rtwMakeWlanhdr_some {mlme : MlmePriv} {lookup : Option (Nat × StaInfo)} {m m' : Mem}
    {hdr : Nat} {a a' : PktAttrib} (h : rtwMakeWlanhdr mlme lookup m hdr a = some (m', a')) :
    (∃ seqnum, a' = { a with seqnum := seqnum }) ∧ FctrlOf a.subtype (m'.le16 hdr) := by
  have hlen : 24 ≤ a.hdrlen := by
    rcases a.hdr with ⟨-, h⟩ | ⟨-, h⟩ <;> omega
  unfold rtwMakeWlanhdr at h
  cases hmode : wlanhdrForMode mlme a with
  | none => rw [hmode] at h; exact absurd h (by simp)
  | some r =>
      obtain ⟨ds, addr1, addr2, addr3, qosOption⟩ := r
      have hfc := wlanhdrFctrl_of a (wlanhdrForMode_ds hmode)
      rw [hmode] at h
      dsimp only at h
      cases lookup with
      | none => exact absurd h (by simp)
      | some p =>
          obtain ⟨id, psta⟩ := p
          dsimp only at h
          split_ifs at h with h1 h2 h3
          all_goals
            obtain ⟨rfl, rfl⟩ := Prod.mk.inj (Option.some.inj h)
            refine ⟨⟨_, rfl⟩, ?_⟩
            unfold orLe16 at *
          · rw [le16_write_disjoint (Or.inl (by omega)), le16_write_disjoint (Or.inl (by omega)),
              le16_write_disjoint (Or.inl (by omega)), le16_write _ _ hfc.1]
            exact hfc
          · rw [le16_write_disjoint (Or.inl (by omega)), le16_write_disjoint (Or.inl (by omega)),
              le16_write _ _ hfc.1]
            exact hfc

/-! ## Laying out one fragment -/

section

variable {a : PktAttrib} {memStart : Nat} {snap data : List UInt8} {m : Mem}

theorem hdrlen_ge (a : PktAttrib) : 24 ≤ a.hdrlen := by
  rcases a.hdr with ⟨-, h⟩ | ⟨-, h⟩ <;> omega

/-- The header stays, but for the more-fragments bit. -/
theorem le16_layFragment (h : m.le16 memStart < 2 ^ 16) :
    (layFragment a memStart snap data m).le16 memStart = m.le16 memStart ||| 0x400 := by
  have hh := hdrlen_ge a
  have hor : m.le16 memStart ||| 0x400 < 2 ^ 16 := Nat.or_lt_two_pow h (by decide)
  unfold layFragment setMFrag orLe16
  dsimp only
  rw [le16_write_disjoint (Or.inl (by omega)), le16_write_disjoint (Or.inl (by omega)),
    le16_write_disjoint (Or.inl (by omega)), le16_write_disjoint (Or.inl (by omega)),
    le16_write _ _ hor]

/-- The IV stands behind the header. -/
theorem iv_layFragment (hiv : a.iv.length = a.ivLen) :
    (layFragment a memStart snap data m).read (memStart + a.hdrlen) a.ivLen = a.iv := by
  unfold layFragment
  dsimp only
  rw [Mem.read_write_disjoint (Or.inl (by omega)), Mem.read_write_disjoint (Or.inl (by omega)),
    Mem.read_write_disjoint (Or.inl (by omega)), List.take_of_length_le (by omega), ← hiv,
    Mem.read_write_self]

end

/-- Clearing the more-fragments bit again leaves the subtype and all that follows. -/
theorem read_clearMFrag {m : Mem} {p q n : Nat} (h : p + 2 ≤ q) :
    (clearMFrag m p).read q n = m.read q n := by
  unfold clearMFrag
  exact Mem.read_write_disjoint (Or.inr (by rw [length_le16Bytes]; exact h))

theorem fctrl_clearMFrag {m : Mem} {p subtype fc : Nat} (hfc : FctrlOf subtype fc)
    (h : m.le16 p = fc ||| 0x400) : FctrlOf subtype ((clearMFrag m p).le16 p) := by
  have hlt : (fc ||| 0x400) &&& 0xfbff < 2 ^ 16 :=
    Nat.lt_of_le_of_lt Nat.and_le_right (by decide)
  unfold clearMFrag
  rw [le16_write _ _ (by rw [h]; exact hlt), h]
  refine ⟨hlt, ?_⟩
  rw [Nat.and_assoc, Nat.and_or_distrib_right]
  have h1 : (0xfbff : Nat) &&& 0xfc = 0xfc := by decide
  have h2 : (0x400 : Nat) &&& 0xfc = 0 := by decide
  rw [h1, h2, Nat.or_zero]
  exact hfc.2

/-! ## An MSDU that fits one fragment -/

/-- The bytes of the packet behind its Ethernet header, with everything that is put
around them, fit `frag_len` less the four bytes of the FCS. -/
def FitsOneFragment (fragLen : Nat) (a : PktAttrib) (pkt : List UInt8) : Prop :=
  a.hdrlen + a.ivLen + 8 + (pkt.length - a.pktHdrlen) + icvRoom a + 4 ≤ fragLen

/-- What is left of `frag_len` then holds the whole packet. -/
theorem readLen_of_fits (p : XmitPriv) {a : PktAttrib} {pkt : List UInt8}
    (hra : a.ra.isMcast = false) (hfit : FitsOneFragment p.fragLen a pkt) :
    (pkt.drop a.pktHdrlen).length ≤ readLen p.fragLen a 8 := by
  have hp := p.range
  unfold FitsOneFragment at hfit
  unfold readLen mpduLen
  rw [if_neg (by simp [hra]), List.length_drop, toU32_of_nonneg (by omega) (by omega)]
  omega

/-- The frame of an MSDU that fits one fragment, as laid out. -/
def soleFragment (x : XmitFrame) (a : PktAttrib) (m : Mem) (data : List UInt8) : XmitFrame :=
  { x with
    mem := clearMFrag (layFragment a x.firstStart (rtwPutSnap a.etherType) data m) x.firstStart
    frags := [⟨x.firstStart, 8, data.length⟩]
    attrib := { a with nrFrags := 1
                       lastTxcmdsz := a.hdrlen + a.ivLen + 8 + icvRoom a + data.length } }

/-- **The loop takes one turn** when it reads the whole packet in that. -/
theorem coalesceLoop_sole {fragLen fuel : Nat} {a : PktAttrib} {data : List UInt8}
    (x : XmitFrame) (m : Mem) (hread : data.length ≤ readLen fragLen a 8) :
    coalesceLoop fragLen a (hwHdrOffset x.pktOffset) x.firstStart (fuel + 1) 0 x.firstStart data m
      = some ((soleFragment x a m data).mem, [⟨x.firstStart, 8, data.length⟩]) := by
  have hsnap : (rtwPutSnap a.etherType).length = 8 := rfl
  rw [coalesceLoop]
  simp only [if_true]
  rw [hsnap, Nat.min_eq_right hread, List.take_length, List.drop_length]
  rw [if_pos (by simp)]
  rfl

/-- Then the frame is laid out as soon as its header is made. -/
theorem coalesceFrags_of_make {fragLen : Nat} {mlme : MlmePriv} {lookup : Option (Nat × StaInfo)}
    {pkt : List UInt8} {x : XmitFrame} {m : Mem} {seqnum : Nat} (hbuf : x.bufAddr ≠ 0)
    (hread : (pkt.drop x.attrib.pktHdrlen).length ≤ readLen fragLen x.attrib 8)
    (hmk : rtwMakeWlanhdr mlme lookup x.mem x.firstStart x.attrib
      = some (m, { x.attrib with seqnum := seqnum })) :
    coalesceFrags fragLen mlme lookup pkt x = some (soleFragment x
      { x.attrib with seqnum := seqnum } m (pkt.drop x.attrib.pktHdrlen)) := by
  have hread' : (pkt.drop x.attrib.pktHdrlen).length
      ≤ readLen fragLen { x.attrib with seqnum := seqnum } 8 := hread
  unfold coalesceFrags
  rw [if_neg hbuf, hmk]
  dsimp only
  rw [coalesceLoop_sole x m hread']
  rfl

/-- And it is laid out in no other way. -/
theorem coalesceFrags_sole {fragLen : Nat} {mlme : MlmePriv} {lookup : Option (Nat × StaInfo)}
    {pkt : List UInt8} {x x' : XmitFrame}
    (hread : (pkt.drop x.attrib.pktHdrlen).length ≤ readLen fragLen x.attrib 8)
    (h : coalesceFrags fragLen mlme lookup pkt x = some x') :
    ∃ m seqnum, rtwMakeWlanhdr mlme lookup x.mem x.firstStart x.attrib
        = some (m, { x.attrib with seqnum := seqnum })
      ∧ x' = soleFragment x { x.attrib with seqnum := seqnum } m
          (pkt.drop x.attrib.pktHdrlen) := by
  have hbuf : x.bufAddr ≠ 0 := by
    intro h0
    rw [coalesceFrags, if_pos h0] at h
    cases h
  cases hmk : rtwMakeWlanhdr mlme lookup x.mem x.firstStart x.attrib with
  | none =>
      rw [coalesceFrags, if_neg hbuf, hmk] at h
      cases h
  | some r =>
      obtain ⟨m, a⟩ := r
      obtain ⟨⟨seqnum, rfl⟩, -⟩ := rtwMakeWlanhdr_some hmk
      rw [coalesceFrags_of_make hbuf hread hmk] at h
      exact ⟨m, seqnum, rfl, (Option.some.inj h).symm⟩

/-- That is so when everything fits. -/
theorem coalesceFrags_single (p : XmitPriv) {mlme : MlmePriv} {lookup : Option (Nat × StaInfo)}
    {pkt : List UInt8} {x x' : XmitFrame} (hra : x.attrib.ra.isMcast = false)
    (hfit : FitsOneFragment p.fragLen x.attrib pkt)
    (h : coalesceFrags p.fragLen mlme lookup pkt x = some x') :
    ∃ m seqnum, FctrlOf x.attrib.subtype (m.le16 x.firstStart)
      ∧ x' = soleFragment x { x.attrib with seqnum := seqnum } m
          (pkt.drop x.attrib.pktHdrlen) := by
  obtain ⟨m, seqnum, hmk, hx⟩ := coalesceFrags_sole (readLen_of_fits p hra hfit) h
  obtain ⟨-, hfc⟩ := rtwMakeWlanhdr_some hmk
  exact ⟨m, seqnum, hfc, hx⟩

/-! ## The ranges software crypto works on -/

/-- The parts of a fragment, each with its address and length. -/
structure Ranges where
  hdr : Nat × Nat
  iv : Nat × Nat
  payload : Nat × Nat
  icv : Nat × Nat
  deriving Repr, DecidableEq

/-- The parts one behind the other. -/
def Ranges.from (start hdrlen ivLen length icvLen : Nat) : Ranges where
  hdr := (start, hdrlen)
  iv := (start + hdrlen, ivLen)
  payload := (start + hdrlen + ivLen, length)
  icv := (start + hdrlen + ivLen + length, icvLen)

/-- What `rtw_xmitframe_coalesce` wrote for a fragment. -/
def Fragment.ranges (a : PktAttrib) (f : Fragment) : Ranges :=
  .from f.memStart a.hdrlen a.ivLen (f.llcSz + f.memSz) (icvRoom a)

/-- What the cipher reads and overwrites for a turn of its loop. `aes_cipher` adds the
QoS control field to the header length by itself. -/
def cryptRanges (a : PktAttrib) (m : Mem) (r : Nat × Int) : Ranges :=
  match a.encrypt with
  | .aes => .from r.1 (Ccmp.adjustHdrlen (m.shift r.1) a.hdrlen) 8 (toU32 r.2) 8
  | _ => .from r.1 a.hdrlen a.ivLen (toU32 r.2) 4

/-- The payload ranges `xmitframe_addmic` takes into the MIC. -/
def micRanges (fragLen : Nat) (x : XmitFrame) : List (Nat × Nat) :=
  (addmicWalk fragLen x.attrib x.attrib.nrFrags x.firstStart).map fun r => (r.1, toU32 r.2)

/-- Every fragment is found where it was put: `x` is laid out, `x'` is what
`xmitframe_addmic` made of it. -/
def CryptoSeesFragments (fragLen : Nat) (x x' : XmitFrame) : Prop :=
  (x.attrib.encrypt = .tkip →
      micRanges fragLen x = x.frags.map fun f => (f.ranges x.attrib).payload)
    ∧ (x'.walk fragLen).map (cryptRanges x'.attrib x'.mem) = x.frags.map (·.ranges x.attrib)

/-- The lengths and the IV that `update_attrib_sec_info` fills in belong to the cipher. -/
structure PktAttrib.Secured (a : PktAttrib) : Prop where
  ivLen : a.ivLen = a.encrypt.ivLen
  icvLen : a.icvLen = a.encrypt.icvLen
  iv : a.iv.length = a.ivLen

theorem frtype_of {m : Mem} {subtype : Nat} (h : FctrlOf subtype (m.le16 0)) :
    Ccmp.frtype m = subtype &&& 0xc ∧ Ccmp.frsubtype m = subtype >>> 4 := by
  unfold Ccmp.frtype Ccmp.frsubtype
  rw [h.2, ← h.2, Nat.and_assoc]
  exact ⟨rfl, rfl⟩

/-- With the header lengths of `update_attrib` there is nothing to add. -/
theorem adjustHdrlen_of {a : PktAttrib} {m : Mem} (h : FctrlOf a.subtype (m.le16 0)) :
    Ccmp.adjustHdrlen m a.hdrlen = a.hdrlen := by
  obtain ⟨h1, h2⟩ := frtype_of h
  unfold Ccmp.adjustHdrlen Ccmp.qcExists
  rw [h1, h2]
  rcases a.hdr with ⟨hs, hl⟩ | ⟨-, hl⟩
  · rw [hs, if_neg (by simp [wifiDataType])]
  · rw [if_neg (by rw [hl]; simp [wlanHdrA3QosLen])]

section

variable {x : XmitFrame} {a : PktAttrib} {m : Mem} {data : List UInt8}

theorem firstStart_mod (x : XmitFrame) : x.firstStart % 4 = 0 := by
  have h1 := x.aligned
  have h2 := hwHdrOffset_mod x.pktOffset
  unfold XmitFrame.firstStart
  omega

/-- The frame-control field of the laid-out frame. -/
theorem fctrl_soleFragment (h : FctrlOf a.subtype (m.le16 x.firstStart)) :
    FctrlOf a.subtype ((soleFragment x a m data).mem.le16 x.firstStart) :=
  fctrl_clearMFrag h (le16_layFragment h.1)

/-- The IV of the laid-out frame. -/
theorem iv_soleFragment (hiv : a.iv.length = a.ivLen) :
    (soleFragment x a m data).mem.read (x.firstStart + a.hdrlen) a.ivLen = a.iv := by
  have hh := hdrlen_ge a
  unfold soleFragment
  dsimp only
  rw [read_clearMFrag (by omega), iv_layFragment hiv]

/-- The one range `xmitframe_addmic` looks at is the payload. -/
theorem addmicWalk_soleFragment (fragLen : Nat) :
    addmicWalk fragLen (soleFragment x a m data).attrib (soleFragment x a m data).attrib.nrFrags
        (soleFragment x a m data).firstStart
      = [(x.firstStart + a.hdrlen + a.ivLen, ((8 + data.length : Nat) : Int))] := by
  have hr : icvRoom (soleFragment x a m data).attrib = icvRoom a := rfl
  have hs : (soleFragment x a m data).firstStart = x.firstStart := rfl
  have hn : (soleFragment x a m data).attrib.nrFrags = 1 := rfl
  rw [hn, addmicWalk, hr, hs, rnd4_of_dvd (firstStart_mod x)]
  refine congrArg (fun l => [(_, l)]) ?_
  show ((a.hdrlen + a.ivLen + 8 + icvRoom a + data.length : Nat) : Int) - a.hdrlen - a.ivLen
    - icvRoom a = _
  omega

/-- The MIC goes right behind the payload. -/
theorem micAt_soleFragment (fragLen : Nat) :
    micAt (addmicWalk fragLen (soleFragment x a m data).attrib
        (soleFragment x a m data).attrib.nrFrags (soleFragment x a m data).firstStart)
        (soleFragment x a m data).firstStart
      = x.firstStart + a.hdrlen + a.ivLen + (8 + data.length) := by
  rw [addmicWalk_soleFragment]
  show (((x.firstStart + a.hdrlen + a.ivLen : Nat) : Int) + ((8 + data.length : Nat) : Int)).toNat
    = _
  omega

/-- What `xmitframe_addmic` does to the frame. -/
theorem xmitframeAddmic_soleFragment {fragLen : Nat} {sec : SecurityPriv} {x' : XmitFrame}
    (h : xmitframeAddmic fragLen sec (soleFragment x a m data) = some x') :
    (a.encrypt ≠ .tkip ∧ x' = soleFragment x a m data)
      ∨ a.encrypt = .tkip ∧ ∃ mic : List UInt8, mic.length = 8
        ∧ x' = { soleFragment x a m data with
            mem := (soleFragment x a m data).mem.write
              (x.firstStart + a.hdrlen + a.ivLen + (8 + data.length)) mic
            attrib := { (soleFragment x a m data).attrib with
              lastTxcmdsz := a.hdrlen + a.ivLen + 8 + icvRoom a + data.length + 8 } } := by
  have henc : (soleFragment x a m data).attrib.encrypt = a.encrypt := rfl
  unfold xmitframeAddmic at h
  rw [henc] at h
  by_cases hc : a.encrypt = .tkip
  · right
    refine ⟨hc, ?_⟩
    rw [if_neg (by rw [not_not]; exact hc)] at h
    dsimp only at h
    by_cases hk : (txMicKey sec (soleFragment x a m data).attrib).isNull
    · rw [if_pos hk] at h
      exact absurd h (by simp)
    · rw [if_neg hk, micAt_soleFragment] at h
      refine ⟨_, ?_, (Option.some.inj h).symm⟩
      rfl
  · left
    rw [if_pos hc] at h
    exact ⟨hc, (Option.some.inj h).symm⟩

end

/-! ## What encryption leaves alone -/

theorem rc4Seal_outside {key : List UInt8} {m : Mem} {payload length k : Nat}
    (h : k < payload ∨ payload + length + 4 ≤ k) : rc4Seal key m payload length k = m k := by
  unfold rc4Seal
  have h1 : (arcfourEncrypt (arcfourInit key key.length) (m.read payload length)).1.length
      = length := by rw [length_arcfourEncrypt, Mem.length_read]
  have h2 : ∀ c v, (arcfourEncrypt c (le32Bytes v)).1.length = 4 := fun c v => by
    rw [length_arcfourEncrypt, length_le32Bytes]
  rcases h with h | h
  · rw [Mem.write_of_lt (by omega), Mem.write_of_lt (by omega)]
  · rw [Mem.write_of_ge (by rw [h2]; omega), Mem.write_of_ge (by rw [h1]; omega)]

theorem aesCipher_outside {aes : AesKey → Block → Block} {key : AesKey} {hdrlen plen k : Nat}
    {m : Mem} (hh : 24 ≤ hdrlen) (hadj : Ccmp.adjustHdrlen m hdrlen = hdrlen)
    (h : k < hdrlen + 8 ∨ hdrlen + 8 + plen + 8 ≤ k) :
    Ccmp.aesCipher aes key hdrlen m plen k = m k := by
  unfold Ccmp.aesCipher
  rw [hadj, Ccmp.sealPayload_eq hh, storeBlock_outside (by omega)]
  rcases h with h | h
  · exact ctrPayload_below (Ccmp.keyStream_below hh) _ _ k h
  · exact ctrPayload_above (Ccmp.keyStream_below hh) _ (by omega)

/-- **Encryption of one fragment** changes no byte outside its payload and ICV. -/
theorem xmitframeSwencrypt_outside {aes : AesKey → Block → Block} {fragLen : Nat}
    {sec : SecurityPriv} {x : XmitFrame} {r : Nat × Int} {k : Nat}
    (hw : x.walk fragLen = [r]) (hfc : FctrlOf x.attrib.subtype (x.mem.le16 r.1))
    (hk : k < (cryptRanges x.attrib x.mem r).payload.1
      ∨ (cryptRanges x.attrib x.mem r).icv.1 + (cryptRanges x.attrib x.mem r).icv.2 ≤ k) :
    (xmitframeSwencrypt aes fragLen sec x).mem k = x.mem k := by
  have hh := hdrlen_ge x.attrib
  have hadj : Ccmp.adjustHdrlen (x.mem.shift r.1) x.attrib.hdrlen = x.attrib.hdrlen :=
    adjustHdrlen_of hfc
  unfold xmitframeSwencrypt
  split_ifs with hb
  · cases hc : x.attrib.encrypt with
    -- RC4 writes to the payload and to the ICV behind it
    | wep40 =>
        unfold rtwWepEncrypt
        unfold cryptRanges Ranges.from at hk
        rw [hc] at hk
        dsimp only at hk ⊢
        rw [hw]
        exact rc4Seal_outside (by omega)
    | wep104 =>
        unfold rtwWepEncrypt
        unfold cryptRanges Ranges.from at hk
        rw [hc] at hk
        dsimp only at hk ⊢
        rw [hw]
        exact rc4Seal_outside (by omega)
    | tkip =>
        unfold rtwTkipEncrypt
        unfold cryptRanges Ranges.from at hk
        rw [hc] at hk
        dsimp only at hk ⊢
        rw [hw]
        exact rc4Seal_outside (by omega)
    | aes =>
        unfold rtwAesEncrypt
        unfold cryptRanges Ranges.from at hk
        rw [hc] at hk
        dsimp only at hk ⊢
        rw [hadj] at hk
        rw [hw, List.foldl_cons, List.foldl_nil]
        unfold Mem.onFrom
        split_ifs with hlt
        · rfl
        -- CCMP works on the frame from its first byte on, with the MIC in the room of the ICV
        · have hout := @aesCipher_outside aes (txKey sec x.attrib) _ (toU32 r.2) (k - r.1) _ hh
            hadj (by omega)
          have hsum : r.1 + (k - r.1) = k := by omega
          unfold Mem.shift at hout
          rw [hsum] at hout
          exact hout
    | noPrivacy => rfl
    | tkipWtmic => rfl
    | sms4 => rfl
    | wepWpaMixed => rfl
  · rfl

/-! ## Where the sole fragment is found -/

section

variable {x : XmitFrame} {a : PktAttrib} {m : Mem} {data : List UInt8}

/-- The walk of the encryption functions over a sole fragment, with `extra` bytes added
behind the payload. -/
theorem walk_soleFragment {fragLen extra : Nat} {mem : Mem} (hb : a.bswenc = true) :
    XmitFrame.walk fragLen { soleFragment x a m data with
        mem := mem
        attrib := { (soleFragment x a m data).attrib with
          lastTxcmdsz := a.hdrlen + a.ivLen + 8 + icvRoom a + data.length + extra } }
      = [(x.firstStart, ((8 + data.length + extra : Nat) : Int))] := by
  have hr : icvRoom a = a.icvLen := if_pos hb
  show [(x.firstStart, ((a.hdrlen + a.ivLen + 8 + icvRoom a + data.length + extra : Nat) : Int)
    - a.hdrlen - a.ivLen - a.icvLen)] = _
  refine congrArg (fun l => [(x.firstStart, l)]) ?_
  omega

/-- The ranges the cipher works on there. -/
theorem cryptRanges_soleFragment {x' : XmitFrame} {length : Nat} (hs : a.Secured)
    (hc : a.encrypt.Software) (he : x'.attrib.encrypt = a.encrypt)
    (hl : x'.attrib.hdrlen = a.hdrlen) (hi : x'.attrib.ivLen = a.ivLen)
    (hfc : FctrlOf x'.attrib.subtype (x'.mem.le16 x.firstStart)) (hlen : length < 2 ^ 32) :
    cryptRanges x'.attrib x'.mem (x.firstStart, (length : Int))
      = .from x.firstStart a.hdrlen a.ivLen length a.icvLen := by
  have hu : toU32 (length : Int) = length := by
    rw [toU32_of_nonneg (by omega) (by omega), Int.toNat_natCast]
  have hadj : Ccmp.adjustHdrlen (x'.mem.shift x.firstStart) x'.attrib.hdrlen
      = x'.attrib.hdrlen := adjustHdrlen_of hfc
  have hiv := hs.ivLen
  have hicv := hs.icvLen
  unfold cryptRanges
  dsimp only
  rw [he, hu, hadj, hl, hi]
  rcases hc with h | h | h | h <;> rw [h] at hiv hicv ⊢ <;> rw [hiv, hicv] <;> rfl

/-- What software crypto does with a sole fragment `f`, laid out in `x` and given its
MIC in `x'`; `r` are the ranges it works on. -/
structure SoleSeen (aes : AesKey → Block → Block) (fragLen : Nat) (sec : SecurityPriv)
    (x x' : XmitFrame) (f : Fragment) (r : Ranges) : Prop where
  frags : x.frags = [f]
  nrFrags : x.attrib.nrFrags = 1
  walk : (x'.walk fragLen).map (cryptRanges x'.attrib x'.mem) = [r]
  /-- WEP and CCMP: the ranges that were laid out. -/
  seen : x.attrib.encrypt ≠ .tkip → CryptoSeesFragments fragLen x x'
  /-- TKIP: the MIC right behind the payload, and the ICV right behind the MIC. -/
  tkip : x.attrib.encrypt = .tkip →
    micRanges fragLen x = [(f.ranges x.attrib).payload]
      ∧ (∃ mic, mic.length = 8 ∧ x'.mem = x.mem.write (f.ranges x.attrib).icv.1 mic)
      ∧ r.hdr = (f.ranges x.attrib).hdr ∧ r.iv = (f.ranges x.attrib).iv
      ∧ r.payload = ((f.ranges x.attrib).payload.1, (f.ranges x.attrib).payload.2 + 8)
      ∧ r.icv = ((f.ranges x.attrib).icv.1 + 8, 4)
  outside : ∀ k, k < r.payload.1 ∨ r.icv.1 + r.icv.2 ≤ k →
    (xmitframeSwencrypt aes fragLen sec x').mem k = x'.mem k

theorem soleSeen_of {aes : AesKey → Block → Block} {fragLen : Nat} {sec : SecurityPriv}
    {x' : XmitFrame} (hs : a.Secured) (hc : a.encrypt.Software) (hb : a.bswenc = true)
    (hfc : FctrlOf a.subtype (m.le16 x.firstStart)) (hlen : data.length ≤ 2346)
    (h : xmitframeAddmic fragLen sec (soleFragment x a m data) = some x') :
    ∃ f r, SoleSeen aes fragLen sec (soleFragment x a m data) x' f r := by
  have hfc1 : FctrlOf a.subtype ((soleFragment x a m data).mem.le16 x.firstStart) :=
    fctrl_soleFragment hfc
  -- with software encryption the ICV has its room in the fragment
  have hroom : icvRoom a = a.icvLen := if_pos hb
  have hranges : (⟨x.firstStart, 8, data.length⟩ : Fragment).ranges (soleFragment x a m data).attrib
      = .from x.firstStart a.hdrlen a.ivLen (8 + data.length) a.icvLen := by
    unfold Fragment.ranges
    rw [← hroom]
    rfl
  rcases xmitframeAddmic_soleFragment h with ⟨hne, rfl⟩ | ⟨htk, mic, hmic, rfl⟩
  · -- no MIC: the walk finds the fragment as it is
    have hw : (soleFragment x a m data).walk fragLen
        = [(x.firstStart, ((8 + data.length : Nat) : Int))] :=
      @walk_soleFragment x a m data fragLen 0 _ hb
    have hr := @cryptRanges_soleFragment x a (soleFragment x a m data) (8 + data.length) hs hc rfl
      rfl rfl hfc1 (by omega)
    refine ⟨⟨x.firstStart, 8, data.length⟩,
      .from x.firstStart a.hdrlen a.ivLen (8 + data.length) a.icvLen, rfl, rfl, ?_, ?_, ?_, ?_⟩
    · rw [hw, List.map_cons, hr, List.map_nil]
    · intro _
      refine ⟨fun htk => absurd htk hne, ?_⟩
      rw [hw, List.map_cons, hr, List.map_nil, ← hranges]
      rfl
    · intro htk
      exact absurd htk hne
    · intro k hk
      refine xmitframeSwencrypt_outside hw hfc1 ?_
      rw [hr]
      exact hk
  · -- the MIC lies between the payload and the ICV
    have hh := hdrlen_ge a
    have hw := @walk_soleFragment x a m data fragLen 8 ((soleFragment x a m data).mem.write
      (x.firstStart + a.hdrlen + a.ivLen + (8 + data.length)) mic) hb
    have hfc2 : FctrlOf a.subtype (((soleFragment x a m data).mem.write
        (x.firstStart + a.hdrlen + a.ivLen + (8 + data.length)) mic).le16 x.firstStart) := by
      rw [le16_write_disjoint (Or.inl (by omega))]
      exact hfc1
    have hr := @cryptRanges_soleFragment x a { soleFragment x a m data with
        mem := (soleFragment x a m data).mem.write
          (x.firstStart + a.hdrlen + a.ivLen + (8 + data.length)) mic
        attrib := { (soleFragment x a m data).attrib with
          lastTxcmdsz := a.hdrlen + a.ivLen + 8 + icvRoom a + data.length + 8 } }
      (8 + data.length + 8) hs hc rfl rfl rfl hfc2 (by omega)
    have hicv : a.icvLen = 4 := by rw [hs.icvLen, htk]; rfl
    refine ⟨⟨x.firstStart, 8, data.length⟩,
      .from x.firstStart a.hdrlen a.ivLen (8 + data.length + 8) a.icvLen, rfl, rfl, ?_, ?_, ?_, ?_⟩
    · rw [hw, List.map_cons, hr, List.map_nil]
    · intro hne
      exact absurd htk hne
    · intro _
      rw [hranges, hicv]
      refine ⟨?_, ⟨mic, hmic, rfl⟩, rfl, rfl, rfl, rfl⟩
      unfold micRanges
      rw [addmicWalk_soleFragment, List.map_cons, toU32_of_nonneg (by omega) (by omega),
        Int.toNat_natCast]
      rfl
    · intro k hk
      refine xmitframeSwencrypt_outside hw hfc2 ?_
      rw [hr]
      exact hk

end

/-- **The sole fragment of an MSDU is the one that software crypto touches.** WEP and
CCMP work on the header, the IV and the payload that were laid out and put the ICV or
MIC into the room left for it. TKIP takes the same payload into its MIC, writes that
right behind it, and then encrypts both, with the ICV behind them. Nothing else
changes. -/
theorem crypto_sees_sole_fragment (aes : AesKey → Block → Block) (p : XmitPriv)
    {mlme : MlmePriv} {sec : SecurityPriv} {lookup : Option (Nat × StaInfo)} {pkt : List UInt8}
    {x x1 x2 : XmitFrame} (hra : x.attrib.ra.isMcast = false) (hs : x.attrib.Secured)
    (hc : x.attrib.encrypt.Software) (hb : x.attrib.bswenc = true)
    (hfit : FitsOneFragment p.fragLen x.attrib pkt)
    (h1 : coalesceFrags p.fragLen mlme lookup pkt x = some x1)
    (h2 : xmitframeAddmic p.fragLen sec x1 = some x2) :
    ∃ f r, SoleSeen aes p.fragLen sec x1 x2 f r := by
  obtain ⟨m, seqnum, hfc, rfl⟩ := coalesceFrags_single p hra hfit h1
  have hlen : (pkt.drop x.attrib.pktHdrlen).length ≤ 2346 := by
    have hmax := p.range.2
    unfold FitsOneFragment at hfit
    rw [List.length_drop]
    omega
  exact soleSeen_of (a := { x.attrib with seqnum := seqnum }) ⟨hs.ivLen, hs.icvLen, hs.iv⟩ hc hb
    hfc hlen h2

/-- A linked station and an access point. -/
def sampleMlme : MlmePriv := { stationState := true, bssid := ⟨2, 0, 0, 0, 0, 1⟩ }

def sampleSta : StaInfo := { linked := true, hwaddr := ⟨2, 0, 0, 0, 0, 1⟩ }

/-! Addresses of sample buffers. -/

theorem aligned_512 : 512 % 4 = 0 := rfl

theorem aligned_64 : 64 % 4 = 0 := rfl

/-- A frame to the access point, ready for `rtw_xmitframe_coalesce` under cipher `c`. -/
def sampleXmit (c : Cipher) : XmitFrame where
  attrib :=
    { hdr := plainHdr, etherType := 0x0800, encrypt := c, bswenc := true, ivLen := c.ivLen, icvLen := c.icvLen
      iv := List.replicate c.ivLen 0, ra := ⟨2, 0, 0, 0, 0, 1⟩, ta := ⟨2, 0, 0, 0, 0, 2⟩
      psta := some 0, dot11tkiptxmickey := fun _ => 1 }
  bufAddr := 512
  aligned := aligned_512
  mem := fun _ => 0

def samplePkt (n : Nat) : List UInt8 := List.replicate (14 + n) 7

/-- What the crypto functions make of a sample frame, or nothing if it is refused. -/
def seesSample (fragLen n : Nat) (c : Cipher) : Option Bool := do
  let x ← coalesceFrags fragLen sampleMlme (some (0, sampleSta)) (samplePkt n) (sampleXmit c)
  let x' ← xmitframeAddmic fragLen {} x
  pure (decide ((x'.walk fragLen).map (cryptRanges x'.attrib x'.mem)
    = x.frags.map (·.ranges x.attrib)))

theorem misses_of_seesSample {fragLen n : Nat} {c : Cipher}
    (h : seesSample fragLen n c = some false) :
    ∃ x1 x2, coalesceFrags fragLen sampleMlme (some (0, sampleSta)) (samplePkt n) (sampleXmit c)
        = some x1
      ∧ xmitframeAddmic fragLen {} x1 = some x2 ∧ ¬ CryptoSeesFragments fragLen x1 x2 := by
  unfold seesSample at h
  obtain ⟨x1, h1, h⟩ := Option.bind_eq_some_iff.mp h
  obtain ⟨x2, h2, h⟩ := Option.bind_eq_some_iff.mp h
  refine ⟨x1, x2, h1, h2, fun hs => ?_⟩
  exact absurd hs.2 (of_decide_eq_false (Option.some.inj h))

theorem crypto_sees_sole_fragment_sample :
    ∃ x1 x2, coalesceFrags 2346 sampleMlme (some (0, sampleSta)) (samplePkt 30) (sampleXmit .tkip)
        = some x1
      ∧ xmitframeAddmic 2346 {} x1 = some x2
      ∧ ∃ f r, SoleSeen (fun _ b => b) 2346 {} x1 x2 f r := by
  have hfit : FitsOneFragment 2346 (sampleXmit .tkip).attrib (samplePkt 30) := by
    show _ ≤ _
    decide
  have hrun : seesSample 2346 30 .tkip = some false := by decide
  obtain ⟨x1, x2, h1, h2, -⟩ := misses_of_seesSample hrun
  exact ⟨x1, x2, h1, h2, crypto_sees_sole_fragment _ ⟨2346, by decide⟩ rfl ⟨rfl, rfl, rfl⟩
    (Or.inr (Or.inr (Or.inl rfl))) rfl hfit h1 h2⟩

/-- Under TKIP the encryption goes on over the MIC, and the second fragment of a CCMP
frame is looked for in the wrong place. -/
theorem crypto_misses_fragments :
    (∃ x1 x2, coalesceFrags 2346 sampleMlme (some (0, sampleSta)) (samplePkt 30)
          (sampleXmit .tkip) = some x1
        ∧ xmitframeAddmic 2346 {} x1 = some x2 ∧ ¬ CryptoSeesFragments 2346 x1 x2)
      ∧ ∃ x1 x2, coalesceFrags 256 sampleMlme (some (0, sampleSta)) (samplePkt 300)
          (sampleXmit .aes) = some x1
        ∧ xmitframeAddmic 256 {} x1 = some x2 ∧ ¬ CryptoSeesFragments 256 x1 x2 :=
  ⟨misses_of_seesSample (by decide +kernel), misses_of_seesSample (by decide +kernel)⟩

end Rtl8812au

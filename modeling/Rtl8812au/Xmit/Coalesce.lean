import Rtl8812au.Xmit.Attrib
import Rtl8812au.Security.Ccmp
import Rtl8812au.Security.Wep
import Rtl8812au.Security.Tkip
import Rtl8812au.Security.Michael

/-!
# Building the frames of an MSDU

`rtw_make_wlanhdr`, `rtw_put_snap`, `rtw_xmitframe_coalesce` and `xmitframe_addmic`
of `core/rtw_xmit.c`, and the `_encrypt` functions of `core/rtw_security.c`. Each of
them finds the fragments in the buffer with an arithmetic of its own, kept apart
here: `coalesceLoop` lays them out, `addmicWalk` and `fragWalk` look for them again.
-/

namespace Rtl8812au

/-- The `u32` that a `sint` becomes. -/
def toU32 (x : Int) : Nat := (x % 2 ^ 32).toNat

/-- `RND4`. -/
def rnd4 (x : Nat) : Nat := (x / 4 + if x % 4 = 0 then 0 else 1) * 4

/-- `xmit_priv.frag_len`: the default, or what `rtw_wx_set_frag` lets through. -/
structure XmitPriv where
  fragLen : Nat
  range : 256 ≤ fragLen ∧ fragLen ≤ 2346

def txdescSize : Nat := 40
def packetOffsetSz : Nat := 8

/-- `hw_hdr_offset`, a `u8`; `pkt_offset` is taken modulo 256 too. -/
def hwHdrOffset (pktOffset : Nat) : Nat := (txdescSize + pktOffset * packetOffsetSz) % 256

/-- The two bytes of a `u16` in memory. -/
def le16Bytes (v : Nat) : List UInt8 := [UInt8.ofNat v, UInt8.ofNat (v / 256)]

/-- `*(u16 *)a |= v`. -/
def orLe16 (m : Mem) (a v : Nat) : Mem := m.write a (le16Bytes (m.le16 a ||| v))

/-- `SetMFrag`, `ClearMFrag`: `_MORE_FRAG_` is bit 10. -/
def setMFrag (m : Mem) (p : Nat) : Mem := orLe16 m p 0x400

def clearMFrag (m : Mem) (p : Nat) : Mem := m.write p (le16Bytes (m.le16 p &&& 0xfbff))

/-- One fragment as it was laid out: `mem_start`, `llc_sz` and `mem_sz`. -/
structure Fragment where
  memStart : Nat
  llcSz : Nat
  memSz : Nat
  deriving Repr, DecidableEq

/-- `struct xmit_frame`. Transmit buffers are aligned, and within one the frames start
at multiples of eight. `frags` records where the fragments were put. -/
structure XmitFrame where
  attrib : PktAttrib
  bufAddr : Nat
  aligned : bufAddr % 4 = 0
  pktOffset : Nat := 0
  mem : Mem
  frags : List Fragment := []

/-- The address the first header goes to. -/
def XmitFrame.firstStart (x : XmitFrame) : Nat := x.bufAddr + hwHdrOffset x.pktOffset

/-- The bytes that go on the air of a packet that is one MPDU. -/
def XmitFrame.airBytes (x : XmitFrame) : List UInt8 := x.mem.read x.firstStart x.attrib.lastTxcmdsz

/-- The frame-control bits and addresses that `rtw_make_wlanhdr` chooses by mode, and
its `qos_option`. -/
def wlanhdrForMode (mlme : MlmePriv) (a : PktAttrib) :
    Option (Nat × MacAddr × MacAddr × MacAddr × Bool) :=
  if mlme.stationState then some (0x100, mlme.bssid, a.ta, a.dst, mlme.qosOption)
  else if mlme.apState then some (0x200, a.dst, mlme.bssid, a.src, a.qosEn)
  else if mlme.adhocState || mlme.adhocMasterState then
    some (0, a.dst, a.ta, mlme.bssid, a.qosEn)
  else none

/-- The frame-control field of a data header: `_MORE_DATA_` is bit 13, `_PRIVACY_`
bit 14. -/
def wlanhdrFctrl (ds : Nat) (a : PktAttrib) : Nat :=
  a.subtype ||| ds ||| (if a.mdata then 0x2000 else 0)
    ||| (if a.encrypt = .noPrivacy then 0 else 0x4000)

/-- `rtw_make_wlanhdr` for a data frame at `hdr`. `lookup` is the station that
`rtw_get_stainfo` finds for the receiver address. `none` is `_FAIL`. -/
def rtwMakeWlanhdr (mlme : MlmePriv) (lookup : Option (Nat × StaInfo)) (m : Mem) (hdr : Nat)
    (a : PktAttrib) : Option (Mem × PktAttrib) :=
  match wlanhdrForMode mlme a with
  | none => none
  | some (ds, addr1, addr2, addr3, qosOption) =>
    let m := m.write hdr (List.replicate 64 0)
    let m := m.write hdr (le16Bytes (wlanhdrFctrl ds a))
    let m := m.write (hdr + 4) (addr1.bytes ++ addr2.bytes ++ addr3.bytes)
    let m :=
      if qosOption then
        orLe16 m (hdr + a.hdrlen - 2)
          ((a.priority &&& 0xf) ||| ((a.eosp &&& 1) <<< 4) ||| ((a.ackPolicy &&& 3) <<< 5))
      else m
    match lookup with
    | none => none
    | some (id, psta) =>
      if a.psta ≠ some id then none
      else if !psta.linked then none
      else
        let seqnum := (psta.txseqTid a.priority + 1) &&& 0xFFF
        let m := m.write (hdr + 22)
          (le16Bytes ((m.le16 (hdr + 22) &&& 0xf) ||| (0xfff0 &&& (seqnum <<< 4))))
        some (m, { a with seqnum := seqnum })

/-- `rtw_put_snap`: the eight bytes it writes. -/
def rtwPutSnap (hProto : Nat) : List UInt8 :=
  [0xaa, 0xaa, 0x03, 0x00, 0x00, if hProto = 0x8137 ∨ hProto = 0x80f3 then 0xf8 else 0x00,
    UInt8.ofNat (hProto / 256), UInt8.ofNat hProto]

section

variable (fragLen : Nat) (a : PktAttrib)

/-- The ICV bytes that a fragment has room for. -/
def icvRoom : Nat := if a.bswenc then a.icvLen else 0

/-- `mpdu_len` once everything that is not payload is taken off. -/
def mpduLen (llcSz : Nat) : Int := (fragLen : Int) - 4 - a.hdrlen - a.ivLen - llcSz - icvRoom a

/-- `_rtw_pktfile_read` reads `pktlen` bytes of a group-addressed packet, otherwise
`mpdu_len` as an unsigned number. -/
def readLen (llcSz : Nat) : Nat :=
  if a.ra.isMcast then a.pktlen else toU32 (mpduLen fragLen a llcSz)

/-- One turn of `rtw_xmitframe_coalesce`: the IV behind the header, the LLC header if
`snap` holds one, the payload, and room for the ICV. -/
def layFragment (memStart : Nat) (snap data : List UInt8) (m : Mem) : Mem :=
  let m := setMFrag m memStart
  let m := m.write (memStart + a.hdrlen) (a.iv.take a.ivLen)
  let pframe := memStart + a.hdrlen + a.ivLen
  let m := m.write pframe snap
  let m := m.write (pframe + snap.length) data
  m.write (pframe + snap.length + data.length) (Mem.read a.icv 0 (icvRoom a))

/-- The `while (1)` of `rtw_xmitframe_coalesce`; `pkt` is what is left in the packet
file, `hdr0` the first header. `none` when `fuel` turns are not enough. -/
def coalesceLoop (offset hdr0 : Nat) :
    Nat → Nat → Nat → List UInt8 → Mem → Option (Mem × List Fragment)
  | 0, _, _, _, _ => none
  | fuel + 1, frgInx, memStart, pkt, m =>
    let snap := if frgInx = 0 then rtwPutSnap a.etherType else []
    let memSz := min (readLen fragLen a snap.length) pkt.length
    let m := layFragment a memStart snap (pkt.take memSz) m
    let frag : Fragment := ⟨memStart, snap.length, memSz⟩
    if a.ra.isMcast || (pkt.drop memSz).isEmpty then some (clearMFrag m memStart, [frag])
    else
      let addr := memStart + a.hdrlen + a.ivLen + snap.length + memSz + icvRoom a
      let next := rnd4 addr + offset
      let m := m.copy next m hdr0 a.hdrlen
      match coalesceLoop offset hdr0 fuel (frgInx + 1) next (pkt.drop memSz) m with
      | none => none
      | some (m, frags) => some (m, frag :: frags)

end

/-- `last_txcmdsz` as `rtw_xmitframe_coalesce` computes it from its last turn. -/
def lastTxcmdszOf (a : PktAttrib) (nrFrags : Nat) (last : Fragment) : Nat :=
  a.hdrlen + a.ivLen + (if nrFrags = 1 then last.llcSz else 0) + icvRoom a + last.memSz

/-- `rtw_xmitframe_coalesce` up to the call of `xmitframe_addmic`. -/
def coalesceFrags (fragLen : Nat) (mlme : MlmePriv) (lookup : Option (Nat × StaInfo))
    (pkt : List UInt8) (x : XmitFrame) : Option XmitFrame :=
  if x.bufAddr = 0 then none
  else
    match rtwMakeWlanhdr mlme lookup x.mem x.firstStart x.attrib with
    | none => none
    | some (m, a) =>
      let data := pkt.drop a.pktHdrlen
      match coalesceLoop fragLen a (hwHdrOffset x.pktOffset) x.firstStart (data.length + 2) 0
          x.firstStart data m with
      | none => none
      | some (m, frags) =>
        let nrFrags := frags.length % 256
        let last := frags.getLastD ⟨0, 0, 0⟩
        some { x with mem := m, frags := frags,
                      attrib := { a with nrFrags := nrFrags,
                                         lastTxcmdsz := lastTxcmdszOf a nrFrags last } }

/-! ## The TKIP MIC -/

/-- The loop of `xmitframe_addmic`: the payload ranges it takes, for `n` fragments
from `payload` on. -/
def addmicWalk (fragLen : Nat) (a : PktAttrib) : Nat → Nat → List (Nat × Int)
  | 0, _ => []
  | 1, payload =>
    [(rnd4 payload + a.hdrlen + a.ivLen,
      (a.lastTxcmdsz : Int) - a.hdrlen - a.ivLen - icvRoom a)]
  | n + 2, payload =>
    let p := rnd4 payload + a.hdrlen + a.ivLen
    let length : Int := (fragLen : Int) - a.hdrlen - a.ivLen - icvRoom a
    (p, length) :: addmicWalk fragLen a (n + 1) ((p : Int) + length + a.icvLen).toNat

/-- What of the header goes into the MIC. -/
def micHeader (m : Mem) (pframe : Nat) : List UInt8 :=
  if (m (pframe + 1)) &&& 1 != 0 then
    m.read (pframe + 16) 6
      ++ (if (m (pframe + 1)) &&& 2 != 0 then m.read (pframe + 24) 6 else m.read (pframe + 10) 6)
  else
    m.read (pframe + 4) 6
      ++ (if (m (pframe + 1)) &&& 2 != 0 then m.read (pframe + 16) 6 else m.read (pframe + 10) 6)

/-- The transmit MIC key. -/
def txMicKey (sec : SecurityPriv) (a : PktAttrib) : Keytype :=
  if a.ra.isMcast then sec.dot118021XGrptxmickey sec.dot118021XGrpKeyid else a.dot11tkiptxmickey

/-- The address behind the last payload, where the MIC goes. -/
def micAt (walk : List (Nat × Int)) (pframe : Nat) : Nat :=
  match walk.getLast? with
  | none => pframe
  | some (p, length) => ((p : Int) + length).toNat

/-- `xmitframe_addmic`. `none` is `_FAIL`. -/
def xmitframeAddmic (fragLen : Nat) (sec : SecurityPriv) (x : XmitFrame) : Option XmitFrame :=
  if x.attrib.encrypt ≠ .tkip then some x
  else
    let key := txMicKey sec x.attrib
    if key.isNull then none
    else
      let a := x.attrib
      let pframe := x.firstStart
      let walk := addmicWalk fragLen a a.nrFrags pframe
      let d := rtwSecmicappend (rtwSecmicsetkey key.skey) (micHeader x.mem pframe)
      let d := rtwSecmicappend d [if a.qosEn then UInt8.ofNat a.priority else 0, 0, 0, 0]
      let d := walk.foldl (fun d r => rtwSecmicappend d (x.mem.read r.1 (toU32 r.2))) d
      some { x with mem := x.mem.write (micAt walk pframe) (rtwSecgetmic d),
                    attrib := { a with lastTxcmdsz := a.lastTxcmdsz + 8 } }

/-! ## Software encryption -/

/-- The loop that `rtw_wep_encrypt`, `rtw_tkip_encrypt` and `rtw_aes_encrypt` share:
`pframe` and the payload `length` for each of `n` fragments. -/
def fragWalk (fragLen : Nat) (a : PktAttrib) : Nat → Nat → List (Nat × Int)
  | 0, _ => []
  | 1, pframe => [(pframe, (a.lastTxcmdsz : Int) - a.hdrlen - a.ivLen - a.icvLen)]
  | n + 2, pframe =>
    (pframe, (fragLen : Int) - a.hdrlen - a.ivLen - a.icvLen)
      :: fragWalk fragLen a (n + 1) (rnd4 (pframe + fragLen))

/-- The fragments as software encryption sees them. -/
def XmitFrame.walk (fragLen : Nat) (x : XmitFrame) : List (Nat × Int) :=
  fragWalk fragLen x.attrib x.attrib.nrFrags x.firstStart

/-- Encrypt `length` bytes at `payload` with RC4 and put the encrypted checksum
behind them. -/
def rc4Seal (key : List UInt8) (m : Mem) (payload length : Nat) : Mem :=
  let plain := m.read payload length
  let r := arcfourEncrypt (arcfourInit key key.length) plain
  let m := m.write payload r.1
  m.write (payload + length) (arcfourEncrypt r.2 (le32Bytes (getcrc32 plain))).1

/-- The WEP key for a frame whose IV stands at `iv`. -/
def wepKey (sec : SecurityPriv) (keyindex : Nat) (m : Mem) (iv : Nat) : List UInt8 :=
  m.read iv 3
    ++ Mem.read (sec.dot11DefKey keyindex).skey 0 (sec.dot11DefKeylen keyindex)

/-- `rtw_wep_encrypt`. -/
def rtwWepEncrypt (fragLen : Nat) (sec : SecurityPriv) (x : XmitFrame) : XmitFrame :=
  let a := x.attrib
  { x with
    mem := (x.walk fragLen).foldl (fun m r =>
      rc4Seal (wepKey sec sec.dot11PrivacyKeyIndex m (r.1 + a.hdrlen)) m
        (r.1 + a.ivLen + a.hdrlen) (toU32 r.2)) x.mem }

/-- The temporal key that a frame is encrypted under. -/
def txKey (sec : SecurityPriv) (a : PktAttrib) : Keytype :=
  if a.ra.isMcast then sec.dot118021XGrpKey sec.dot118021XGrpKeyid else a.dot118021xUncstKey

/-- `rtw_tkip_encrypt`. -/
def rtwTkipEncrypt (fragLen : Nat) (sec : SecurityPriv) (x : XmitFrame) : XmitFrame :=
  let a := x.attrib
  { x with
    mem := (x.walk fragLen).foldl (fun m r =>
      rc4Seal (Tkip.rc4Key (txKey sec a) a.ta m (r.1 + a.hdrlen)) m
        (r.1 + a.ivLen + a.hdrlen) (toU32 r.2)) x.mem }

section

variable (aes : AesKey → BlockMode.Block → BlockMode.Block)

/-- `rtw_aes_encrypt`. -/
def rtwAesEncrypt (fragLen : Nat) (sec : SecurityPriv) (x : XmitFrame) : XmitFrame :=
  let a := x.attrib
  { x with
    mem := (x.walk fragLen).foldl (fun m r =>
      m.onFrom r.1 fun f => Ccmp.aesCipher aes (txKey sec a) a.hdrlen f (toU32 r.2)) x.mem }

/-- `xmitframe_swencrypt`. -/
def xmitframeSwencrypt (fragLen : Nat) (sec : SecurityPriv) (x : XmitFrame) : XmitFrame :=
  if x.attrib.bswenc then
    match x.attrib.encrypt with
    | .wep40 | .wep104 => rtwWepEncrypt fragLen sec x
    | .tkip => rtwTkipEncrypt fragLen sec x
    | .aes => rtwAesEncrypt aes fragLen sec x
    | _ => x
  else x

/-- `rtw_xmitframe_coalesce`. `none` is `_FAIL`. -/
def rtwXmitframeCoalesce (fragLen : Nat) (mlme : MlmePriv) (sec : SecurityPriv)
    (lookup : Option (Nat × StaInfo)) (pkt : List UInt8) (x : XmitFrame) : Option XmitFrame :=
  match coalesceFrags fragLen mlme lookup pkt x with
  | none => none
  | some x =>
    match xmitframeAddmic fragLen sec x with
    | none => none
    | some x => some (xmitframeSwencrypt aes fragLen sec x)

end

end Rtl8812au

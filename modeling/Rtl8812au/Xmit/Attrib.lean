import Rtl8812au.Adapter

/-!
# Transmit attributes

`struct pkt_attrib`, the IV macros of `include/rtw_xmit.h` and
`update_attrib_sec_info` of `core/rtw_xmit.c`, which takes one packet number from
the station for every MSDU.
-/

namespace Rtl8812au

/-- `TSC0 .. TSC7`: byte `i` of a packet number. -/
def tsc (pn i : Nat) : UInt8 := UInt8.ofNat (pn / 256 ^ i)

/-- `dot11txpn.val` after one use: zero follows `top`. -/
def nextPn (top pn : Nat) : Nat := if pn = top then 0 else (pn + 1) % 2 ^ 64

/-- `(keyidx & 0x3) << 6`. -/
def keyIdBits (keyidx : Nat) : UInt8 := UInt8.ofNat ((keyidx &&& 0x3) <<< 6)

/-- `WEP_IV`: the bytes of the IV. -/
def wepIv (pn keyidx : Nat) : List UInt8 := [tsc pn 0, tsc pn 1, tsc pn 2, keyIdBits keyidx]

/-- `TKIP_IV`. -/
def tkipIv (pn keyidx : Nat) : List UInt8 :=
  [tsc pn 1, (tsc pn 1 ||| 0x20) &&& 0x7f, tsc pn 0, 0x20 ||| keyIdBits keyidx,
    tsc pn 2, tsc pn 3, tsc pn 4, tsc pn 5]

/-- `AES_IV`. -/
def aesIv (pn keyidx : Nat) : List UInt8 :=
  [tsc pn 0, tsc pn 1, 0, 0x20 ||| keyIdBits keyidx, tsc pn 2, tsc pn 3, tsc pn 4, tsc pn 5]

def wifiDataType : Nat := 0x08
def wifiQosDataType : Nat := 0x88

/-- The header of a frame without QoS. -/
theorem plainHdr :
    (wifiDataType = wifiDataType ∧ 24 = 24) ∨ (wifiDataType = wifiQosDataType ∧ 24 = 26) :=
  Or.inl ⟨rfl, rfl⟩

/-- `struct pkt_attrib`. `update_attrib` sets the two header fields together, and
`set_qos` sets them again together. -/
structure PktAttrib where
  subtype : Nat := wifiDataType
  hdrlen : Nat := 24
  hdr : (subtype = wifiDataType ∧ hdrlen = 24) ∨ (subtype = wifiQosDataType ∧ hdrlen = 26) := by
    decide
  etherType : Nat := 0
  pktHdrlen : Nat := 14
  pktlen : Nat := 0
  encrypt : Cipher := .noPrivacy
  bswenc : Bool := false
  ivLen : Nat := 0
  icvLen : Nat := 0
  iv : List UInt8 := []
  icv : Nat → UInt8 := fun _ => 0
  keyIdx : Nat := 0
  dst : MacAddr := .zero
  src : MacAddr := .zero
  ta : MacAddr := .zero
  ra : MacAddr := .zero
  psta : Option Nat := none
  qosEn : Bool := false
  priority : Nat := 0
  ackPolicy : Nat := 0
  mdata : Bool := false
  eosp : Nat := 0
  seqnum : Nat := 0
  dot118021xUncstKey : Keytype := fun _ => 0
  dot11tkiptxmickey : Keytype := fun _ => 0
  nrFrags : Nat := 0
  lastTxcmdsz : Nat := 0

/-- What `update_attrib_sec_info` leaves: its result, the attributes and the packet
number of the station. -/
structure SecInfo where
  ok : Bool
  attrib : PktAttrib
  dot11txpn : Nat

/-- The cipher and the key index that `update_attrib_sec_info` chooses for a station
that is not blocked. -/
def chooseEncrypt (sec : SecurityPriv) (psta : StaInfo) (a : PktAttrib) : Cipher × Nat :=
  let bmcast := a.ra.isMcast
  let encrypt := getEncryAlgo sec psta.dot118021XPrivacy bmcast
  let keyIdx :=
    match sec.dot11AuthAlgrthm with
    | .open | .shared | .auto => sec.dot11PrivacyKeyIndex
    | .ieee8021x => if bmcast then sec.dot118021XGrpKeyid else 0
    | .wapi => 0
  -- an EAPOL packet of a WPS handshake stays in the clear under WEP
  if (encrypt = .wep40 ∨ encrypt = .wep104) ∧ a.etherType = 0x888e then (.noPrivacy, keyIdx)
  else (encrypt, keyIdx)

/-- The `switch` on the cipher: lengths, IV, and the next packet number. -/
def fillIv (sec : SecurityPriv) (psta : StaInfo) (a : PktAttrib) : SecInfo :=
  let pn := psta.dot11txpn
  let kid := if a.ra.isMcast then a.keyIdx else 0
  match a.encrypt with
  | .wep40 | .wep104 =>
    ⟨true, { a with ivLen := 4, icvLen := 4, iv := wepIv pn a.keyIdx }, nextPn 0xffffff pn⟩
  | .tkip =>
    if !sec.busetkipkey then ⟨false, { a with ivLen := 8, icvLen := 4 }, pn⟩
    else
      ⟨true, { a with ivLen := 8, icvLen := 4, iv := tkipIv pn kid,
                      dot11tkiptxmickey := psta.dot11tkiptxmickey }, nextPn 0xffffffffffff pn⟩
  | .aes =>
    ⟨true, { a with ivLen := 8, icvLen := 8, iv := aesIv pn kid }, nextPn 0xffffffffffff pn⟩
  | _ => ⟨true, { a with ivLen := 0, icvLen := 0 }, pn⟩

/-- `update_attrib_sec_info`. -/
def updateAttribSecInfo (mpState : Bool) (sec : SecurityPriv) (psta : StaInfo) (a : PktAttrib) :
    SecInfo :=
  let a := { a with dot118021xUncstKey := fun _ => 0, dot11tkiptxmickey := fun _ => 0 }
  if psta.ieee8021xBlocked && a.etherType != 0x888e && !mpState then
    ⟨false, { a with encrypt := .noPrivacy }, psta.dot11txpn⟩
  else
    let c := chooseEncrypt sec psta a
    let a :=
      if psta.ieee8021xBlocked then { a with encrypt := .noPrivacy }
      else { a with encrypt := c.1, keyIdx := c.2 }
    let r := fillIv sec psta a
    if !r.ok then r
    else
      let a := r.attrib
      let key := if a.encrypt = .noPrivacy then a.dot118021xUncstKey else psta.dot118021xUncstKey
      { r with
        attrib :=
          { a with
            dot118021xUncstKey := key
            bswenc := decide (a.encrypt ≠ .noPrivacy) && (sec.swEncrypt || !sec.hwDecrypted) } }

end Rtl8812au

import Rtl8812au.Ap.Elems
import Rtl8812au.Ap.Caps
import Rtl8812au.Adapter

/-!
# What a request is checked for

The checks of `OnAssocReq`, from the fixed fields to the vendor elements, with what each leaves
in the station, and `OnAuthClient`, of `core/rtw_mlme_ext.c`. Both copy bodies of elements into
arrays of fixed size; a copy that does not fit is an overrun.

`pframe` is the memory from the frame control field on.
-/

namespace Rtl8812au

/-- `_AUTH_IE_OFFSET_`, `_ASOCREQ_IE_OFFSET_`, `_REASOCREQ_IE_OFFSET_`. -/
abbrev authIeOffset : Nat := 6
abbrev asocreqIeOffset : Nat := 4
abbrev reasocreqIeOffset : Nat := 10

/-- `WPS_ATTR_DEVICE_NAME`, `WFD_ATTR_DEVICE_INFO`. -/
abbrev wpsAttrDeviceName : Nat := 0x1011
abbrev wfdAttrDeviceInfo : Nat := 0x00

/-- `memcpy` of `n` bytes at `src` into an array of `size` bytes, from `at'` on. -/
def copyInto (size at' : Nat) (m : Mem) (src n : Nat) : Outcome (List UInt8) :=
  if size < at' + n then .overrun else .done (m.read src n)

/-! ## `OnAuthClient` -/

/-- What `OnAuthClient` reads of the adapter, and what it writes. -/
structure AuthClient where
  myid : MacAddr := .zero
  /-- `state & WIFI_FW_AUTH_STATE`. -/
  authState : Bool := false
  authAlgo : AuthAlgrthm := .open
  authSeq : Nat := 0
  chgTxt : List UInt8 := List.replicate 128 0

/-- Where `OnAuthClient` ends. -/
inductive AuthClientEnd where
  /-- The frame is not for this station or not expected. -/
  | ignored
  /-- `authclnt_fail`. -/
  | failed
  /-- The challenge was taken and the third frame issued. -/
  | challenged
  /-- `start_clnt_assoc`. -/
  | associates
  deriving Repr, DecidableEq

/-- `OnAuthClient`. -/
def onAuthClient (a : AuthClient) (m : Mem) (pktLen : Nat) : Outcome (AuthClient × AuthClientEnd) :=
  if a.myid ≠ Wifi.getDa m 0 then .done (a, .ignored)
  else if !a.authState then .done (a, .ignored)
  else
    let offset := if Wifi.getPrivacy m 0 then 4 else 0
    let seq := m.le16 (wlanHdrA3Len + offset + 2)
    let status := m.le16 (wlanHdrA3Len + offset + 4)
    if status ≠ 0 then
      let algo := if a.authAlgo = .shared then AuthAlgrthm.open else .shared
      .done (if status = 13 then { a with authAlgo := algo } else a, .failed)
    else if seq = 2 then
      if a.authAlgo = .shared then
        -- the offset of a protected frame is not taken into account
        match rtwGetIe m (wlanHdrA3Len + authIeOffset) chlgetxtIe
            ((pktLen : Int) - wlanHdrA3Len - authIeOffset) with
        | none => .done (a, .failed)
        | some (p, len) =>
          (copyInto 128 0 m (p + 2) len) >>= fun txt =>
            .done ({ a with chgTxt := txt ++ a.chgTxt.drop len, authSeq := 3 }, .challenged)
      else .done (a, .associates)
    else if seq = 4 then
      if a.authAlgo = .shared then .done (a, .associates) else .done (a, .failed)
    else .done (a, .failed)

/-! ## `OnAssocReq`: the checks -/

/-- What the checks read of the access point. -/
structure AssocConf where
  /-- `pmlmeinfo->network.Ssid`. -/
  ssid : List UInt8 := []
  /-- `psecuritypriv->wpa_psk`: `BIT(0)` WPA, `BIT(1)` WPA2. -/
  wpaPsk : Nat := 0
  wpaGroupCipher : Nat := 0
  wpaPairwiseCipher : Nat := 0
  wpa2GroupCipher : Nat := 0
  wpa2PairwiseCipher : Nat := 0
  /-- With a `wps_beacon_ie`, what it says of the selected registrar. -/
  wpsSelectedRegistrar : Option Bool := none
  qosOption : Bool := false
  htOption : Bool := false
  vhtOption : Bool := false
  /-- `rtw_p2p_chk_role(pwdinfo, P2P_ROLE_GO)`. -/
  p2pGo : Bool := false
  /-- `rtw_zmalloc` gets so many bytes. -/
  zmalloc : Nat → Bool := fun _ => true
  /-- What lies behind `wfd_ie` and behind an allocated buffer, which may be anything. -/
  behind : Mem := fun _ => 0

/-- The status of the answer. -/
inductive AssocStatus where
  | successful | failure | capFail | unableHandleSta
  | invalidIe | groupCipherNotValid | pairwiseCipherNotValid
  deriving Repr, DecidableEq

/-- The request: where its elements start, and how many bytes they take. -/
structure AssocIes where
  at' : Nat
  len : Nat

/-- The elements behind the fixed fields of an association or reassociation request. -/
def assocIes (m : Mem) (pktLen : Nat) : AssocIes :=
  let off := if Wifi.getFrameSubType m 0 = 0 then asocreqIeOffset else reasocreqIeOffset
  ⟨wlanHdrA3Len + off, pktLen - (wlanHdrA3Len + off)⟩

/-- `rtw_get_ie` over the elements of the request. -/
def AssocIes.getIe (i : AssocIes) (m : Mem) (index : UInt8) : Option (Nat × Nat) :=
  rtwGetIe m i.at' index i.len

/-- "checking SSID". -/
def checkSsid (c : AssocConf) (m : Mem) (i : AssocIes) : Bool :=
  match i.getIe m ssidIe with
  | none => false
  | some (p, len) => len ≠ 0 ∧ m.read (p + 2) c.ssid.length = c.ssid ∧ len = c.ssid.length

/-- "check if the supported rate is ok": both elements go into `supportRate`, and from there
into `bssrateset`, arrays of 16 bytes. -/
def checkRates (m : Mem) (i : AssocIes) : Outcome (Option (List UInt8)) :=
  match i.getIe m supportedratesIe with
  | none => .done none
  | some (p, len) =>
    (copyInto 16 0 m (p + 2) len) >>= fun rates =>
      match i.getIe m extSupportedratesIe with
      | none => .done (some rates)
      | some (q, extLen) =>
        -- `supportRateNum <= sizeof(supportRate)`, which does not look at `ie_len`
        if len ≤ 16 then
          (copyInto 16 len m (q + 2) extLen) >>= fun ext => .done (some (rates ++ ext))
        else .done (some rates)

/-- The ciphers of the request that the access point also has. -/
def checkCiphers (parsed : Option (Nat × Nat)) (group pairwise : Nat) : AssocStatus :=
  match parsed with
  | none => .invalidIe
  | some (g, p) =>
    if p &&& pairwise = 0 then .pairwiseCipherNotValid
    else if g &&& group = 0 then .groupCipherNotValid
    else .successful

/-- "check RSN/WPA/WPS": the status, and the element that was taken. -/
def checkWpa (c : AssocConf) (m : Mem) (e : Elems) : AssocStatus × Option (Nat × Nat) :=
  match c.wpaPsk.testBit 1, e.rsn, c.wpaPsk.testBit 0, e.wpa with
  | true, some (p, len), _, _ =>
    (checkCiphers (rtwParseWpa2Ie m (p - 2) (len + 2)) c.wpa2GroupCipher c.wpa2PairwiseCipher,
      some (p, len))
  | _, _, true, some (p, len) =>
    (checkCiphers (rtwParseWpaIe m (p - 2) (len + 2)) c.wpaGroupCipher c.wpaPairwiseCipher,
      some (p, len))
  | _, _, _, _ => (.successful, none)

/-- Without an element: the access point has to be ready for WPS. -/
def checkWps (c : AssocConf) : AssocStatus :=
  if 0 < c.wpaPsk ∧ c.wpsSelectedRegistrar = some false then .unableHandleSta else .successful

/-- The element goes into `wpa_ie`, an array of 32 bytes, unless WPS is used. -/
def copyWpaIe (c : AssocConf) (m : Mem) (e : Elems) (p len : Nat) :
    Outcome (AssocStatus × List UInt8) :=
  if c.wpaPsk = 0 then .done (.invalidIe, [])
  else
    let copyLen := if e.wps.isSome then 0 else if 32 < len + 2 then 32 else len + 2
    (copyInto 32 0 m (p - 2) copyLen) >>= fun ie => .done (.successful, ie)

/-- The WMM element of the request: its `qos_info`. The limit of the search is not made
smaller on the way. Each turn goes two bytes forward at least, and `2 ^ 63` turns leave the
address space. -/
def wmmLoop (m : Mem) (limit : Nat) : Nat → Nat → Option Nat
  | 0, _ => none
  | fuel + 1, p =>
    match rtwGetIe m p vendorSpecificIe limit with
    | none => none
    | some (q, len) =>
      if m.read (q + 2) 6 = [0x00, 0x50, 0xf2, 0x02, 0x00, 0x01] then some (m (q + 8)).toNat
      else wmmLoop m limit fuel (q + len + 2)

def findWmm (c : AssocConf) (m : Mem) (i : AssocIes) : Option Nat :=
  if c.qosOption then wmmLoop m i.len (2 ^ 63) i.at' else none

/-- The HT element, when it is complete: `flags & WLAN_STA_HT` and `ht_cap.cap_info`. -/
def htOf (m : Mem) (e : Elems) (r : StaCaps) : StaCaps :=
  match e.htCapabilities with
  | some (p, len) =>
    if 26 ≤ len then { r with ht := true, htCapInfo := BitVec.ofNat 16 (m.le16 p) }
    else { r with ht := false, htCapInfo := 0 }
  | none => { r with ht := false, htCapInfo := 0 }

/-- `flags & WLAN_STA_VHT`. -/
def vhtOf (e : Elems) : Bool := e.vhtCapabilities.any fun v => v.2 = 12

/-! The vendor elements a group owner looks for. Here addresses count from the elements. -/

section

variable (c : AssocConf) (ies : Mem) (iesLen : Nat)

/-- What `process_assoc_req_p2p_ie` copies of the device info, which is in a buffer of its own length: the address,
the config methods, the primary type, and the secondary types and the name as far as they fit. -/
def deviceInfoCopies (buf : Mem) : Copies Unit := do
  Copies.copy 6 6
  Copies.copy 2 2
  Copies.copy 8 8
  let numOfSecdevType := (buf 16).toNat
  if numOfSecdevType ≠ 0 then Copies.copy 32 (min 32 (numOfSecdevType * 8))
  let name := 17 + numOfSecdevType * 8
  if buf.be16 name = wpsAttrDeviceName then Copies.copy 32 (min 32 (buf.be16 (name + 2)))

/-- "Check P2P Device Info ATTR": the attribute is copied once its length is known. -/
def assocReqDeviceInfo (ie : Nat × Nat) : Copies Unit := do
  match ← P2p.rtwGetP2pAttrContentLen ies ie .deviceInfo with
  | none => pure ()
  | some n =>
    if c.zmalloc n then
      let pbuf ← P2p.rtwGetP2pAttrContent ies ie .deviceInfo n
      deviceInfoCopies (c.behind.write 0 (pbuf.getD []))

/-- `process_assoc_req_p2p_ie` on one P2P element: the capability goes into the two bytes of a `u16`. -/
def assocReqP2pTurn (ie : Nat × Nat) : Copies Unit := do
  let _ ← P2p.rtwGetP2pAttrContent ies ie .capability 2
  assocReqDeviceInfo c ies ie

/-- `while (p2p_ie)`. Each element takes two bytes at least. -/
def assocReqP2pLoop : Nat → Option (Nat × Nat) → Copies Unit
  | 0, _ => pure ()
  | _ + 1, none => pure ()
  | fuel + 1, some ie => do
    assocReqP2pTurn c ies ie
    assocReqP2pLoop fuel (P2p.nextP2pIe ies iesLen ie)

/-- `process_assoc_req_p2p_ie`. Of what it does only its copies and its status are kept: 5 is
`P2P_STATUS_FAIL_REQUEST_UNABLE`, 4 is `P2P_STATUS_FAIL_INVALID_PARAM`. -/
def processAssocReqP2pIe : Copies Nat :=
  if !c.p2pGo then pure 5
  else do
    let p2pIe := P2p.rtwGetP2pIe ies 0 iesLen
    assocReqP2pLoop c ies iesLen iesLen p2pIe
    pure (if p2pIe.isNone then 4 else 0)

/-- `wfd_ie` with `len` bytes at `at'` in it: the rest of the array is zero. -/
def wfdIeArray (at' len : Nat) : Mem := fun k =>
  if k < len then ies (at' + k) else if k < 128 then 0 else c.behind k

/-- The WFD element goes into `wfd_ie`, an array of 128 bytes, and its device info from there into
`attr_content`, an array of 10. -/
def checkWfd : Copies Unit :=
  match rtwGetWfdIe ies 0 iesLen with
  | none => pure ()
  | some wfd => do
    Copies.copy 128 wfd.2
    let _ ← rtwGetWfdAttrContent (wfdIeArray c ies wfd.1 wfd.2) wfd.2 wfdAttrDeviceInfo 10

end

/-- What only a group owner checks. -/
def checkP2p (c : AssocConf) (m : Mem) (i : AssocIes) : Outcome AssocStatus :=
  let ies := m.shift i.at'
  if !c.p2pGo then .done .successful
  else
    (if (P2p.rtwGetP2pIe ies 0 i.len).isSome then (processAssocReqP2pIe c ies i.len).toOutcome
      else .done 0) >>= fun status =>
    if 0 < status then .done .capFail
    else (checkWfd c ies i.len).toOutcome >>= fun _ => .done .successful

/-- What the checks leave: the capabilities of the station, what they made of the WMM element
when they got there, and the status. -/
structure AssocResult where
  caps : StaCaps
  qos : Option (Option Nat) := none
  status : AssocStatus

/-- From the WMM element on. -/
def checkTail (c : AssocConf) (m : Mem) (i : AssocIes) (e : Elems) (rates : List UInt8)
    (r : StaCaps) : Outcome AssocResult :=
  let qos := some (findWmm c m i)
  let r := htOf m e r
  if !c.htOption && r.ht then .done ⟨r, qos, .failure⟩
  else if !c.vhtOption && vhtOf e then .done ⟨r, qos, .failure⟩
  else
    let r := { r with
      nonerp := rates.all fun x => (x &&& 0x7f) ≤ 22
      shortPreamble := (m.le16 wlanHdrA3Len).testBit 5 }
    (checkP2p c m i) >>= fun status => .done ⟨r, qos, status⟩

/-- From "check RSN/WPA/WPS" on. -/
def checkSecurity (c : AssocConf) (m : Mem) (i : AssocIes) (e : Elems) (rates : List UInt8)
    (r : StaCaps) : Outcome AssocResult :=
  let w := checkWpa c m e
  if w.1 ≠ .successful then .done ⟨r, none, w.1⟩
  else match w.2 with
    | none =>
      if checkWps c ≠ .successful then .done ⟨r, none, checkWps c⟩ else checkTail c m i e rates r
    | some (p, len) =>
      (copyWpaIe c m e p len) >>= fun x =>
        if x.1 ≠ .successful then .done ⟨r, none, x.1⟩ else checkTail c m i e rates r

/-- The checks of `OnAssocReq`, for a station that may ask. -/
def assocChecks (c : AssocConf) (m : Mem) (pktLen : Nat) (r : StaCaps) : Outcome AssocResult :=
  let i := assocIes m pktLen
  let r := { r with shortSlot := (m.le16 wlanHdrA3Len).testBit 10 }
  match rtwParseElems m i.at' i.len with
  | none => .done ⟨r, none, .failure⟩
  | some e =>
    if e.ssid.isNone then .done ⟨r, none, .failure⟩
    else if !checkSsid c m i then .done ⟨r, none, .failure⟩
    else
      (checkRates m i) >>= fun x =>
        match x with
        | none => .done ⟨r, none, .failure⟩
        | some rates => checkSecurity c m i e rates r

end Rtl8812au

import Rtl8812au.Ap.Assoc
import Rtl8812au.Ap.StaPriv
import Rtl8812au.Recv.Decrypt

/-!
# Stations come, ask and go

The access point's side of authentication and association: `OnAuth`, `OnAssocReq`, `OnDeAuth`
and `OnDisassoc` of `core/rtw_mlme_ext.c`, `expire_timeout_chk` and `ap_free_sta` of
`core/rtw_ap.c`, and what `rtw_alloc_stainfo` and `rtw_free_stainfo` do to the two lists.

The frames the access point answers with do not come back to it and are left out.
-/

namespace Rtl8812au

/-- `acl_list.mode`. -/
inductive AclMode where
  | off
  /-- 1: "accept unless in deny list". -/
  | deny
  /-- 2: "deny unless in accept list". -/
  | accept
  deriving Repr, DecidableEq

/-- What the access point is set up with. -/
structure ApConf where
  /-- `get_my_bssid(&pmlmeinfo->network)`. -/
  bssid : MacAddr := .zero
  sec : SecurityPriv := {}
  assoc : AssocConf := {}
  aclMode : AclMode := .off
  /-- `acl_list`: the address of a node, and whether it is valid. -/
  acl : List (MacAddr × Bool) := []
  /-- `pstapriv->auth_to` and `pstapriv->assoc_to`. -/
  authTo : Nat := 3
  assocTo : Nat := 3
  /-- `registrypriv.wifi_spec == 1`. -/
  wifiSpec : Bool := false
  /-- `pmlmeext->active_keep_alive_check`. -/
  activeKeepAliveCheck : Bool := false

/-- The rest of `struct sta_info`: `WIFI_FW_AUTH_NULL`, `WIFI_FW_AUTH_STATE`,
`WIFI_FW_ASSOC_STATE` and `WIFI_FW_ASSOC_SUCCESS` of `state`, and three fields. -/
structure MlmeSta where
  authNull : Bool := false
  authState : Bool := false
  assocState : Bool := false
  assocSuccess : Bool := false
  authSeq : Nat := 0
  chgTxt : List UInt8 := List.replicate 128 0
  keepAliveTrycnt : Nat := 0

/-- The access point. -/
structure Ap where
  conf : ApConf := {}
  priv : StaPriv := {}
  mlme : StaSlot → MlmeSta := fun _ => {}
  bss : Bss := {}
  authList : List StaSlot := []
  authListCnt : Int := 0
  asocList : List StaSlot := []
  asocListCnt : Int := 0

/-! ## The lists -/

namespace Ap

variable (a : Ap) (s : StaSlot)

def updMlme (u : MlmeSta → MlmeSta) : Ap :=
  { a with mlme := fun k => if k = s then u (a.mlme k) else a.mlme k }

def updTx (u : TxSta → TxSta) : Ap := { a with priv := a.priv.updSta s u }

/-- `psta->expire_to = n`. -/
def setExpireTo (n : Nat) : Ap := a.updTx s fun x => { x with expireTo := n }

/-- A station is taken off `auth_list` if it is on it. -/
def offAuth : Ap :=
  if s ∈ a.authList then
    { a with authList := a.authList.filter (· != s), authListCnt := a.authListCnt - 1 }
  else a

/-- A station is put at the end of `auth_list` if it is not on it. -/
def ontoAuth : Ap :=
  if s ∈ a.authList then a
  else { a with authList := a.authList ++ [s], authListCnt := a.authListCnt + 1 }

/-- A station is taken off `asoc_list` if it is on it. -/
def offAsoc : Ap :=
  if s ∈ a.asocList then
    { a with asocList := a.asocList.filter (· != s), asocListCnt := a.asocListCnt - 1 }
  else a

/-- A station is put at the end of `asoc_list` if it is not on it. -/
def ontoAsoc : Ap :=
  if s ∈ a.asocList then a
  else { a.setExpireTo s a.priv.expireTo with
    asocList := a.asocList ++ [s], asocListCnt := a.asocListCnt + 1 }

/-- `rtw_free_stainfo`, which leaves `asoc_list` to its callers. -/
def freeSta : Ap := { a.offAuth s with priv := freeStainfo a.priv s }

/-- `ap_free_sta`. -/
def apFreeSta : Ap :=
  { a with bss := (bssCapUpdateOnStaLeave a.bss s).1 }.freeSta s

/-- `rtw_alloc_stainfo`: everything of the station is zero, and `OnAuth` starts it in
`WIFI_FW_AUTH_NULL`. -/
def allocSta (hwaddr : MacAddr) : Option (StaSlot × Ap) :=
  (allocStainfo a.priv hwaddr).map fun r =>
    (r.1, { a with
      priv := r.2
      mlme := fun k => if k = r.1 then { authNull := true } else a.mlme k
      bss := { a.bss.setCaps r.1 {} with
        isSet := fun k c => if k = r.1 then false else a.bss.isSet k c } })

end Ap

/-! ## `OnAuth` -/

/-- `rtw_access_ctrl`. -/
def rtwAccessCtrl (c : ApConf) (addr : MacAddr) : Bool :=
  let found := c.acl.any fun n => n.1 = addr && n.2
  match c.aclMode with
  | .off => true
  | .deny => !found
  | .accept => found

/-- The frame after the decryption of a protected one, whose result is not looked at, and the
offset of the fixed fields that goes with it. -/
def authFrame (sec : SecurityPriv) (f : RecvFrame) : Outcome (RecvFrame × Nat) :=
  if Wifi.getPrivacy f.buf f.rxData then
    let attrib := { f.attrib with
      hdrlen := wlanHdrA3Len
      encrypt := .wep40
      keyIndex := (f.buf (f.rxData + wlanHdrA3Len + 3)).toNat >>> 6
      ivLen := 4
      icvLen := 4 }
    (rtwWepDecrypt sec { f with attrib := attrib }) >>= fun f => .done (f, 4)
  else .done (f, 0)

/-- `auth_mode`: 802.1X without WEP is open. -/
def authMode (sec : SecurityPriv) : AuthAlgrthm :=
  if sec.dot11AuthAlgrthm = .ieee8021x ∧ sec.dot11PrivacyAlgrthm ≠ .wep40 ∧
      sec.dot11PrivacyAlgrthm ≠ .wep104 then .open
  else sec.dot11AuthAlgrthm

/-- "bad alg". -/
def badAlg (mode : AuthAlgrthm) (algorithm : Nat) : Bool :=
  (0 < algorithm ∧ mode = .open) ∨ (algorithm = 0 ∧ mode = .shared)

/-- The comparison with `chg_txt`. The element is looked for where it stands in a protected
frame, in every frame; its length only has to be positive. -/
def challengeRight (m : Mem) (len : Nat) (chgTxt : List UInt8) : Bool :=
  match rtwGetIe m (wlanHdrA3Len + 4 + authIeOffset) chlgetxtIe
      ((len : Int) - wlanHdrA3Len - authIeOffset - 4) with
  | none => false
  | some (p, ieLen) => 0 < ieLen ∧ m.read (p + 2) 128 = chgTxt

/-- Where `OnAuth` gets with a station. -/
inductive AuthEnd where
  /-- `auth_fail`. -/
  | fail
  /-- The open system. -/
  | opened
  /-- The challenge is sent. -/
  | challenged
  /-- The challenge came back. -/
  | proven
  deriving Repr, DecidableEq

/-- The decision of `OnAuth` over a frame from a station it has. -/
def authEnd (mode : AuthAlgrthm) (x : MlmeSta) (m : Mem) (len algorithm seq : Nat) : AuthEnd :=
  if x.authSeq + 1 ≠ seq then .fail
  else if algorithm = 0 ∧ (mode = .open ∨ mode = .ieee8021x ∨ mode = .auto) then
    if seq = 1 then .opened else .fail
  else if seq = 1 then .challenged
  else if seq = 3 then
    if challengeRight m len x.chgTxt then .proven else .fail
  else .fail

/-- `WIFI_FW_AUTH_SUCCESS`, and the time the station has to associate. -/
def Ap.authSucceeds (a : Ap) (s : StaSlot) : Ap :=
  a.updTx s fun x => { x with authSuccess := true, expireTo := a.conf.assocTo }

/-- What becomes of the station. -/
def authApply (a : Ap) (s : StaSlot) : AuthEnd → Ap
  | .fail => a.freeSta s
  | .opened =>
    (a.authSucceeds s).updMlme s fun x => { x with authNull := false, authSeq := 0 }
  | .challenged =>
    a.updMlme s fun x =>
      { x with
        chgTxt := List.replicate 128 78
        authNull := false
        authState := true
        authSeq := if (a.priv.sta s).authSuccess then 0 else 2 }
  | .proven =>
    (a.authSucceeds s).updMlme s fun x => { x with authState := false, authSeq := 0 }

/-- `OnAuth` from the lookup of the station to the check of the sequence number. -/
def authStation (a : Ap) (sa : MacAddr) : Option (StaSlot × Ap) :=
  match a.priv.getStainfo sa with
  | none => a.allocSta sa
  | some s => some (s, a.offAsoc s)

/-- The station waits on `auth_list`, from its first frame on for `auth_to` ticks. -/
def authWait (a : Ap) (s : StaSlot) : Ap :=
  let a := a.ontoAuth s
  if (a.mlme s).authSeq = 0 then a.setExpireTo s a.conf.authTo else a

/-- `OnAuth` with the frame decrypted, `offset` being that of its fixed fields. -/
def authHandle (a : Ap) (f : RecvFrame) (offset : Nat) : Ap :=
  let m := f.buf.shift f.rxData
  let sa := Wifi.getAddr2 m 0
  let algorithm := m.le16 (wlanHdrA3Len + offset)
  let seq := m.le16 (wlanHdrA3Len + offset + 2)
  let mode := authMode a.conf.sec
  if badAlg mode algorithm then a
  else if !rtwAccessCtrl a.conf sa then a
  else match authStation a sa with
    | none => a
    | some (s, a) =>
      let a := authWait a s
      authApply a s (authEnd mode (a.mlme s) m f.len algorithm seq)

/-- `OnAuth`. -/
def onAuth (a : Ap) (f : RecvFrame) : Outcome Ap :=
  (authFrame a.conf.sec f) >>= fun r => .done (authHandle a r.1 r.2)

/-! ## `OnAssocReq` -/

/-- The station was authenticated, or is associated. -/
def Ap.mayAsk (a : Ap) (s : StaSlot) : Bool :=
  (a.priv.sta s).authSuccess || (a.mlme s).assocSuccess

/-- One of the two bits is traded for `WIFI_FW_ASSOC_STATE`. -/
def Ap.asking (a : Ap) (s : StaSlot) : Ap :=
  if (a.priv.sta s).authSuccess then
    (a.updTx s fun x => { x with authSuccess := false }).updMlme s fun x =>
      { x with assocState := true }
  else a.updMlme s fun x => { x with assocSuccess := false, assocState := true }

/-- `ht_option` is one field of `struct mlme_priv`. -/
def Ap.assocConf (a : Ap) : AssocConf := { a.conf.assoc with htOption := a.bss.htOption }

/-- What the checks leave in the station. -/
def Ap.learn (a : Ap) (s : StaSlot) (r : AssocResult) : Ap :=
  { a with
    bss := a.bss.setCaps s r.caps
    priv := match r.qos with
      | none => a.priv
      | some wmm => assocQos a.priv s wmm }

/-- `OnAssocReqFail`. -/
def Ap.refuse (a : Ap) (s : StaSlot) : Ap := { a with priv := dropAid a.priv s }

/-- The station is in. -/
def Ap.accept (a : Ap) (s : StaSlot) : Ap :=
  let a := a.updMlme s fun x => { x with assocState := false, assocSuccess := true }
  let a := (a.offAuth s).ontoAsoc s
  { a with bss := (bssCapUpdateOnStaJoin a.bss s).1, priv := linkSta a.priv s }

/-- "get a unique AID" and what follows it. -/
def assocFinish (a : Ap) (s : StaSlot) (status : AssocStatus) : Ap :=
  if status = .successful then
    match assocAid a.priv s with
    | none => a.refuse s
    | some p => { a with priv := p }.accept s
  else a.refuse s

/-- `OnAssocReq`. -/
def onAssocReq (a : Ap) (f : RecvFrame) : Outcome Ap :=
  let m := f.buf.shift f.rxData
  if f.len < (assocIes m f.len).at' then .done a
  else match a.priv.getStainfo (Wifi.getAddr2 m 0) with
    | none => .done a
    | some s =>
      if !a.mayAsk s then .done a
      else
        (assocChecks a.assocConf m f.len (a.bss.caps s)) >>= fun r =>
          .done (assocFinish ((a.asking s).learn s r) s r.status)

/-! ## `OnDeAuth`, `OnDisassoc` -/

/-- What both do in an access point. -/
def stationLeaves (a : Ap) (f : RecvFrame) : Ap :=
  if Wifi.getAddr3 f.buf f.rxData ≠ a.conf.bssid then a
  else match a.priv.getStainfo (Wifi.getAddr2 f.buf f.rxData) with
    | none => a
    | some s => if s ∈ a.asocList then (a.offAsoc s).apFreeSta s else a

def onDeAuth (a : Ap) (f : RecvFrame) : Ap := stationLeaves a f

def onDisassoc (a : Ap) (f : RecvFrame) : Ap := stationLeaves a f

/-! ## `expire_timeout_chk` -/

/-- What a tick finds out there. -/
structure Tick where
  /-- `chk_sta_is_alive`. -/
  alive : StaSlot → Bool := fun _ => false
  /-- `issue_nulldata` was acknowledged. -/
  acked : StaSlot → Bool := fun _ => false
  freeXmitframeCnt : Int := 0

/-- `NR_XMITFRAME`. -/
abbrev nrXmitframe : Int := 256

/-- A station of `auth_list`. -/
def expireAuth (a : Ap) (s : StaSlot) : Ap :=
  let left := (a.priv.sta s).expireTo
  if left = 0 then a
  else if left = 1 then ((a.setExpireTo s 0).offAuth s).freeSta s
  else a.setExpireTo s (left - 1)

/-- The count down of a station of `asoc_list`. -/
def countDown (a : Ap) (t : Tick) (s : StaSlot) : Ap :=
  let left := (a.priv.sta s).expireTo
  if t.alive s ∨ left = 0 then
    (a.setExpireTo s a.priv.expireTo).updMlme s fun x => { x with keepAliveTrycnt := 0 }
  else a.setExpireTo s (left - 1)

/-- "to check if alive by another methods if staion is at ps mode": the TIM element calls it,
whether or not a frame waits. -/
def callSleeping (a : Ap) (s : StaSlot) : Ap :=
  let p := a.priv.updSta s fun x => { x with expireTo := a.priv.expireTo, authSuccess := true }
  { a with priv :=
      { p with timBitmap := p.timBitmap ||| bitU16 (p.sta s).aid }.updateTim }

/-- The aging of `sleep_q`. The station is on the list, so the count is not zero. -/
def ageSleepq (a : Ap) (t : Tick) (s : StaSlot) : Ap :=
  let share := nrXmitframe / a.asocListCnt
  if share < (a.priv.sta s).sleepqLen ∧ t.freeXmitframeCnt < share / 2 then
    { a with priv := wakeupStaToXmit a.priv s }
  else a

/-- A station of `asoc_list` whose time is up; the second component is `chk_alive_list`. -/
def timeUp (a : Ap) (s : StaSlot) (chk : List StaSlot) : Ap × List StaSlot :=
  if a.conf.wifiSpec then (a.setExpireTo s a.priv.expireTo, chk)
  else
    let x := a.priv.sta s
    let calls := x.sleep && !x.authSuccess
    let a := if calls then callSleeping a s else a
    if a.conf.activeKeepAliveCheck then (a, chk ++ [s])
    else if calls then (a, chk)
    else ((a.offAsoc s).apFreeSta s, chk)

/-- A station of `asoc_list`. -/
def expireAsoc (t : Tick) (acc : Ap × List StaSlot) (s : StaSlot) : Ap × List StaSlot :=
  let a := countDown acc.1 t s
  if (a.priv.sta s).expireTo = 0 then timeUp a s acc.2 else (ageSleepq a t s, acc.2)

/-- "issue null data to check sta alive". -/
def keepAlive (t : Tick) (a : Ap) (s : StaSlot) : Ap :=
  if !(a.priv.sta s).linked then a
  else if t.acked s then
    (a.setExpireTo s a.priv.expireTo).updMlme s fun x => { x with keepAliveTrycnt := 0 }
  else if (a.mlme s).keepAliveTrycnt + 1 ≤ 3 then
    (a.setExpireTo s 1).updMlme s fun x => { x with keepAliveTrycnt := x.keepAliveTrycnt + 1 }
  else
    let a := a.updMlme s fun x => { x with keepAliveTrycnt := 0 }
    if s ∈ a.asocList then (a.offAsoc s).apFreeSta s else a

/-- `expire_timeout_chk`. Both loops have the next station in hand before they free one. -/
def expireTimeoutChk (a : Ap) (t : Tick) : Ap :=
  let a := a.authList.foldl expireAuth a
  let r := a.asocList.foldl (expireAsoc t) (a, [])
  r.2.foldl (keepAlive t) r.1

/-! ## The access point over time -/

/-- What happens to an access point. -/
inductive ApEvent where
  | auth (f : RecvFrame)
  | assocReq (f : RecvFrame)
  | deauth (f : RecvFrame)
  | disassoc (f : RecvFrame)
  | expire (t : Tick)
  /-- Frames are buffered, sent or polled for. -/
  | traffic (op : PsOp)

/-- The operations that are not a part of the above. -/
def PsOp.traffic : PsOp → Bool
  | .enqueue _ | .classify _ | .dequeue _ | .stop _ | .wakeup _ | .deliver _ | .psPoll .. => true
  | _ => false

def apStep (a : Ap) : ApEvent → Outcome Ap
  | .auth f => onAuth a f
  | .assocReq f => onAssocReq a f
  | .deauth f => .done (onDeAuth a f)
  | .disassoc f => .done (onDisassoc a f)
  | .expire t => .done (expireTimeoutChk a t)
  | .traffic op =>
    if op.traffic then (psStep a.priv op) >>= fun p => .done { a with priv := p } else .done a

/-- The access point when it starts: the broadcast station of `rtw_init_bcmc_stainfo`, and no
other. -/
def startAp (conf : ApConf) (hiq : HiqFilter) (expireTo maxNumSta : Nat) (b : Bss) : Ap :=
  let p := initStaPriv true hiq expireTo maxNumSta
  { conf := conf
    priv := (allocStainfo p .bcast).elim p Prod.snd
    bss := { startApMode b with caps := fun _ => {}, isSet := fun _ _ => false } }

end Rtl8812au

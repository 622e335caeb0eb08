import Rtl8812au.Ap.Mlme
import Rtl8812au.Scan.Network

/-!
# A station joins

The station's side of authentication and association in `core/rtw_mlme_ext.c`: `join_cmd_hdl` starts an
attempt, `OnBeacon`, `OnAuthClient` and `OnAssocRsp` take it on, `link_timer_hdl` tries again or gives up,
`OnDeAuth`, `OnDisassoc` and `disconnect_hdl` end it, and `report_join_res` tells the rest of the driver.
An ad hoc network is joined by the same command or made by `createbss_hdl`; its stations come with their
beacons, and `mlmeext_sta_add_event_callback` answers the first.

What is only sent is left out, and so is what the handlers learn about rates and bandwidths on the way.
`CONFIG_CONCURRENT_MODE` is off: `rtw_chk_start_clnt_join` never refuses. `CONFIG_PATCH_JOIN_WRONG_CHANNEL` and
`CONFIG_WOWLAN` are off too.
-/

namespace Rtl8812au

/-! ## `pmlmeinfo->state` -/

abbrev wifiFwNullState : UInt32 := 0x00
abbrev wifiFwAdhocState : UInt32 := 0x01
abbrev wifiFwStationState : UInt32 := 0x02
abbrev wifiFwApState : UInt32 := 0x03
abbrev wifiFwAuthNull : UInt32 := 0x0100
abbrev wifiFwAuthState : UInt32 := 0x0200
abbrev wifiFwAuthSuccess : UInt32 := 0x0400
abbrev wifiFwAssocState : UInt32 := 0x2000
abbrev wifiFwAssocSuccess : UInt32 := 0x4000

/-- `WIFI_FW_LINKING_STATE`. -/
abbrev wifiFwLinkingState : UInt32 :=
  wifiFwAuthNull ||| wifiFwAuthState ||| wifiFwAuthSuccess ||| wifiFwAssocState

/-- `REAUTH_TO`, `REASSOC_TO`, `REAUTH_LIMIT`, `REASSOC_LIMIT`. -/
abbrev reauthTo : Nat := 300
abbrev reassocTo : Nat := 300
abbrev reauthLimit : Nat := 4
abbrev reassocLimit : Nat := 4

/-- `WAIT_FOR_BCN_TO_MIN`, `WAIT_FOR_BCN_TO_MAX`. -/
abbrev waitForBcnToMin : Nat := 6000
abbrev waitForBcnToMax : Nat := 20000

/-- `WLAN_REASON_PREV_AUTH_NOT_VALID`, `WLAN_REASON_CLASS2_FRAME_FROM_NONAUTH_STA`. -/
abbrev wlanReasonPrevAuthNotValid : Nat := 2
abbrev wlanReasonClass2FrameFromNonauthSta : Nat := 6

/-- `cap_ESS`, `cap_IBSS`. -/
abbrev capEss : UInt16 := 0x01
abbrev capIbss : UInt16 := 0x02

/-- `Ndis802_11IBSS`. -/
abbrev ndis802_11Ibss : UInt32 := 0

/-- `sizeof(pmlmeinfo->chg_txt)`. -/
abbrev chgTxtSize : Nat := 128

/-- The parts of `struct mlme_ext_info` and `struct mlme_ext_priv` that the handlers go by. -/
structure Client where
  /-- `myid(&padapter->eeprompriv)`. -/
  myid : MacAddr
  state : UInt32 := wifiFwNullState
  /-- `get_my_bssid(&pmlmeinfo->network)`. -/
  bssid : MacAddr := .zero
  authAlgo : AuthAlgrthm := .open
  authSeq : Nat := 0
  reauthCount : Nat := 0
  reassocCount : Nat := 0
  aid : Nat := 0
  chgTxt : Mem := fun _ => 0
  /-- `link_timer`, if it is set: the milliseconds it was set to. -/
  linkTimer : Option Nat := none
  /-- The results `report_join_res` has enqueued, the latest one last. -/
  joinRes : List Int := []
  /-- The reasons `report_del_sta_event` has enqueued. -/
  delSta : List Nat := []
  /-- The stations `report_add_sta_event` has enqueued. -/
  addSta : List MacAddr := []

namespace Client

variable (c : Client)

/-- `pmlmeinfo->state & bits`. -/
def is (bits : UInt32) : Bool := c.state &&& bits != 0

/-- `(pmlmeinfo->state & 0x03) == WIFI_FW_STATION_STATE`. -/
def isStation : Bool := c.state &&& 0x03 == wifiFwStationState

/-- `(pmlmeinfo->state & 0x03) == WIFI_FW_ADHOC_STATE`. -/
def isAdhoc : Bool := c.state &&& 0x03 == wifiFwAdhocState

/-- `is_client_associated_to_ap`, `is_client_associated_to_ibss`. -/
def isClientAssociatedToAp : Bool := c.is wifiFwAssocSuccess && c.isStation
def isClientAssociatedToIbss : Bool := c.is wifiFwAssocSuccess && c.isAdhoc

/-- `set_link_timer`. -/
def setLinkTimer (ms : Nat) : Client := { c with linkTimer := some ms }

/-- `_cancel_timer_ex(&pmlmeext->link_timer)`. -/
def cancelLinkTimer : Client := { c with linkTimer := none }

def reportJoinRes (res : Int) : Client := { c with joinRes := c.joinRes ++ [res] }

def reportDelStaEvent (reason : Nat) : Client := { c with delSta := c.delSta ++ [reason] }

def reportAddStaEvent (addr : MacAddr) : Client := { c with addSta := c.addSta ++ [addr] }

/-- `pmlmeinfo->state = WIFI_FW_NULL_STATE`. -/
def nullState : Client := { c with state := wifiFwNullState }

/-! ## An attempt -/

/-- `decide_wait_for_beacon_timeout`. -/
def decideWaitForBeaconTimeout (bcnInterval : Nat) : Nat :=
  if bcnInterval * 4 < waitForBcnToMin then waitForBcnToMin
  else if bcnInterval * 4 > waitForBcnToMax then waitForBcnToMax
  else bcnInterval * 4

/-- `start_clnt_join`. -/
def startClntJoin (net : WlanBssidEx) : Client :=
  if net.capability &&& capEss != 0 then
    { c.setLinkTimer (decideWaitForBeaconTimeout (net.ies.le16 8)) with
      state := wifiFwAuthNull ||| wifiFwStationState }
  else if net.capability &&& capIbss != 0 then
    { c with state := wifiFwAdhocState }.reportJoinRes 1
  else c

/-- `start_clnt_auth`. -/
def startClntAuth : Client :=
  { c.cancelLinkTimer with
    state := c.state &&& ~~~wifiFwAuthNull ||| wifiFwAuthState
    authSeq := 1
    reauthCount := 0
    reassocCount := 0 }.setLinkTimer reauthTo

/-- `start_clnt_assoc`. -/
def startClntAssoc : Client :=
  { c.cancelLinkTimer with
    state := c.state &&& ~~~(wifiFwAuthNull ||| wifiFwAuthState)
      ||| (wifiFwAuthSuccess ||| wifiFwAssocState) }.setLinkTimer reassocTo

/-- `receive_disconnect`. -/
def receiveDisconnect (macAddr : MacAddr) (reason : Nat) : Client :=
  if macAddr ≠ c.bssid then c
  else if c.isStation then
    if c.is wifiFwAssocSuccess then c.nullState.reportDelStaEvent reason
    else if c.is wifiFwLinkingState then c.nullState.reportJoinRes (-2)
    else c
  else c

/-- `rtw_mlmeext_disconnect`. -/
def mlmeextDisconnect : Client := c.nullState.cancelLinkTimer

/-! ## Commands -/

/-- "check already connecting to AP or not". -/
def leaveFirst : Client :=
  if c.is wifiFwAssocSuccess then c.nullState.cancelLinkTimer else c

/-- `join_cmd_hdl`. With `tooLong` the `IELength` that comes with `net` is over `MAX_IE_SZ`: the address is
taken over before that is looked at. -/
def joinCmdHdl (net : WlanBssidEx) (tooLong : Bool) : Client :=
  let c := { c.leaveFirst with bssid := net.macAddress }
  if tooLong then c else startClntJoin c.cancelLinkTimer net

/-- What `createbss_hdl` finds elsewhere: that `IELength` is over `MAX_IE_SZ`, that `send_beacon` succeeds, and
the address of `cur_network`, which `start_bss_network` takes. -/
structure CreateEnv where
  tooLong : Bool := false
  beaconSent : Bool := true
  curBssid : MacAddr := .zero

/-- `start_create_ibss`. -/
def startCreateIbss (net : WlanBssidEx) (beaconSent : Bool) : Client :=
  if net.capability &&& capIbss != 0 then
    let c := { c with state := wifiFwAdhocState }
    if !beaconSent then (c.reportJoinRes (-1)).nullState
    else
      let c := c.reportJoinRes 1
      { c with state := c.state ||| wifiFwAssocSuccess }
  else c

/-- `createbss_hdl`. -/
def createbssHdl (env : CreateEnv) (net : WlanBssidEx) : Client :=
  if c.state = wifiFwApState then { c with bssid := env.curBssid }
  else if net.infrastructureMode = ndis802_11Ibss then
    let c := { c.cancelLinkTimer with bssid := net.macAddress }
    if env.tooLong then c else c.startCreateIbss net env.beaconSent
  else c

/-- `mlmeext_sta_add_event_callback`: the first station of an ad hoc network is answered with a beacon. -/
def mlmeextStaAddEventCallback (beaconSent : Bool) : Client :=
  if c.isAdhoc then
    if c.is wifiFwAssocSuccess then c
    else if !beaconSent then { c with state := c.state ^^^ wifiFwAdhocState }
    else { c with state := c.state ||| wifiFwAssocSuccess }
  else c

/-- `setopmode_hdl` for the modes that change `state`. -/
inductive OpMode where
  | apMode
  | infrastructure

def setopmodeHdl : OpMode → Client
  | .apMode => { c with state := wifiFwApState }
  | .infrastructure => { c with state := c.state &&& ~~~0x03 ||| wifiFwStationState }

/-- `setauth_hdl`: a mode of 4 or more is not taken. -/
def setauthHdl (mode : AuthAlgrthm) : Client :=
  if mode = .wapi then c else { c with authAlgo := mode }

/-! ## Frames -/

/-- What `OnBeacon` finds out elsewhere: `sitesurvey_res.state == SCAN_PROCESS`, that the sender
is a station whose beacon `rtw_check_bcn_info` does not accept, or that it is none,
`allocate_fw_sta_entry` has an entry left and `update_sta_support_rate` finds its rates. -/
structure BeaconEnv where
  scanProcess : Bool := false
  apChanged : Bool := false
  newSta : Bool := false

/-- `OnBeacon`. -/
def onBeacon (env : BeaconEnv) (f : RecvFrame) : Client :=
  if env.scanProcess then c
  else if Wifi.getAddr3 f.buf f.rxData ≠ c.bssid then c
  else if c.is wifiFwAuthNull then c.startClntAuth
  else if c.isStation && c.is wifiFwAssocSuccess then
    if env.apChanged then c.receiveDisconnect c.bssid 0 else c
  else if c.isAdhoc && env.newSta then c.reportAddStaEvent (Wifi.getAddr2 f.buf f.rxData)
  else c

/-- The fixed fields of an authentication frame: algorithm, sequence number and status. -/
structure AuthFields where
  algthm : Nat
  seq : Nat
  status : Nat

def authFields (f : RecvFrame) : AuthFields :=
  let offset := if Wifi.getPrivacy f.buf f.rxData then 4 else 0
  let at' := f.rxData + wlanHdrA3Len + offset
  ⟨f.buf.le16 at', f.buf.le16 (at' + 2), f.buf.le16 (at' + 4)⟩

/-- The refused authentication: "status 13" asks for the other algorithm. -/
def authRefused (status : Nat) : Client :=
  let c := if status = 13 then
      { c with authAlgo := if c.authAlgo = .shared then .open else .shared }
    else c
  c.setLinkTimer 1

/-- "legendary shared system": the challenge is stored and sent back. Nothing looks at how long it is. -/
def challenged (f : RecvFrame) : Outcome Client :=
  match rtwGetIe f.buf (f.rxData + wlanHdrA3Len + authIeOffset) chlgetxtIe
      ((f.len : Int) - wlanHdrA3Len - authIeOffset) with
  | none => .done c
  | some (p, len) =>
    if len ≤ chgTxtSize then
      .done ({ c with chgTxt := c.chgTxt.copy 0 f.buf (p + 2) len, authSeq := 3 }.setLinkTimer reauthTo)
    else .overrun

/-- `OnAuthClient`. -/
def onAuthClient (f : RecvFrame) : Outcome Client :=
  if c.myid ≠ Wifi.getDa f.buf f.rxData then .done c
  else if !c.is wifiFwAuthState then .done c
  else
    let a := authFields f
    if a.status ≠ 0 then .done (c.authRefused a.status)
    else if a.seq = 2 then
      if c.authAlgo = .shared then c.challenged f else .done c.startClntAssoc
    else if a.seq = 4 then
      if c.authAlgo = .shared then .done c.startClntAssoc else .done c
    else .done c

/-- `OnAssocRsp`. -/
def onAssocRsp (f : RecvFrame) : Client :=
  if c.myid ≠ Wifi.getDa f.buf f.rxData then c
  else if !c.is (wifiFwAuthSuccess ||| wifiFwAssocState) then c
  else if c.is wifiFwAssocSuccess then c
  else
    let c := c.cancelLinkTimer
    let at' := f.rxData + wlanHdrA3Len
    if 0 < f.buf.le16 (at' + 2) then c.nullState.reportJoinRes (-4)
    else
      let aid := f.buf.le16 (at' + 4) &&& 0x3fff
      { c with aid := aid, state := c.state &&& ~~~wifiFwAssocState ||| wifiFwAssocSuccess }.reportJoinRes aid

/-- The reason a deauthentication or disassociation frame gives. -/
def reasonOf (f : RecvFrame) : Nat := f.buf.le16 (f.rxData + wlanHdrA3Len)

/-- `OnDeAuth` in a station. -/
def onDeAuth (f : RecvFrame) : Client :=
  if Wifi.getAddr3 f.buf f.rxData ≠ c.bssid then c
  else
    let reason := reasonOf f
    if (c.is wifiFwAuthState || c.is wifiFwAssocState)
        && (reason = wlanReasonClass2FrameFromNonauthSta || reason = wlanReasonPrevAuthNotValid) then c
    else c.receiveDisconnect (Wifi.getAddr3 f.buf f.rxData) reason

/-- `OnDisassoc` in a station. -/
def onDisassoc (f : RecvFrame) : Client :=
  if Wifi.getAddr3 f.buf f.rxData ≠ c.bssid then c
  else c.receiveDisconnect (Wifi.getAddr3 f.buf f.rxData) (reasonOf f)

/-! ## `link_timer_hdl` -/

/-- The timer is no longer set when its handler runs. -/
def linkTimerHdl : Client :=
  let c := c.cancelLinkTimer
  if c.is wifiFwAuthNull then c.nullState.reportJoinRes (-3)
  else if c.is wifiFwAuthState then
    let c := { c with reauthCount := c.reauthCount + 1 }
    if c.reauthCount > reauthLimit then c.nullState.reportJoinRes (-1)
    else { c with authSeq := 1 }.setLinkTimer reauthTo
  else if c.is wifiFwAssocState then
    let c := { c with reassocCount := c.reassocCount + 1 }
    if c.reassocCount > reassocLimit then c.nullState.reportJoinRes (-2)
    else c.setLinkTimer reassocTo
  else c

end Client

/-! ## Any order -/

/-- What happens to a station. -/
inductive ClientEvent where
  | join (net : WlanBssidEx) (tooLong : Bool)
  | createBss (env : Client.CreateEnv) (net : WlanBssidEx)
  | staAdd (beaconSent : Bool)
  | disconnect
  | setopmode (mode : Client.OpMode)
  /-- `stop_ap_mode` -/
  | stopApMode
  | setauth (mode : AuthAlgrthm)
  | beacon (env : Client.BeaconEnv) (f : RecvFrame)
  | auth (f : RecvFrame)
  | assocRsp (f : RecvFrame)
  | deauth (f : RecvFrame)
  | disassoc (f : RecvFrame)
  /-- `link_timer` has run out. -/
  | linkTimer
  /-- `receive_disconnect` from `linked_status_chk`, or for an active roam. -/
  | linkLost (macAddr : MacAddr) (reason : Nat)

def clientStep (c : Client) : ClientEvent → Outcome Client
  | .join net tooLong => .done (c.joinCmdHdl net tooLong)
  | .createBss env net => .done (c.createbssHdl env net)
  | .staAdd beaconSent => .done (c.mlmeextStaAddEventCallback beaconSent)
  | .disconnect => .done c.mlmeextDisconnect
  | .setopmode mode => .done (c.setopmodeHdl mode)
  | .stopApMode => .done c.nullState
  | .setauth mode => .done (c.setauthHdl mode)
  | .beacon env f => .done (c.onBeacon env f)
  | .auth f => c.onAuthClient f
  | .assocRsp f => .done (c.onAssocRsp f)
  | .deauth f => .done (c.onDeAuth f)
  | .disassoc f => .done (c.onDisassoc f)
  | .linkTimer => .done c.linkTimerHdl
  | .linkLost macAddr reason => .done (c.receiveDisconnect macAddr reason)

/-- `init_mlme_ext_priv_value`. -/
def Client.start (myid : MacAddr) : Client := { myid := myid }

end Rtl8812au

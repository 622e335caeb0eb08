import Rtl8812au.Lib.Pick
import Rtl8812au.Scan.Network
import Rtl8812au.P2p.NegoFrame

/-!
# The network that is joined

`rtw_select_roaming_candidate` and `rtw_select_and_join_from_scanned_queue` of `core/rtw_mlme.c` over the
scan table. The first leaves a pointer to an entry in `roam_network`, the second takes that entry without
another look at it, or else looks for the strongest one that will do. With `CONFIG_LAYER2_ROAMING`.
-/

namespace Rtl8812au

/-- `Ndis802_11EncryptionDisabled`, `Ndis802_11AuthModeWPA2PSK`. -/
abbrev ndis802_11EncryptionDisabled : UInt32 := 1
abbrev ndis802_11AuthModeWPA2PSK : UInt32 := 7

/-- `_RSN_IE_2_`, `WPS_ATTR_SELECTED_REGISTRAR`. -/
abbrev rsnIe2 : UInt8 := 48
abbrev wpsAttrSelectedRegistrar : Nat := 0x1041

/-- What the rest of the driver has set. -/
structure MlmeCfg where
  /-- `WIFI_UNDER_WPS`, `_FW_LINKED`, `WIFI_ADHOC_STATE` -/
  underWps : Bool
  linked : Bool
  adhoc : Bool
  /-- `WIFI_ADHOC_MASTER_STATE` with one station associated -/
  aloneMaster : Bool
  /-- `wifi_spec` is 1 -/
  wifiSpec : Bool
  ndisencryptstatus : UInt32
  ndisauthtype : UInt32
  curNetwork : WlanBssidEx
  curNetworkScanned : Option BssSlot
  assocByBssid : Bool
  assocBssid : MacAddr
  assocSsid : Mem
  assocSsidLength : Nat
  toRoam : UInt8
  roamScanrExpMs : UInt32
  roamRssiDiffTh : UInt8
  roamTgtAddr : MacAddr

/-- What is joined and what it is chosen from: `scanned_queue` with its pool, `roam_network`, and the
settings. -/
structure RoamMlme where
  table : ScanTable
  roamNetwork : Option BssSlot
  cfg : MlmeCfg

/-! ## Networks that will do -/

/-- `rtw_get_wps_ie` over the elements behind the fixed ones. -/
def WlanBssidEx.wpsIe (b : WlanBssidEx) : Option (Nat × Nat) :=
  P2p.rtwGetWpsIe b.ies fixedIeLength (sub32 b.ieLength fixedIeLength)

/-- `p && ie_len>0` for the RSN element. -/
def WlanBssidEx.hasRsn (b : WlanBssidEx) : Bool :=
  match b.getIe rsnIe2 with
  | none => false
  | some (_, ieLen) => 0 < ieLen

/-- `rtw_is_desired_network`. -/
def isDesiredNetwork (cfg : MlmeCfg) (b : WlanBssidEx) : Bool :=
  let encrypted := cfg.ndisencryptstatus != ndis802_11EncryptionDisabled
  if cfg.underWps then b.wpsIe.isSome
  else
    let bselected := true
    let bselected := if cfg.wifiSpec && !encrypted && b.privacy != 0 then false else bselected
    let bselected :=
      if cfg.wifiSpec && cfg.ndisauthtype == ndis802_11AuthModeWPA2PSK then b.hasRsn else bselected
    let bselected := if encrypted && b.privacy == 0 then false else bselected
    if cfg.adhoc && b.infrastructureMode != cfg.curNetwork.infrastructureMode then false
    else bselected

/-- `is_same_ess`. -/
def isSameEss (a b : WlanBssidEx) : Bool :=
  a.ssidLength = b.ssidLength && a.ssid.read 0 a.ssidLength = b.ssid.read 0 a.ssidLength

namespace RoamMlme

variable (env : ScanEnv) (m : RoamMlme)

/-- The network of an entry. -/
def network (s : BssSlot) : WlanBssidEx := (m.table.net s).network

/-- The entry is older than `roam_scanr_exp_ms`. -/
def expired (s : BssSlot) : Bool :=
  rtwGetPassingTimeMs env.hz env.jiffies (m.table.net s).lastScanned.toUInt32 ≥ m.cfg.roamScanrExpMs

/-! ## Roaming -/

/-- `rtw_check_roaming_candidate`: the new candidate. `cur` is `cur_network_scanned`. -/
def checkRoamingCandidate (cur : BssSlot) (candidate : Option BssSlot) (competitor : BssSlot) :
    Option BssSlot :=
  if !isSameEss (m.network competitor) m.cfg.curNetwork then candidate
  else if !isDesiredNetwork m.cfg (m.network competitor) then candidate
  else if m.cfg.roamTgtAddr ≠ .zero then
    if m.cfg.roamTgtAddr = (m.network competitor).macAddress then some competitor else candidate
  else if m.expired env competitor then candidate
  else if (m.network competitor).rssi - (m.network cur).rssi < m.cfg.roamRssiDiffTh.toNat then candidate
  else
    match candidate with
    | none => some competitor
    | some c => if (m.network c).rssi ≥ (m.network competitor).rssi then some c else some competitor

/-- `rtw_select_roaming_candidate`; true for `_SUCCESS`. -/
def selectRoamingCandidate : RoamMlme × Bool :=
  match m.cfg.curNetworkScanned with
  | none => (m, false)
  | some cur =>
    match m.table.scannedQueue.foldl (m.checkRoamingCandidate env cur) none with
    | none => (m, false)
    | some c =>
      let tgt := if (m.network c).macAddress = m.cfg.roamTgtAddr then .zero else m.cfg.roamTgtAddr
      ({ m with roamNetwork := some c, cfg := { m.cfg with roamTgtAddr := tgt } }, true)

/-! ## Joining -/

/-- The BSSID, SSID, security, age and ESS filters of `rtw_check_join_candidate`. -/
def joinFilter (s : BssSlot) : Bool :=
  let b := m.network s
  (!m.cfg.assocByBssid || b.macAddress = m.cfg.assocBssid)
  && (!(m.cfg.assocSsid 0 != 0 && m.cfg.assocSsidLength != 0)
      || (b.ssidLength = m.cfg.assocSsidLength
        && b.ssid.read 0 m.cfg.assocSsidLength = m.cfg.assocSsid.read 0 m.cfg.assocSsidLength))
  && isDesiredNetwork m.cfg b
  && (!(m.cfg.toRoam > 0) || (!m.expired env s && isSameEss b m.cfg.curNetwork))

/-- `rtw_check_join_candidate`: the new candidate. -/
def checkJoinCandidate (candidate : Option BssSlot) (competitor : BssSlot) : Option BssSlot :=
  if m.joinFilter env competitor then
    match candidate with
    | none => some competitor
    | some c => if (m.network c).rssi < (m.network competitor).rssi then some competitor else some c
  else candidate

/-- `rtw_find_network`. -/
def findNetwork (t : ScanTable) (addr : MacAddr) : Option BssSlot :=
  if addr = .zero then none
  else t.scannedQueue.find? fun s => (t.net s).network.macAddress = addr

/-- `_rtw_free_network_nolock`: the entry is taken out of the list it is in. -/
def freeNetworkNolock (t : ScanTable) (s : BssSlot) : ScanTable :=
  if (t.net s).fixed then t
  else
    { t with
      scannedQueue := t.scannedQueue.filter (· != s)
      freeBssPool := t.freeBssPool.filter (· != s) ++ [s]
      numOfScanned := t.numOfScanned - 1 }

/-- What `rtw_free_assoc_resources` does to the scan table. -/
def freeAssocResources (t : ScanTable) : ScanTable :=
  match findNetwork t m.cfg.curNetwork.macAddress with
  | none => t
  | some s =>
    let t := freeNetworkNolock (t.setNet s { t.net s with fixed := false }) s
    if m.cfg.aloneMaster then freeNetworkNolock t s else t

end RoamMlme

/-- Where the selected registrar of the WPS element is. -/
def WlanBssidEx.selectedRegistrar (b : WlanBssidEx) : Option Nat :=
  b.wpsIe.bind fun ie =>
    match P2p.rtwGetWpsAttr b.ies ie.1 ie.2 wpsAttrSelectedRegistrar with
    | .found attr _ => some attr
    | _ => none

/-- `*(attr + 4) = 0`. -/
def WlanBssidEx.clearAt (b : WlanBssidEx) : Option Nat → WlanBssidEx
  | none => b
  | some attr => { b with ies := b.ies.write (attr + 4) [0] }

/-- The selected registrar of the WPS element is cleared. -/
def WlanBssidEx.clearSelectedRegistrar (b : WlanBssidEx) : WlanBssidEx := b.clearAt b.selectedRegistrar

namespace RoamMlme

variable (env : ScanEnv) (m : RoamMlme)

/-- What `rtw_indicate_disconnect` does here: `rtw_reset_securitypriv_cmd` is only queued. -/
def indicateDisconnect : RoamMlme :=
  let table :=
    match m.cfg.curNetworkScanned with
    | none => m.table
    | some s => m.table.setNet s
      { m.table.net s with network := (m.network s).clearSelectedRegistrar }
  { m with table := table, cfg := { m.cfg with underWps := false, linked := false } }

/-- The link that is still there is given up. -/
def leave : RoamMlme :=
  if m.cfg.linked then
    let m := m.indicateDisconnect
    { m with table := m.freeAssocResources m.table }
  else m

/-- `rtw_select_and_join_from_scanned_queue`: the state in which `rtw_joinbss_cmd` is called, and the
candidate it is called with. -/
def selectAndJoin : RoamMlme × Option BssSlot :=
  match m.roamNetwork with
  | some s => (leave { m with roamNetwork := none }, some s)
  | none =>
    match m.table.scannedQueue.foldl (m.checkJoinCandidate env) none with
    | none => (m, none)
    | some s => (m.leave, some s)

end RoamMlme

/-! ## Any order -/

/-- The four operations, and a change of the settings by any other. -/
inductive RoamEvent where
  | select (env : ScanEnv)
  | scan (p2p : Bool) (e : ScanEvent)
  | join (env : ScanEnv)
  | configure (cfg : MlmeCfg)

def roamStep (m : RoamMlme) : RoamEvent → Outcome RoamMlme
  | .select env => .done (m.selectRoamingCandidate env).1
  | .scan p2p e => scanStep p2p m.table e >>= fun t => .done { m with table := t }
  | .join env => .done (m.selectAndJoin env).1
  | .configure cfg => .done { m with cfg := cfg }

/-- `_rtw_init_mlme_priv`. -/
def RoamMlme.start (cfg : MlmeCfg) : RoamMlme where
  table := .initMlmePriv
  roamNetwork := none
  cfg := cfg

end Rtl8812au

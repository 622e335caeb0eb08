import Rtl8812au.Lib.Reach

/-!
# Group-owner negotiation

Two devices agree on which of them is the group owner by a request, a response and a confirm
(`core/rtw_p2p.c`, `on_action_public_p2p` and the `issue_p2p_GO_*` functions of
`core/rtw_mlme_ext.c`). Each of the three handlers computes the role anew, from the own intent and
the attribute of the peer: its intent in the upper bits and a tie breaker in bit 0.

The devices see each other's frames in any order, any number of times or never. A frame stands here
for the attributes that the handlers read and that the `issue` functions always put in; the peer's
channel list is the list of its channels.
-/

namespace Rtl8812au.P2p

/-- `enum P2P_ROLE`. -/
inductive P2pRole where
  | disable
  | device
  | client
  | go
  deriving Repr, DecidableEq

/-- `enum P2P_STATE`. -/
inductive P2pState where
  | none
  | idle
  | listen
  | scan
  | findPhaseListen
  | findPhaseSearch
  | txProvisionDisReq
  | rxProvisionDisRsp
  | rxProvisionDisReq
  | gonegoIng
  | gonegoOk
  | gonegoFail
  | recvInviteReqMatch
  | provisioningIng
  | provisioningDone
  | txInviteReq
  | rxInviteRespOk
  | recvInviteReqDismatch
  | recvInviteReqGo
  | recvInviteReqJoin
  | rxInviteRespFail
  | rxInforNoready
  | txInforNoready
  deriving Repr, DecidableEq

/-- `P2P_STATUS_*`. -/
inductive P2pStatus where
  | success
  | failInfoUnavailable
  | failIncompatibleParam
  | failLimitReached
  | failInvalidParam
  | failRequestUnable
  | failPrevousProtoErr
  | failNoCommonCh
  | failUnknownP2pgroup
  | failBothGointent15
  | failIncompatibleProvsion
  | failUserReject
  deriving Repr, DecidableEq

/-- `P2P_MAX_INTENT`. -/
def maxIntent : Nat := 15

/-- The fields of `struct wifidirect_info` that the negotiation reads, and the channels of
`mlmeextpriv`. -/
structure WdInfo where
  intent : Nat
  /-- The intent and the tie breaker of the peer. -/
  peerIntent : Nat
  role : P2pRole
  state : P2pState
  preState : P2pState
  /-- `ui_got_wps_info != P2P_NO_WPSINFO`. -/
  gotWpsInfo : Bool
  /-- `nego_req_info.benable`. -/
  negoReqEnable : Bool
  operatingChannel : Nat
  peerOperatingCh : Nat
  /-- `channel_set`, and the channels of the classes of `channel_list`. -/
  channelSet : List Nat
  channelList : List Nat
  deriving Repr, DecidableEq

/-- The frames: the GO intent attribute, the operating channel, the channel list and the status. -/
inductive GoFrame where
  | req (intent opCh : Nat) (chList : List Nat)
  | resp (status : P2pStatus) (intent opCh : Nat) (chList : List Nat)
  | conf (status : P2pStatus) (opCh : Nat)
  deriving Repr, DecidableEq

/-! ## Channels -/

/-- `rtw_p2p_ch_inclusion`: the search for a channel goes on from where the last one was found. -/
def rtwP2pChInclusion : List Nat → List Nat → List Nat
  | _, [] => []
  | set, ch :: peer =>
    match set.dropWhile (· != ch) with
    | [] => rtwP2pChInclusion set peer
    | c :: rest => ch :: rtwP2pChInclusion (c :: rest) peer

/-- The group owner's channel, if its own is not among the common ones. -/
def WdInfo.chooseChannel (w : WdInfo) (opCh : Nat) (common : List Nat) : WdInfo :=
  if w.role = .go ∧ w.operatingChannel ∉ common then
    { w with operatingChannel := if opCh ∈ common then opCh else common.headD 0 }
  else w

/-! ## The handlers -/

/-- The role that follows from the two intents and, where they are the same, from the tie breaker. -/
def roleFrom (intent peerIntent : Nat) : P2pRole :=
  if intent = peerIntent >>> 1 then (if peerIntent &&& 1 = 1 then .client else .go)
  else if peerIntent >>> 1 < intent then .go
  else .client

/-- `process_p2p_group_negotation_req`. -/
def processP2pGroupNegotationReq (w : WdInfo) (intent opCh : Nat) (chList : List Nat) :
    P2pStatus × WdInfo :=
  if w.gotWpsInfo = false then (.failInfoUnavailable, { w with state := .txInforNoready })
  else
    let w := { w with state := .gonegoIng, peerIntent := intent }
    let r : P2pStatus × WdInfo :=
      if w.intent = intent >>> 1 ∧ w.intent = maxIntent then
        (.failBothGointent15, { w with role := .device })
      else (.success, { w with role := roleFrom w.intent intent })
    let common := rtwP2pChInclusion w.channelSet chList
    if common = [] then (.failNoCommonCh, { r.2 with state := .gonegoFail })
    else (r.1, r.2.chooseChannel opCh common)

/-- `process_p2p_group_negotation_resp`. -/
def processP2pGroupNegotationResp (w : WdInfo) (status : P2pStatus) (intent opCh : Nat)
    (chList : List Nat) : P2pStatus × WdInfo :=
  if status ≠ .success then
    (status,
      { w with
        state := if status = .failInfoUnavailable then .rxInforNoready else .gonegoFail
        role := .device })
  else
    let w := { w with peerIntent := intent }
    let r : P2pStatus × WdInfo :=
      if w.intent = intent >>> 1 ∧ w.intent = maxIntent then
        (.failBothGointent15, { w with role := .device, state := .gonegoFail })
      else
        (.success,
          { w with role := roleFrom w.intent intent, state := .gonegoOk, preState := .gonegoOk })
    let w := { r.2 with peerOperatingCh := opCh }
    let common := rtwP2pChInclusion w.channelSet chList
    if common = [] then (.failNoCommonCh, { w with state := .gonegoFail })
    else (r.1, w.chooseChannel opCh common)

/-- `process_p2p_group_negotation_confirm`, which looks at no state and at no maximal intent. -/
def processP2pGroupNegotationConfirm (w : WdInfo) (status : P2pStatus) (opCh : Nat) :
    P2pStatus × WdInfo :=
  if status = .success then
    (status,
      { w with
        state := .gonegoOk
        preState := .gonegoOk
        role := roleFrom w.intent w.peerIntent
        peerOperatingCh := opCh })
  else (status, { w with role := .device, state := .gonegoFail })

/-! ## The frames that go out -/

/-- `issue_p2p_GO_request`, whose tie breaker is always 0. -/
def issueP2pGoRequest (w : WdInfo) : GoFrame :=
  .req ((w.intent <<< 1) &&& 0xfe) w.operatingChannel w.channelList

/-- `issue_p2p_GO_response`, whose tie breaker is the other one than the peer's. -/
def issueP2pGoResponse (w : WdInfo) (result : P2pStatus) : GoFrame :=
  .resp result
    (if w.peerIntent &&& 1 = 1 then (w.intent <<< 1) % 256 else ((w.intent <<< 1) ||| 1) % 256)
    w.operatingChannel w.channelList

/-- `issue_p2p_GO_confirm`. -/
def issueP2pGoConfirm (w : WdInfo) (result : P2pStatus) : GoFrame :=
  .conf result (if w.role = .client then w.peerOperatingCh else w.operatingChannel)

/-! ## A device -/

/-- What `on_action_public_p2p` does before it handles a request. -/
def WdInfo.restoreState (w : WdInfo) : WdInfo :=
  let w := if w.state = .rxProvisionDisReq then { w with state := w.preState } else w
  let w := if w.state = .gonegoFail then { w with state := w.preState } else w
  if w.state ≠ .gonegoIng then { w with preState := w.state } else w

/-- `on_action_public_p2p`: the device and the frames it sends. -/
def onActionPublicP2p (w : WdInfo) (f : GoFrame) : WdInfo × List GoFrame :=
  if w.state = .none ∨ w.state = .idle then (w, [])
  else
    match f with
    | .req intent opCh chList =>
      let r := processP2pGroupNegotationReq w.restoreState intent opCh chList
      (r.2, [issueP2pGoResponse r.2 r.1])
    | .resp status intent opCh chList =>
      if w.state = .gonegoIng then
        let r := processP2pGroupNegotationResp { w with negoReqEnable := false } status intent opCh
          chList
        (r.2, [issueP2pGoConfirm r.2 r.1])
      else (w, [])
    | .conf status opCh => ((processP2pGroupNegotationConfirm w status opCh).2, [])

/-- `rtw_p2p_connect`: the user starts the negotiation. -/
def rtwP2pConnect (w : WdInfo) : WdInfo :=
  if w.state = .none ∨ w.gotWpsInfo = false then w
  else
    { w with
      negoReqEnable := true
      preState := if w.state = .gonegoOk then .gonegoOk else .listen
      state := .gonegoIng }

/-- A request is due: `OnProbeRsp` sends it once the peer is heard. -/
def WdInfo.requestDue (w : WdInfo) : Bool := w.state = .gonegoIng && w.negoReqEnable

/-! ## Two devices -/

/-- The two devices, and every frame that either of them has sent. -/
structure World where
  dev : Bool → WdInfo
  sent : List (Bool × GoFrame)

/-- What can happen to a device: the user starts the negotiation, the peer is heard, or some frame
arrives, out of all there ever were. -/
inductive Event where
  | connect
  | probeRsp
  | deliver (n : Nat)
  deriving Repr, DecidableEq

/-- An event at a device: the device behind it and what it sends. -/
def World.handle (w : World) (i : Bool) : Event → WdInfo × List GoFrame
  | .connect => (rtwP2pConnect (w.dev i), [])
  | .probeRsp =>
    if (w.dev i).requestDue then
      ({ w.dev i with negoReqEnable := false }, [issueP2pGoRequest (w.dev i)])
    else (w.dev i, [])
  | .deliver n =>
    match w.sent[n]? with
    | some (src, f) => if src = !i then onActionPublicP2p (w.dev i) f else (w.dev i, [])
    | none => (w.dev i, [])

def World.step (w : World) (a : Bool × Event) : Outcome World :=
  let r := w.handle a.1 a.2
  .done
    { dev := fun j => if j = a.1 then r.1 else w.dev j
      sent := w.sent ++ r.2.map fun f => (a.1, f) }

end Rtl8812au.P2p

import Rtl8812au.Recv.BlockAck

/-!
# Both ends of a block-ack agreement

`rtw_issue_addbareq_cmd` of `core/rtw_mlme.c`, `process_addba_req` of `core/rtw_wlan_util.c`, and of
`core/rtw_mlme_ext.c` `add_ba_hdl`, `issue_action_ba`, `OnAction_back`, `_send_delba_sta_tid`,
`rx_ampdu_apply_sta_tid`, `rtw_rx_ampdu_size`, `rtw_rx_ampdu_is_accept` and `addba_timer_hdl`.

Two stations run this code against each other. A station aggregates towards the other by
`agg_enable_bitmap`, and lets what is aggregated come in by `recvreorder_ctrl[tid]`.
-/

namespace Rtl8812au

/-! ## Frame bodies -/

/-- `RTW_GET_LE16`. -/
def getLe16 (body : List UInt8) (i : Nat) : UInt16 :=
  (body.getD i 0).toUInt16 ||| (body.getD (i + 1) 0).toUInt16 <<< 8

/-- The two bytes `rtw_set_fixed_ie` copies after `cpu_to_le16`. -/
def fixedLe16 (x : UInt16) : List UInt8 := [x.toUInt8, (x >>> 8).toUInt8]

/-- `RTW_WLAN_CATEGORY_BACK` and its actions. -/
abbrev categoryBack : UInt8 := 3
abbrev actionAddbaReq : UInt8 := 0
abbrev actionAddbaResp : UInt8 := 1
abbrev actionDelba : UInt8 := 2

/-- `struct ADDBA_request`. -/
structure AddbaRequest where
  dialogToken : UInt8 := 0
  baParaSet : UInt16 := 0
  baTimeoutValue : UInt16 := 0
  baStartingSeqctrl : UInt16 := 0

def baCategory (body : List UInt8) : UInt8 := body.getD 0 0
def baAction (body : List UInt8) : UInt8 := body.getD 1 0

/-- `status` and `tid` of a response. -/
def rspStatus (body : List UInt8) : UInt16 := getLe16 body 3
def rspTid (body : List UInt8) : Nat := ((body.getD 5 0 >>> 2) &&& 7).toNat

/-- The byte of a DELBA that is looked at. -/
def delbaParam (body : List UInt8) : UInt8 := body.getD 3 0

/-- What `ADDBA_req` becomes. -/
def addbaRequest (body : List UInt8) : AddbaRequest :=
  ⟨body.getD 2 0, getLe16 body 3, getLe16 body 5, getLe16 body 7⟩

/-- `BIT(n)`, as it works on a `u8`. -/
def bit8 (n : Nat) : BitVec 8 := 1#8 <<< n

/-- A TID that data has. -/
def lowTid (t : Fin 8) : Tid := t.castLE (by decide)

/-! ## What a station keeps -/

/-- `RX_AMPDU_SIZE_INVALID`. -/
abbrev rxAmpduSizeInvalid : UInt8 := 0xff

/-- `RX_AMPDU_ACCEPT_INVALID`. -/
abbrev rxAmpduAcceptInvalid : UInt8 := 0xff

/-- What an agreement is kept in by who receives. -/
structure BaCtrl where
  enable : Bool := false
  ampduSize : UInt8 := rxAmpduSizeInvalid
  indicateSeq : UInt16 := 0xffff
  sized : enable = true → ampduSize ≠ rxAmpduSizeInvalid := by decide

/-- `enable = _FALSE`, with an `ampdu_size`. -/
def BaCtrl.off (c : BaCtrl) (ampduSize : UInt8) : BaCtrl :=
  { c with enable := false, ampduSize := ampduSize, sized := nofun }

@[simp] theorem BaCtrl.off_ampduSize (c : BaCtrl) (ampduSize : UInt8) : (c.off ampduSize).ampduSize = ampduSize :=
  rfl

/-- What does not change while the two are associated. -/
structure BaConf where
  apState : Bool := false
  assocSuccess : Bool := true
  htEnable : Bool := true
  htOption : Bool := true
  ampduEnable : Bool := true
  wifiSpec : UInt8 := 0
  ampduAmsdu : UInt8 := 0
  bAcceptAddbaReq : UInt8 := 1
  driverRxAmpduFactor : UInt8 := 0xff
  /-- `HW_VAR_MAX_RX_AMPDU_FACTOR`. -/
  maxRxAmpduFactor : UInt8 := 3

/-- A station, and what it has in the `sta_info` of the other. -/
structure BaSide where
  dialogToken : UInt8 := 0
  addbaReq : AddbaRequest := {}
  fixRxAmpduAccept : UInt8 := rxAmpduAcceptInvalid
  fixRxAmpduSize : UInt8 := rxAmpduSizeInvalid
  aggEnableBitmap : BitVec 8 := 0
  candidateTidBitmap : BitVec 8 := 0
  /-- `WIFI_STA_ALIVE_CHK_STATE`. -/
  aliveChk : Bool := false
  txseqTid : Fin 8 → UInt16 := fun _ => 0
  baStartingSeqctrl : Fin 8 → UInt16 := fun _ => 0
  recvreorderCtrl : Tid → BaCtrl := fun _ => {}
  /-- Every `_send_delba_sta_tid` that waits for an acknowledgement: `ampdu_size_bak`, and whether it will get one. -/
  waiting : Tid → List (UInt8 × Bool) := fun _ => []
  /-- The commands of `rtw_addbareq_cmd` that wait for `add_ba_hdl`. -/
  cmds : List (Fin 8) := []

/-! ## `issue_action_ba` -/

/-- `do { dialogToken++; } while (dialogToken == 0)`. -/
def nextDialogToken (t : UInt8) : UInt8 := if t + 1 = 0 then 1 else t + 1

/-- `BA_para_set` of a response. -/
def rspParaSet (conf : BaConf) (param : UInt16) (tid : Tid) (size : UInt8) : UInt16 :=
  let p := (param &&& ~~~(0x003C : UInt16)) ||| ((UInt16.ofNat tid <<< 2) &&& 0x003C)
  let p := (p &&& ~~~(0xFFC0 : UInt16)) ||| ((size.toUInt16 <<< 6) &&& 0xFFC0)
  if conf.wifiSpec = 0 then
    if conf.ampduAmsdu = 0 then p &&& ~~~(1 : UInt16)
    else if conf.ampduAmsdu = 1 then p ||| 1
    else p
  else p

/-- `BA_para_set` of a DELBA. -/
def delbaParaSet (tid : Tid) (initiator : Bool) : UInt16 :=
  let initiator : UInt16 := if initiator then 1 else 0
  ((UInt16.ofNat tid <<< 12) &&& (0xF000 : UInt16)) ||| ((initiator <<< 11) &&& (0x0800 : UInt16))

/-- `issue_del_ba`. -/
def issueDelBa (tid : Tid) (reason : UInt16) (initiator : Bool) : List UInt8 :=
  [categoryBack, actionDelba] ++ fixedLe16 (delbaParaSet tid initiator) ++ fixedLe16 reason

namespace BaSide

variable (conf : BaConf) (s : BaSide)

/-- `issue_addba_req`. -/
def issueAddbaReq (tid : Fin 8) : BaSide × List UInt8 :=
  let token := nextDialogToken s.dialogToken
  let startSeq := (s.txseqTid tid &&& 0xfff) + 1
  ({ s with dialogToken := token, baStartingSeqctrl := Function.update s.baStartingSeqctrl tid startSeq },
    [categoryBack, actionAddbaReq, token] ++ fixedLe16 ((0x1002 : UInt16) ||| (UInt16.ofNat tid <<< 2))
      ++ fixedLe16 5000 ++ fixedLe16 (startSeq <<< 4))

/-- `issue_addba_rsp`. -/
def issueAddbaRsp (tid : Tid) (status : UInt16) (size : UInt8) : List UInt8 :=
  [categoryBack, actionAddbaResp, s.addbaReq.dialogToken] ++ fixedLe16 status
    ++ fixedLe16 (rspParaSet conf s.addbaReq.baParaSet tid size) ++ fixedLe16 s.addbaReq.baTimeoutValue

/-! ## Who asks -/

/-- `rtw_issue_addbareq_cmd` for a frame to the other station, which is linked. -/
def rtwIssueAddbareqCmd (priority : Fin 8) (numTxOkInPeriod : Nat) : BaSide :=
  if numTxOkInPeriod < 100 then s
  else if conf.htOption && conf.ampduEnable then
    let issued := s.aggEnableBitmap.getLsbD priority || s.candidateTidBitmap.getLsbD priority
    if issued then s
    else { s with candidateTidBitmap := s.candidateTidBitmap ||| bit8 priority, cmds := s.cmds ++ [priority] }
  else s

/-- `add_ba_hdl`. -/
def addBaHdl : BaSide × List (List UInt8) :=
  match s.cmds with
  | [] => (s, [])
  | tid :: cmds =>
    let s := { s with cmds := cmds }
    if (conf.assocSuccess && conf.htEnable) || conf.apState then
      let r := s.issueAddbaReq tid
      (r.1, [r.2])
    else ({ s with candidateTidBitmap := s.candidateTidBitmap &&& ~~~ bit8 tid }, [])

/-- `addba_timer_hdl`. -/
def addbaTimerHdl : BaSide :=
  if conf.htOption && conf.ampduEnable then { s with candidateTidBitmap := 0 } else s

/-! ## Who answers -/

def setCtrl (tid : Tid) (c : BaCtrl) : BaSide :=
  { s with recvreorderCtrl := Function.update s.recvreorderCtrl tid c }

/-- `rtw_rx_ampdu_size`. -/
def rtwRxAmpduSize : UInt8 :=
  let size : UInt8 :=
    if s.fixRxAmpduSize ≠ rxAmpduSizeInvalid then s.fixRxAmpduSize
    else
      let factor := if conf.driverRxAmpduFactor ≠ 0xff then conf.driverRxAmpduFactor else conf.maxRxAmpduFactor
      if factor = 3 then 64 else if factor = 2 then 32 else if factor = 1 then 16 else if factor = 0 then 8 else 64
  if 127 < size then 127 else size

/-- `rtw_rx_ampdu_is_accept`. -/
def rtwRxAmpduIsAccept : Bool :=
  if s.fixRxAmpduAccept ≠ rxAmpduAcceptInvalid then s.fixRxAmpduAccept ≠ 0 else conf.bAcceptAddbaReq ≠ 0

theorem rtwRxAmpduSize_ne : s.rtwRxAmpduSize conf ≠ rxAmpduSizeInvalid := by
  have hclamp : ∀ n : UInt8, (if 127 < n then 127 else n) ≠ rxAmpduSizeInvalid := by
    intro n
    split
    · decide
    · rename_i hle
      exact fun h => hle (h ▸ by decide)
  exact hclamp _

/-- `process_addba_req`. The driver is built without `CONFIG_UPDATE_INDICATE_SEQ_WHILE_PROCESS_ADDBA_REQ`,
so that `start_seq` is not used. -/
def processAddbaReq : BaSide × List (List UInt8) :=
  let tid := addbaTid s.addbaReq.baParaSet
  let size := s.rtwRxAmpduSize conf
  if s.rtwRxAmpduIsAccept conf then
    (s.setCtrl tid { enable := true, ampduSize := size, sized := fun _ => s.rtwRxAmpduSize_ne conf },
      [s.issueAddbaRsp conf tid 0 size])
  else
    (s.setCtrl tid (BaCtrl.off {} (s.recvreorderCtrl tid).ampduSize),
      [s.issueAddbaRsp conf tid 37 size])

/-- `case RTW_WLAN_ACTION_ADDBA_RESP`. -/
def onAddbaResp (tid : Nat) (status : UInt16) : BaSide :=
  let s :=
    if status = 0 then
      { s with
        aggEnableBitmap := s.aggEnableBitmap ||| bit8 tid
        candidateTidBitmap := s.candidateTidBitmap &&& ~~~ bit8 tid }
    else { s with aggEnableBitmap := s.aggEnableBitmap &&& ~~~ bit8 tid }
  if s.aliveChk then { s with aggEnableBitmap := s.aggEnableBitmap &&& ~~~ bit8 tid, aliveChk := false } else s

/-- `case RTW_WLAN_ACTION_DELBA`. -/
def onDelba (param : UInt8) : BaSide :=
  let tid := delbaTid param
  if param &&& 8 = 0 then
    { s with
      aggEnableBitmap := s.aggEnableBitmap &&& ~~~ bit8 tid
      candidateTidBitmap := s.candidateTidBitmap &&& ~~~ bit8 tid }
  else
    s.setCtrl tid ((s.recvreorderCtrl tid).off rxAmpduSizeInvalid)

/-- `OnAction_back` for a body from the other station. -/
def onActionBack (body : List UInt8) : BaSide × List (List UInt8) :=
  if !conf.apState && !conf.assocSuccess then (s, [])
  else if baCategory body ≠ categoryBack then (s, [])
  else if !conf.htEnable then (s, [])
  else if baAction body = actionAddbaReq then { s with addbaReq := addbaRequest body }.processAddbaReq conf
  else if baAction body = actionAddbaResp then (s.onAddbaResp (rspTid body) (rspStatus body), [])
  else if baAction body = actionDelba then (s.onDelba (delbaParam body), [])
  else (s, [])

end BaSide

/-! ## Tearing down -/

/-- One transmission, and whether its acknowledgement comes back. -/
structure TxTry where
  received : Bool
  acked : Bool
  heard : acked = true → received = true := by decide

/-- The loop of `issue_del_ba_ex`. It is left early when the driver is stopped. Here all the tries are over
in one step: the source sleeps between two of them, and something else may be sent or come in meanwhile. -/
def issueDelBaEx (body : List UInt8) : Nat → List TxTry → List (List UInt8) × Bool
  | 0, _ => ([], false)
  | _, [] => ([], false)
  | tryCnt + 1, t :: ts =>
    let sent := if t.received then [body] else []
    if t.acked then (sent, true)
    else
      let r := issueDelBaEx body tryCnt ts
      (sent ++ r.1, r.2)

/-- How a recipient's DELBA goes out. -/
inductive DelbaTx where
  /-- `rtw_del_rx_ampdu_test_trigger_no_tx_fail`. -/
  | noTxFail
  | noWait
  | waitAck (tries : List TxTry)

namespace BaSide

variable (s : BaSide)

/-- `_send_delba_sta_tid` for `initiator == 0`. With `waitAck` the step ends where the last try is over and
`endDelba` does the rest, so that anything may happen between the two, but nothing between two tries. -/
def sendDelbaRecipient (tid : Tid) (force : Bool) (tx : DelbaTx) : BaSide × List (List UInt8) :=
  let c := s.recvreorderCtrl tid
  if force || c.enable then
    let cleared := s.setCtrl tid (c.off rxAmpduSizeInvalid)
    match tx with
    | .noTxFail => (s.setCtrl tid (c.off c.ampduSize), [])
    | .noWait => (cleared, [issueDelBa tid 37 false])
    | .waitAck tries =>
      -- `wait_ack`: what to put back if no try is acknowledged is kept until `endDelba`
      let r := issueDelBaEx (issueDelBa tid 37 false) 3 tries
      ({ cleared with waiting := Function.update s.waiting tid ((c.ampduSize, r.2) :: s.waiting tid) }, r.1)
  else (s, [])

/-- The rest of it: "if (ret == _FAIL && sta->recvreorder_ctrl[tid].enable == _FALSE)". -/
def endDelba (tid : Tid) (i : Nat) : BaSide :=
  match (s.waiting tid)[i]? with
  | none => s
  | some (ampduSizeBak, acked) =>
    let t := { s with waiting := Function.update s.waiting tid ((s.waiting tid).eraseIdx i) }
    let c := s.recvreorderCtrl tid
    if acked = false ∧ c.enable = false then t.setCtrl tid (c.off ampduSizeBak) else t

/-- `_send_delba_sta_tid` for `initiator == 1`. -/
def sendDelbaOriginator (tid : Tid) (force : Bool) : BaSide × List (List UInt8) :=
  if force || s.aggEnableBitmap.getLsbD tid then
    ({ s with
        aggEnableBitmap := s.aggEnableBitmap &&& ~~~ bit8 tid
        candidateTidBitmap := s.candidateTidBitmap &&& ~~~ bit8 tid }, [issueDelBa tid 37 true])
  else (s, [])

/-- `rx_ampdu_apply_sta_tid`. -/
def rxAmpduApplyStaTid (tid : Tid) (accept : Bool) (size : UInt8) (tries : Option (List TxTry)) :
    Nat × BaSide × List (List UInt8) :=
  let c := s.recvreorderCtrl tid
  let tx := tries.elim .noTxFail .waitAck
  if !c.enable then
    if c.ampduSize ≠ rxAmpduSizeInvalid then (3, s.sendDelbaRecipient tid true tx) else (0, s, [])
  else if !accept then (1, s.sendDelbaRecipient tid false tx)
  else if c.ampduSize ≠ size then (2, s.sendDelbaRecipient tid false tx)
  else (0, s, [])

end BaSide

/-! ## The two of them -/

/-- Two associated stations, and what is on its way to each, the oldest first. -/
structure BaLink where
  side : Bool → BaSide := fun _ => {}
  air : Bool → List (List UInt8) := fun _ => []

/-- What happens at one of them. -/
inductive BaLinkEvent where
  | xmit (priority : Fin 8) (numTxOkInPeriod : Nat)
  | addBaCmd
  | timer
  | data (tid : Fin 8)
  /-- `expire_timeout_chk` sets the state, a frame that comes in clears it. -/
  | aliveChk (on : Bool)
  | deliver
  /-- A frame on its way here is lost. -/
  | lose (i : Nat)
  /-- `rtw_rx_ampdu_set_accept` and `rtw_rx_ampdu_set_size`. -/
  | setRxAmpdu (accept size : UInt8)
  | apply (tid : Tid) (accept : Bool) (size : UInt8) (tries : Option (List TxTry))
  | delbaDone (tid : Tid) (i : Nat)
  /-- `send_delba_sta_tid`, which does not wait. -/
  | sendDelba (initiator : Bool) (tid : Tid) (force : Bool) (noTxFail : Bool)

namespace BaLink

variable (l : BaLink)

/-- Station `x` has become what `r` says, and sends what `r` says. -/
def put (x : Bool) (r : BaSide × List (List UInt8)) : BaLink where
  side := Function.update l.side x r.1
  air := Function.update l.air (!x) (l.air (!x) ++ r.2)

end BaLink

/-- One event at station `e.1`. -/
def baLinkStep (conf : Bool → BaConf) (l : BaLink) (e : Bool × BaLinkEvent) : Outcome BaLink :=
  let x := e.1
  let s := l.side x
  match e.2 with
  | .xmit priority numTxOk => .done (l.put x (s.rtwIssueAddbareqCmd (conf x) priority numTxOk, []))
  | .addBaCmd => .done (l.put x (s.addBaHdl (conf x)))
  | .timer => .done (l.put x (s.addbaTimerHdl (conf x), []))
  | .data tid =>
    .done (l.put x ({ s with txseqTid := Function.update s.txseqTid tid ((s.txseqTid tid + 1) &&& 0xfff) }, []))
  | .aliveChk on => .done (l.put x ({ s with aliveChk := on }, []))
  | .deliver =>
    match l.air x with
    | [] => .done l
    | body :: rest => .done ({ l with air := Function.update l.air x rest }.put x (s.onActionBack (conf x) body))
  | .lose i => .done { l with air := Function.update l.air x ((l.air x).eraseIdx i) }
  | .setRxAmpdu accept size => .done (l.put x ({ s with fixRxAmpduAccept := accept, fixRxAmpduSize := size }, []))
  | .apply tid accept size tries => .done (l.put x (s.rxAmpduApplyStaTid tid accept size tries).2)
  | .delbaDone tid i => .done (l.put x (s.endDelba tid i, []))
  | .sendDelba initiator tid force noTxFail =>
    .done (l.put x (if initiator then s.sendDelbaOriginator tid force
      else s.sendDelbaRecipient tid force (if noTxFail then .noTxFail else .noWait)))

/-! ## What is on its way -/

/-- A request for a TID. -/
def isAddbaReq (t : Fin 8) (body : List UInt8) : Bool :=
  baCategory body = categoryBack && baAction body = actionAddbaReq && addbaTid (getLe16 body 3) = lowTid t

/-- A response for a TID that accepts, or that refuses. -/
def isAddbaResp (t : Fin 8) (accepts : Bool) (body : List UInt8) : Bool :=
  baCategory body = categoryBack && baAction body = actionAddbaResp && decide (rspStatus body = 0) = accepts
    && rspTid body = t

/-- A DELBA for a TID, from its originator or its recipient. -/
def isDelba (t : Fin 8) (initiator : Bool) (body : List UInt8) : Bool :=
  baCategory body = categoryBack && baAction body = actionDelba
    && decide (delbaParam body &&& 8 ≠ 0) = initiator && delbaTid (delbaParam body) = lowTid t

/-- What is asked of a run. A recipient's DELBA is not lost: one that waits for its acknowledgement notices. An
originator has no request open when it tears down. -/
def BaOk (l : BaLink) : Bool × BaLinkEvent → Prop
  | (x, .lose i) => ∀ body, (l.air x)[i]? = some body → ∀ t, isDelba t false body = false
  | (x, .sendDelba true tid _ _) => ∀ t, lowTid t = tid →
      (∀ body ∈ l.air (!x), isAddbaReq t body = false) ∧ (∀ body ∈ l.air x, isAddbaResp t true body = false)
  | _ => True

end Rtl8812au

import Rtl8812au.P2p.AttrProof
import Rtl8812au.P2p.NegoFrame

/-!
# Do the attributes fit?

No length is checked before a copy. The handlers are safe exactly on frames whose attributes are no
longer than the buffers, as far as the handlers get: they stop behind an element with a status that is
no success or without a common channel, and they never return from a search that runs into an
attribute of length 65533, which takes up nothing. Two more copies go wrong in the same way, that of the
device password id and that of the channels of the peer; behind them the frame says nothing any more.
-/

namespace Rtl8812au.P2p

open Copies

/-! ## One element -/

/-- The device that a turn hands on to the next element, if there is to be one. -/
def goesOn (t : Copies NegoTurn) : Option NegoDev :=
  t.val.bind fun r => if r.1 then some r.2.2 else none

theorem goesOn_look {m : Mem} {ie : Nat × Nat} {a : P2pAttr} {cap : Nat} (h : AtMost m ie a cap)
    (f : Option (List UInt8) → Copies NegoTurn) :
    goesOn (rtwGetP2pAttrContent m ie a cap >>= f) = (lookup m ie a).bind fun o => goesOn (f o) := by
  unfold goesOn
  rw [val_look h]
  cases lookup m ie a with
  | none => rfl
  | some o => rfl

section

variable (m : Mem) (ie : Nat × Nat)

/-- The group owner has common channels with the peer, but its own is not among them. -/
def seeksChannel (w : WdInfo) (buf : Mem) (bs : List UInt8) : Bool :=
  match rtwP2pGetPeerChList buf bs.length with
  | none => false
  | some peer =>
    let common := rtwP2pChInclusion w.channelSet peer
    common ≠ [] ∧ w.role = .go ∧ w.operatingChannel ∉ common

/-- The device behind the channels, unless there is no common one. -/
def channelNext (buf : Mem) (bs : List UInt8) (d : NegoDev) : Option NegoDev :=
  (rtwP2pGetPeerChList buf bs.length).bind fun peer =>
    let common := rtwP2pChInclusion d.wd.channelSet peer
    if common = [] then none
    else if d.wd.role = .go ∧ d.wd.operatingChannel ∉ common then
      (lookup m ie .operatingCh).bind fun info =>
        some { d with wd := d.wd.chooseChannel ((info.getD []).getD 4 0).toNat common }
    else some d

/-- The device in a request once the intent is known. -/
def reqDev (d : NegoDev) (intent : Option (List UInt8)) : NegoDev :=
  { d with wd := (intentOfReq 0 { d.wd with state := .gonegoIng } intent).2 }

/-- The channels are decoded within the 100 bytes of the list and those of `peer_ch_list`. -/
def ChListDecodes (buf : Mem) (bs : List UInt8) : Prop := rtwP2pGetPeerChList buf bs.length ≠ none

/-- An element of a request. -/
def ReqFits (d : NegoDev) : Prop :=
  InOrder m ie [(.capability, 2), (.goIntent, 1), (.intentedIfAddr, 6), (.chList, 100)]
    (∀ bs, attr m ie .chList = some bs → ChListDecodes (bufWith (fun _ => 0) bs) bs ∧
      (seeksChannel (reqDev d (attr m ie .goIntent)).wd (bufWith (fun _ => 0) bs) bs = true →
        AtMost m ie .operatingCh 5))

def reqNext (d : NegoDev) : Option NegoDev :=
  (lookup m ie .capability).bind fun _ =>
  (lookup m ie .goIntent).bind fun intent =>
  (lookup m ie .intentedIfAddr).bind fun _ =>
  (lookup m ie .chList).bind fun chs =>
    match chs with
    | none => some (reqDev d intent)
    | some bs => channelNext m ie (bufWith (fun _ => 0) bs) bs (reqDev d intent)

/-- The group id has an address and an SSID. -/
def GroupIdFits : Prop :=
  ∀ bs, lookup m ie .groupId = some (some bs) → 6 ≤ bs.length ∧ bs.length ≤ 38

/-- The operating channel of the peer. -/
def withOpCh (w : WdInfo) : Option (List UInt8) → WdInfo
  | none => w
  | some bs => { w with peerOperatingCh := (bs.getD 4 0).toNat }

/-- The device in a response once the intent and the channel are known. -/
def respDev (d : NegoDev) (intent info : Option (List UInt8)) : NegoDev :=
  { d with wd := withOpCh (intentOfResp 0 d.wd intent).2 info }

/-- The device behind the channels of a response. -/
def respChannels (d : NegoDev) : Option (List UInt8) → Option NegoDev
  | none => some d
  | some bs =>
    channelNext m ie (bufWith d.chListAttr bs) bs { d with chListAttr := bufWith d.chListAttr bs }

/-- An element of a response. -/
def RespFits (d : NegoDev) : Prop :=
  InOrder m ie [(.capability, 2), (.status, 1)]
    (failedStatus (attr m ie .status) = none →
      InOrder m ie [(.intentedIfAddr, 6), (.goIntent, 1), (.operatingCh, 5), (.chList, 100)]
        ((∀ bs, attr m ie .chList = some bs → ChListDecodes (bufWith d.chListAttr bs) bs) ∧
          (respChannels m ie (respDev d (attr m ie .goIntent) (attr m ie .operatingCh))
              (attr m ie .chList) ≠ none →
            GroupIdFits m ie)))

def respNext (d : NegoDev) : Option NegoDev :=
  (lookup m ie .capability).bind fun _ =>
  (lookup m ie .status).bind fun status =>
    match failedStatus status with
    | some _ => none
    | none =>
      (lookup m ie .intentedIfAddr).bind fun _ =>
      (lookup m ie .goIntent).bind fun intent =>
      (lookup m ie .operatingCh).bind fun info =>
      (lookup m ie .chList).bind fun chs =>
      (respChannels m ie (respDev d intent info) chs).bind fun d' =>
      (lookup m ie .groupId).bind fun _ => some d'

/-- An element of a confirm. -/
def ConfFits : Prop :=
  InOrder m ie [(.status, 1)]
    (failedStatus (attr m ie .status) = none →
      GroupIdFits m ie ∧ (lookup m ie .groupId ≠ none → AtMost m ie .operatingCh 5))

/-- The device in a confirm. -/
def confDev (d : NegoDev) (status info : Option (List UInt8)) : NegoDev :=
  let w :=
    if (status.getD []).length = 1 then
      { d.wd with
        state := .gonegoOk, preState := .gonegoOk, role := roleFrom d.wd.intent d.wd.peerIntent }
    else d.wd
  { d with wd := withOpCh w info }

def confNext (d : NegoDev) : Option NegoDev :=
  (lookup m ie .status).bind fun status =>
    match failedStatus status with
    | some _ => none
    | none =>
      (lookup m ie .groupId).bind fun _ =>
      (lookup m ie .operatingCh).bind fun info => some (confDev d status info)

end

section

variable {m : Mem} {ie : Nat × Nat}

theorem sound_channelTurn (buf : Mem) (bs : List UInt8) (result : UInt8) (d : NegoDev) :
    Sound (channelTurn m ie buf bs result d)
      ↔ ChListDecodes buf bs ∧ (seeksChannel d.wd buf bs = true → AtMost m ie .operatingCh 5) := by
  unfold channelTurn seeksChannel ChListDecodes
  rw [sound_bind, sound_guarded]
  cases rtwP2pGetPeerChList buf bs.length with
  | none => simp
  | some peer =>
      dsimp only
      rw [val_guarded]
      by_cases hc : rtwP2pChInclusion d.wd.channelSet peer = []
      · simp [hc]
      · by_cases hs : d.wd.role = .go ∧ d.wd.operatingChannel ∉ rtwP2pChInclusion d.wd.channelSet peer
        · simp [hc, hs, sound_look]
        · simp [hc, hs]

theorem goesOn_channelTurn {buf : Mem} {bs : List UInt8} {d : NegoDev}
    (h : seeksChannel d.wd buf bs = true → AtMost m ie .operatingCh 5) (result : UInt8) :
    goesOn (channelTurn m ie buf bs result d) = channelNext m ie buf bs d := by
  unfold channelTurn channelNext goesOn
  unfold seeksChannel at h
  rw [val_bind, val_guarded]
  cases hp : rtwP2pGetPeerChList buf bs.length with
  | none => rfl
  | some peer =>
      rw [hp] at h
      simp only [Option.bind_some]
      by_cases hc : rtwP2pChInclusion d.wd.channelSet peer = []
      · simp [hc]
      · by_cases hs : d.wd.role = .go ∧ d.wd.operatingChannel ∉ rtwP2pChInclusion d.wd.channelSet peer
        · have hle := h (by simp [hc, hs])
          rw [if_neg hc, if_neg hc, if_pos hs, if_pos hs, val_look hle]
          cases lookup m ie .operatingCh with
          | none => rfl
          | some info => rfl
        · rw [if_neg hc, if_neg hc, if_neg hs, if_neg hs]
          rfl

/-- The device does not depend on the status so far. -/
theorem intentOfReq_snd (result : UInt8) (w : WdInfo) (o : Option (List UInt8)) :
    (intentOfReq result w o).2 = (intentOfReq 0 w o).2 := by
  cases o with
  | none => rfl
  | some bs =>
      unfold intentOfReq
      dsimp only
      split
      · rfl
      · rfl

theorem intentOfResp_snd (result : UInt8) (w : WdInfo) (o : Option (List UInt8)) :
    (intentOfResp result w o).2 = (intentOfResp 0 w o).2 := by
  cases o with
  | none => rfl
  | some bs =>
      unfold intentOfResp
      dsimp only
      split
      · rfl
      · rfl

/-! ### Requests -/

/-- Behind the attributes of a request. -/
def reqTail (m : Mem) (ie : Nat × Nat) (result : UInt8) (d : NegoDev) (intent : Option (List UInt8)) :
    Option (List UInt8) → Copies NegoTurn
  | none =>
    pure (true, (intentOfReq result { d.wd with state := .gonegoIng } intent).1, reqDev d intent)
  | some bs =>
    channelTurn m ie (bufWith (fun _ => 0) bs) bs
      (intentOfReq result { d.wd with state := .gonegoIng } intent).1 (reqDev d intent)

theorem reqTurn_eq (result : UInt8) (d : NegoDev) :
    reqTurn m ie result d
      = (rtwGetP2pAttrContent m ie .capability 2 >>= fun _ =>
        rtwGetP2pAttrContent m ie .goIntent 1 >>= fun intent =>
        rtwGetP2pAttrContent m ie .intentedIfAddr 6 >>= fun _ =>
        rtwGetP2pAttrContent m ie .chList 100 >>= fun chs => reqTail m ie result d intent chs) := by
  unfold reqTurn
  dsimp only
  refine congrArg _ (funext fun _ => congrArg _ (funext fun intent => congrArg _ (funext fun _ =>
    congrArg _ (funext fun chs => ?_))))
  cases chs with
  | none =>
      unfold reqTail reqDev
      dsimp only
      rw [intentOfReq_snd]
  | some bs =>
      unfold reqTail reqDev
      dsimp only
      rw [intentOfReq_snd]

theorem sound_reqTail (result : UInt8) (d : NegoDev) (intent chs : Option (List UInt8)) :
    Sound (reqTail m ie result d intent chs)
      ↔ ∀ bs, chs = some bs → ChListDecodes (bufWith (fun _ => 0) bs) bs ∧
        (seeksChannel (reqDev d intent).wd (bufWith (fun _ => 0) bs) bs = true →
          AtMost m ie .operatingCh 5) := by
  cases chs with
  | none => simp [reqTail]
  | some bs => simp [reqTail, sound_channelTurn]

theorem sound_reqTurn (result : UInt8) (d : NegoDev) :
    Sound (reqTurn m ie result d) ↔ ReqFits m ie d := by
  unfold ReqFits
  simp only [reqTurn_eq, sound_look, lookup_ne_none, sound_reqTail, InOrder]

theorem goesOn_reqTurn {d : NegoDev} (h : ReqFits m ie d) (result : UInt8) :
    goesOn (reqTurn m ie result d) = reqNext m ie d := by
  unfold ReqFits at h
  simp only [InOrder] at h
  unfold reqNext
  rw [reqTurn_eq, goesOn_look h.1]
  refine Option.bind_congr fun c hc => ?_
  have h := h.2 (by rw [hc]; exact Option.some_ne_none c)
  rw [goesOn_look h.1]
  refine Option.bind_congr fun intent hintent => ?_
  have h := h.2 (by rw [hintent]; exact Option.some_ne_none intent)
  rw [goesOn_look h.1]
  refine Option.bind_congr fun i hi => ?_
  have h := h.2 (by rw [hi]; exact Option.some_ne_none i)
  rw [goesOn_look h.1]
  refine Option.bind_congr fun chs hchs => ?_
  have h := h.2 (by rw [hchs]; exact Option.some_ne_none chs)
  have hattr : attr m ie .goIntent = intent ∧ attr m ie .chList = chs := by
    unfold attr
    rw [hintent, hchs]
    exact ⟨rfl, rfl⟩
  rw [hattr.1, hattr.2] at h
  cases chs with
  | none => rfl
  | some bs => exact goesOn_channelTurn (h bs rfl).2 _

/-! ### The group id -/

/-- The copy of the SSID is what is left of 38 bytes behind the address. -/
theorem contentLen_ssid {n : Nat} (h : n ≤ 38) : contentLen 6 n ≤ 32 ↔ 6 ≤ n := by
  unfold contentLen
  omega

theorem sound_copyGroupId : Sound (copyGroupId m ie) ↔ GroupIdFits m ie := by
  unfold copyGroupId GroupIdFits
  rw [sound_look]
  unfold AtMost
  constructor
  · intro h bs hbs
    have hle := h.1 bs hbs
    have hcopy := h.2 (some bs) hbs
    rw [sound_copy, contentLen_ssid hle] at hcopy
    exact ⟨hcopy, hle⟩
  · intro h
    refine ⟨fun bs hbs => (h bs hbs).2, ?_⟩
    intro o ho
    cases o with
    | none => exact sound_pure _
    | some bs =>
        obtain ⟨h6, h38⟩ := h bs ho
        rw [sound_copy, contentLen_ssid h38]
        exact h6

theorem val_copyGroupId (h : GroupIdFits m ie) :
    (copyGroupId m ie).val = (lookup m ie .groupId).bind fun _ => some () := by
  have hle : AtMost m ie .groupId 38 := fun bs hbs => (h bs hbs).2
  unfold copyGroupId
  rw [val_look hle]
  refine Option.bind_congr fun o ho => ?_
  cases o with
  | none => rfl
  | some bs =>
      obtain ⟨h6, h38⟩ := h bs ho
      exact val_copy ((contentLen_ssid h38).mpr h6)

/-- The group id and what comes behind it. -/
theorem sound_groupId {β : Type} (f : Unit → Copies β) :
    Sound (copyGroupId m ie >>= f)
      ↔ GroupIdFits m ie ∧ (lookup m ie .groupId ≠ none → Sound (f ())) := by
  rw [sound_bind, sound_copyGroupId]
  refine and_congr_right fun h => ?_
  rw [val_copyGroupId h]
  cases lookup m ie .groupId with
  | none => simp
  | some o => exact ⟨fun hs _ => hs () rfl, fun hs _ _ => hs (Option.some_ne_none o)⟩

theorem goesOn_groupId (h : GroupIdFits m ie) (f : Unit → Copies NegoTurn) :
    goesOn (copyGroupId m ie >>= f) = (lookup m ie .groupId).bind fun _ => goesOn (f ()) := by
  unfold goesOn
  rw [val_bind, val_copyGroupId h]
  cases lookup m ie .groupId with
  | none => rfl
  | some o => rfl

/-! ### Responses -/

/-- The channels of a response. -/
def respChannelTurn (m : Mem) (ie : Nat × Nat) (result : UInt8) (d : NegoDev) :
    Option (List UInt8) → Copies NegoTurn
  | none => pure (true, result, d)
  | some bs =>
    channelTurn m ie (bufWith d.chListAttr bs) bs result
      { d with chListAttr := bufWith d.chListAttr bs }

/-- Behind the attributes of a response that has not failed. -/
def respTail (m : Mem) (ie : Nat × Nat) (result : UInt8) (d : NegoDev)
    (intent info chs : Option (List UInt8)) : Copies NegoTurn :=
  respChannelTurn m ie (intentOfResp result d.wd intent).1 (respDev d intent info) chs >>= fun turn =>
    if turn.1 then copyGroupId m ie >>= fun _ => pure turn else pure turn

/-- Behind its status. -/
def respRest (m : Mem) (ie : Nat × Nat) (result : UInt8) (d : NegoDev) : Copies NegoTurn :=
  rtwGetP2pAttrContent m ie .intentedIfAddr 6 >>= fun _ =>
  rtwGetP2pAttrContent m ie .goIntent 1 >>= fun intent =>
  rtwGetP2pAttrContent m ie .operatingCh 5 >>= fun info =>
  rtwGetP2pAttrContent m ie .chList 100 >>= fun chs => respTail m ie result d intent info chs

theorem respTurn_eq (result : UInt8) (d : NegoDev) :
    ∃ failed : UInt8 → NegoTurn, (∀ s, (failed s).1 = false) ∧
      respTurn m ie result d
        = (rtwGetP2pAttrContent m ie .capability 2 >>= fun _ =>
          rtwGetP2pAttrContent m ie .status 1 >>= fun status =>
            match failedStatus status with
            | some s => pure (failed s)
            | none => respRest m ie result d) := by
  refine ⟨fun s => (false, s, { d with wd := { d.wd with
    state := if s = P2pStatus.failInfoUnavailable.code then .rxInforNoready else .gonegoFail
    role := .device } }), fun _ => rfl, ?_⟩
  unfold respTurn
  refine congrArg _ (funext fun _ => congrArg _ (funext fun status => ?_))
  cases failedStatus status with
  | some s => rfl
  | none =>
      unfold respRest
      dsimp only
      refine congrArg _ (funext fun _ => congrArg _ (funext fun intent => congrArg _ (funext fun info =>
        congrArg _ (funext fun chs => ?_))))
      unfold respTail respDev
      cases info with
      | none =>
          cases chs with
          | none =>
              dsimp only [withOpCh, respChannelTurn]
              rw [intentOfResp_snd]
          | some bs =>
              dsimp only [withOpCh, respChannelTurn]
              rw [intentOfResp_snd]
      | some cs =>
          cases chs with
          | none =>
              dsimp only [withOpCh, respChannelTurn]
              rw [intentOfResp_snd]
          | some bs =>
              dsimp only [withOpCh, respChannelTurn]
              rw [intentOfResp_snd]

section

variable {result : UInt8} {d : NegoDev} {intent info chs : Option (List UInt8)}

/-- The operating channel has been looked up before, so it fits here too. -/
theorem respChannelTurn_spec (hop : AtMost m ie .operatingCh 5) :
    (Sound (respChannelTurn m ie result d chs)
        ↔ ∀ bs, chs = some bs → ChListDecodes (bufWith d.chListAttr bs) bs)
      ∧ goesOn (respChannelTurn m ie result d chs) = respChannels m ie d chs := by
  cases chs with
  | none => exact ⟨⟨fun _ _ h => absurd h (Option.some_ne_none _).symm, fun _ => sound_pure _⟩, rfl⟩
  | some bs =>
      refine ⟨?_, goesOn_channelTurn (fun _ => hop) _⟩
      unfold respChannelTurn
      rw [sound_channelTurn]
      constructor
      · intro h _ hbs
        cases hbs
        exact h.1
      · intro h
        exact ⟨h bs rfl, fun _ => hop⟩

theorem sound_respTail (hop : AtMost m ie .operatingCh 5) :
    Sound (respTail m ie result d intent info chs)
      ↔ (∀ bs, chs = some bs → ChListDecodes (bufWith d.chListAttr bs) bs)
        ∧ (respChannels m ie (respDev d intent info) chs ≠ none → GroupIdFits m ie) := by
  obtain ⟨hsound, hnext⟩ := @respChannelTurn_spec m ie (intentOfResp result d.wd intent).1
    (respDev d intent info) chs hop
  unfold respTail
  rw [sound_bind, hsound, ← hnext]
  refine and_congr_right fun _ => ?_
  unfold goesOn
  cases (respChannelTurn m ie (intentOfResp result d.wd intent).1 (respDev d intent info) chs).val with
  | none => simp
  | some turn =>
      obtain ⟨on, rest⟩ := turn
      cases on with
      | false => simp
      | true => simp [sound_groupId]

theorem goesOn_respTail (hop : AtMost m ie .operatingCh 5)
    (h : respChannels m ie (respDev d intent info) chs ≠ none → GroupIdFits m ie) :
    goesOn (respTail m ie result d intent info chs)
      = (respChannels m ie (respDev d intent info) chs).bind fun d' =>
        (lookup m ie .groupId).bind fun _ => some d' := by
  obtain ⟨-, hnext⟩ := @respChannelTurn_spec m ie (intentOfResp result d.wd intent).1
    (respDev d intent info) chs hop
  rw [← hnext] at h ⊢
  unfold respTail goesOn at *
  rw [val_bind]
  cases hv : (respChannelTurn m ie (intentOfResp result d.wd intent).1 (respDev d intent info)
      chs).val with
  | none => rfl
  | some turn =>
      obtain ⟨on, st, d'⟩ := turn
      rw [hv] at h
      cases on with
      | false => rfl
      | true =>
          have hgroup := h (Option.some_ne_none d')
          exact goesOn_groupId hgroup fun _ => pure (true, st, d')

end

theorem sound_respTurn (result : UInt8) (d : NegoDev) :
    Sound (respTurn m ie result d) ↔ RespFits m ie d := by
  obtain ⟨failed, -, heq⟩ := @respTurn_eq m ie result d
  have hrest : Sound (respRest m ie result d)
      ↔ InOrder m ie [(.intentedIfAddr, 6), (.goIntent, 1), (.operatingCh, 5), (.chList, 100)]
        ((∀ bs, attr m ie .chList = some bs → ChListDecodes (bufWith d.chListAttr bs) bs)
          ∧ (respChannels m ie (respDev d (attr m ie .goIntent) (attr m ie .operatingCh))
            (attr m ie .chList) ≠ none → GroupIdFits m ie)) := by
    unfold respRest
    simp only [sound_look, lookup_ne_none, InOrder]
    refine and_congr_right fun _ => imp_congr_right fun _ => and_congr_right fun _ =>
      imp_congr_right fun _ => and_congr_right fun hop => imp_congr_right fun _ =>
      and_congr_right fun _ => imp_congr_right fun _ => ?_
    exact sound_respTail hop
  unfold RespFits
  rw [← hrest, heq]
  simp only [sound_look, lookup_ne_none, InOrder]
  refine and_congr_right fun _ => imp_congr_right fun _ => and_congr_right fun _ =>
    imp_congr_right fun _ => ?_
  cases failedStatus (attr m ie .status) with
  | some s => simp
  | none => simp

theorem goesOn_respTurn {d : NegoDev} (h : RespFits m ie d) (result : UInt8) :
    goesOn (respTurn m ie result d) = respNext m ie d := by
  obtain ⟨failed, hfailed, heq⟩ := @respTurn_eq m ie result d
  unfold RespFits at h
  simp only [InOrder] at h
  unfold respNext
  rw [heq, goesOn_look h.1]
  refine Option.bind_congr fun c hc => ?_
  -- each attribute is asked for only where those before it were found, on both sides
  have h := h.2 (by rw [hc]; exact Option.some_ne_none c)
  rw [goesOn_look h.1]
  refine Option.bind_congr fun status hst => ?_
  have h := h.2 (by rw [hst]; exact Option.some_ne_none status)
  have hattr : attr m ie .status = status := by
    unfold attr
    rw [hst]
    rfl
  rw [hattr] at h
  cases hf : failedStatus status with
  | some s =>
      dsimp only
      -- a status that says no ends it here
      unfold goesOn
      rw [val_pure, Option.bind_some, hfailed]
      rfl
  | none =>
      have h := h hf
      dsimp only
      unfold respRest
      rw [goesOn_look h.1]
      refine Option.bind_congr fun i hi => ?_
      have h := h.2 (by rw [hi]; exact Option.some_ne_none i)
      rw [goesOn_look h.1]
      refine Option.bind_congr fun intent hintent => ?_
      have h := h.2 (by rw [hintent]; exact Option.some_ne_none intent)
      have hop := h.1
      rw [goesOn_look h.1]
      refine Option.bind_congr fun info hinfo => ?_
      have h := h.2 (by rw [hinfo]; exact Option.some_ne_none info)
      rw [goesOn_look h.1]
      refine Option.bind_congr fun chs hchs => ?_
      have h := h.2 (by rw [hchs]; exact Option.some_ne_none chs)
      -- what is left uses the three attributes, which are known now
      have hattrs : attr m ie .goIntent = intent ∧ attr m ie .operatingCh = info
          ∧ attr m ie .chList = chs := by
        unfold attr
        rw [hintent, hinfo, hchs]
        exact ⟨rfl, rfl, rfl⟩
      rw [hattrs.1, hattrs.2.1, hattrs.2.2] at h
      exact goesOn_respTail hop h.2

/-! ### Confirms -/

theorem confTurn_eq (result : UInt8) (d : NegoDev) :
    ∃ (failed : UInt8 → NegoTurn) (st : Option (List UInt8) → UInt8), (∀ s, (failed s).1 = false) ∧
      confTurn m ie result d
        = (rtwGetP2pAttrContent m ie .status 1 >>= fun status =>
            match failedStatus status with
            | some s => pure (failed s)
            | none =>
              copyGroupId m ie >>= fun _ =>
              rtwGetP2pAttrContent m ie .operatingCh 5 >>= fun info =>
              pure (true, st status, confDev d status info)) := by
  refine ⟨fun s => (false, s, { d with wd := { d.wd with role := .device, state := .gonegoFail } }),
    fun status => if (status.getD []).length = 1 then P2pStatus.success.code else result,
    fun _ => rfl, ?_⟩
  unfold confTurn
  refine congrArg _ (funext fun status => ?_)
  cases failedStatus status with
  | some s => rfl
  | none =>
      dsimp only
      refine congrArg _ (funext fun _ => congrArg _ (funext fun info => ?_))
      unfold confDev
      by_cases hlen : (status.getD []).length = 1
      · rw [if_pos hlen, if_pos hlen]
        dsimp only
        rw [if_pos hlen]
        cases info with
        | none => rfl
        | some bs => rfl
      · rw [if_neg hlen, if_neg hlen]
        dsimp only
        rw [if_neg hlen]
        cases info with
        | none => rfl
        | some bs => rfl

theorem sound_confTurn (result : UInt8) (d : NegoDev) :
    Sound (confTurn m ie result d) ↔ ConfFits m ie := by
  obtain ⟨failed, st, -, heq⟩ := @confTurn_eq m ie result d
  unfold ConfFits
  rw [heq]
  simp only [sound_look, lookup_ne_none, InOrder]
  refine and_congr_right fun _ => imp_congr_right fun _ => ?_
  cases failedStatus (attr m ie .status) with
  | some s => simp
  | none => simp [sound_groupId, sound_look]

theorem goesOn_confTurn {d : NegoDev} (h : ConfFits m ie) (result : UInt8) :
    goesOn (confTurn m ie result d) = confNext m ie d := by
  obtain ⟨failed, st, hfailed, heq⟩ := @confTurn_eq m ie result d
  unfold ConfFits at h
  simp only [InOrder] at h
  unfold confNext
  rw [heq, goesOn_look h.1]
  refine Option.bind_congr fun status hst => ?_
  have h := h.2 (by rw [hst]; exact Option.some_ne_none status)
  have hattr : attr m ie .status = status := by
    unfold attr
    rw [hst]
    rfl
  rw [hattr] at h
  cases hf : failedStatus status with
  | some s =>
      dsimp only
      unfold goesOn
      rw [val_pure, Option.bind_some, hfailed]
      rfl
  | none =>
      obtain ⟨hgroup, hop⟩ := h hf
      dsimp only
      rw [goesOn_groupId hgroup]
      refine Option.bind_congr fun g hg => ?_
      rw [goesOn_look (hop (by rw [hg]; exact Option.some_ne_none g))]
      rfl

end

/-! ## The frame -/

/-- Every element that a handler gets to keeps to `fits`, where `next` is the device behind an
element. -/
def ElementsFit (f : NegoFrame) (fits : Nat × Nat → NegoDev → Prop)
    (next : Nat × Nat → NegoDev → Option NegoDev) : Nat → Option (Nat × Nat) → NegoDev → Prop
  | 0, _, _ => True
  | _ + 1, none, _ => True
  | fuel + 1, some ie, d =>
    fits ie d ∧
      ∀ d', next ie d = some d' → ElementsFit f fits next fuel (nextP2pIe f.ies f.iesLen ie) d'

/-- **The loop over the elements** is safe if each turn is, as far as it gets. -/
theorem sound_ieLoop {f : NegoFrame} {turn : Nat × Nat → UInt8 → NegoDev → Copies NegoTurn}
    {fits : Nat × Nat → NegoDev → Prop} {next : Nat × Nat → NegoDev → Option NegoDev}
    (hs : ∀ ie result d, Sound (turn ie result d) ↔ fits ie d)
    (hn : ∀ ie result d, fits ie d → goesOn (turn ie result d) = next ie d) :
    ∀ (fuel : Nat) (ie : Option (Nat × Nat)) (result : UInt8) (d : NegoDev),
      Sound (ieLoop f turn fuel ie result d) ↔ ElementsFit f fits next fuel ie d := by
  intro fuel
  induction fuel with
  | zero =>
      intro ie result d
      exact ⟨fun _ => trivial, fun _ => sound_pure _⟩
  | succ fuel ih =>
      intro ie result d
      cases ie with
      | none => exact ⟨fun _ => trivial, fun _ => sound_pure _⟩
      | some ie =>
          rw [ieLoop, ElementsFit, sound_bind, hs]
          refine and_congr_right fun hfit => ?_
          rw [← hn ie result d hfit]
          unfold goesOn
          cases (turn ie result d).val with
          | none => simp
          | some r =>
              obtain ⟨on, st, d'⟩ := r
              cases on with
              | false => simp
              | true => simp [ih]

/-- The device password id of a request fits into its two bytes, and the search for it ends. -/
def PwidFits (f : NegoFrame) (wps : Nat × Nat) : Prop :=
  ∃ o, contentOf f.ies 4 (rtwGetWpsAttr f.ies wps.1 wps.2 0x1012) = some o
    ∧ ∀ bs, o = some bs → bs.length ≤ 2

/-- The search for the device password id ends. -/
def PwidEnds (f : NegoFrame) (wps : Nat × Nat) : Prop :=
  contentOf f.ies 4 (rtwGetWpsAttr f.ies wps.1 wps.2 0x1012) ≠ none

/-- A request with a WPS element: its device password id fits, if there is one, and so do the P2P elements if the
handler gets to them. -/
def ReqFrameFits (f : NegoFrame) (d : NegoDev) : Prop :=
  ∀ wps, rtwGetWpsIe f.ies 0 f.iesLen = some wps →
    (d.cmUnset = true → PwidEnds f wps → PwidFits f wps) ∧
      ((d.cmUnset = true → PwidEnds f wps) → d.wd.gotWpsInfo = true →
        ElementsFit f (ReqFits f.ies) (reqNext f.ies) f.iesLen (rtwGetP2pIe f.ies 0 f.iesLen)
          { d with cmUnset := false })

/-- A response, whose WPS element makes no difference here. -/
def RespFrameFits (f : NegoFrame) (d : NegoDev) : Prop :=
  ElementsFit f (RespFits f.ies) (respNext f.ies) f.iesLen (rtwGetP2pIe f.ies 0 f.iesLen)
    (if rtwGetWpsIe f.ies 0 f.iesLen = none then { d with wd := { d.wd with state := .gonegoFail } }
      else d)

/-- A confirm. -/
def ConfFrameFits (f : NegoFrame) (d : NegoDev) : Prop :=
  ElementsFit f (fun ie _ => ConfFits f.ies ie) (confNext f.ies) f.iesLen
    (rtwGetP2pIe f.ies 0 f.iesLen) d

theorem pwid_val {f : NegoFrame} {wps : Nat × Nat} :
    (attrContent f.ies 4 2 (rtwGetWpsAttr f.ies wps.1 wps.2 0x1012)).val ≠ none ↔ PwidFits f wps := by
  unfold PwidFits
  rw [attrContent_eq]
  cases contentOf f.ies 4 (rtwGetWpsAttr f.ies wps.1 wps.2 0x1012) with
  | none => simp [copyOf]
  | some o =>
      cases o with
      | none => simp [copyOf]
      | some bs =>
          unfold copyOf
          dsimp only
          rw [val_bind]
          by_cases hle : bs.length ≤ 2
          · rw [val_copy hle]
            simp [hle]
          · have hnone : (copy 2 bs.length).val = none := if_neg hle
            rw [hnone]
            simp [hle]

/-- The copy of the device password id and what comes behind it. -/
theorem sound_pwid {f : NegoFrame} {wps : Nat × Nat} {β : Type} (g : Copies β) :
    Sound (attrContent f.ies 4 2 (rtwGetWpsAttr f.ies wps.1 wps.2 0x1012) >>= fun _ => g)
      ↔ (PwidEnds f wps → PwidFits f wps) ∧ (PwidEnds f wps → Sound g) := by
  have hval := @pwid_val f wps
  rw [sound_bind]
  unfold PwidEnds PwidFits at *
  rw [attrContent_eq] at hval ⊢
  cases contentOf f.ies 4 (rtwGetWpsAttr f.ies wps.1 wps.2 0x1012) with
  | none => simp [copyOf]
  | some o =>
      cases o with
      | none => simp [copyOf]
      | some bs =>
          have hfit : Sound (copyOf 2 (some (some bs))) ↔ bs.length ≤ 2 := by
            unfold copyOf
            dsimp only
            rw [sound_bind, sound_copy]
            simp
          rw [hfit]
          simp only [ne_eq, Option.some_ne_none, not_false_eq_true, true_imp_iff,
            Option.some.injEq, exists_eq_left', forall_eq']
          refine and_congr_right fun hle => ?_
          have hsome : (copyOf 2 (some (some bs))).val = some (some bs) := by
            unfold copyOf
            dsimp only
            rw [val_bind, val_copy hle]
            rfl
          rw [hsome]
          exact ⟨fun h => h _ rfl, fun h _ _ => h⟩

/-- A request behind its WPS element. -/
def reqRest (f : NegoFrame) (d : NegoDev) : Copies (UInt8 × NegoDev) :=
  if d.wd.gotWpsInfo = false then
    pure (P2pStatus.failInfoUnavailable.code, { d with wd := { d.wd with state := .txInforNoready } })
  else
    match rtwGetP2pIe f.ies 0 f.iesLen with
    | none =>
      pure (P2pStatus.failIncompatibleParam.code, { d with wd := { d.wd with state := .gonegoFail } })
    | some ie => ieLoop f (reqTurn f.ies) f.iesLen (some ie) P2pStatus.success.code d

theorem elementsFit_none {f : NegoFrame} {fits : Nat × Nat → NegoDev → Prop}
    {next : Nat × Nat → NegoDev → Option NegoDev} (fuel : Nat) (d : NegoDev) :
    ElementsFit f fits next fuel none d := by
  cases fuel with
  | zero => exact trivial
  | succ n => exact trivial

theorem sound_reqRest (f : NegoFrame) (d : NegoDev) :
    Sound (reqRest f d)
      ↔ (d.wd.gotWpsInfo = true →
        ElementsFit f (ReqFits f.ies) (reqNext f.ies) f.iesLen (rtwGetP2pIe f.ies 0 f.iesLen) d) := by
  unfold reqRest
  cases d.wd.gotWpsInfo with
  | false => simp
  | true =>
      rw [if_neg (by decide)]
      cases rtwGetP2pIe f.ies 0 f.iesLen with
      | none => exact ⟨fun _ _ => elementsFit_none _ _, fun _ => sound_pure _⟩
      | some ie =>
          have hloop := @sound_ieLoop f (reqTurn f.ies) (ReqFits f.ies) (reqNext f.ies)
            (fun _ result d => sound_reqTurn result d)
            (fun _ result _ h => goesOn_reqTurn h result) f.iesLen (some ie) P2pStatus.success.code d
          exact hloop.trans ⟨fun h _ => h, fun h => h rfl⟩

theorem sound_negotationReq (f : NegoFrame) (d : NegoDev) :
    Sound (negotationReq f d) ↔ ReqFrameFits f d := by
  unfold negotationReq ReqFrameFits
  cases rtwGetWpsIe f.ies 0 f.iesLen with
  | none => simp
  | some wps =>
      have hrest := sound_reqRest f { d with cmUnset := false }
      show Sound (if d.cmUnset = true then
          attrContent f.ies 4 2 (rtwGetWpsAttr f.ies wps.1 wps.2 0x1012) >>= fun _ =>
            reqRest f { d with cmUnset := false }
        else reqRest f { d with cmUnset := false }) ↔ _
      cases d.cmUnset with
      | false =>
          rw [if_neg Bool.false_ne_true, hrest]
          constructor
          · intro h _ _
            exact ⟨fun hf => absurd hf Bool.false_ne_true, fun _ hgot => h hgot⟩
          · intro h hgot
            exact (h wps rfl).2 (fun hf => absurd hf Bool.false_ne_true) hgot
      | true =>
          rw [if_pos rfl, sound_pwid, hrest]
          constructor
          · intro h wps' hwps
            cases hwps
            exact ⟨fun _ => h.1, fun hends hgot => h.2 (hends rfl) hgot⟩
          · intro h
            exact ⟨(h wps rfl).1 rfl, fun hends hgot => (h wps rfl).2 (fun _ => hends) hgot⟩

theorem sound_negotationResp (f : NegoFrame) (d : NegoDev) :
    Sound (negotationResp f d) ↔ RespFrameFits f d := by
  unfold negotationResp RespFrameFits
  cases rtwGetP2pIe f.ies 0 f.iesLen with
  | none => exact ⟨fun _ => elementsFit_none _ _, fun _ => sound_pure _⟩
  | some ie =>
      have hloop := @sound_ieLoop f (respTurn f.ies) (RespFits f.ies) (respNext f.ies)
        (fun _ result d => sound_respTurn result d)
        (fun _ result _ h => goesOn_respTurn h result) f.iesLen (some ie)
      cases rtwGetWpsIe f.ies 0 f.iesLen with
      | none => exact hloop _ _
      | some wps => exact hloop _ _

theorem sound_negotationConfirm (f : NegoFrame) (d : NegoDev) :
    Sound (negotationConfirm f d) ↔ ConfFrameFits f d :=
  sound_ieLoop (fun _ => sound_confTurn) (fun _ result _ h => goesOn_confTurn h result) f.iesLen
    (rtwGetP2pIe f.ies 0 f.iesLen) P2pStatus.success.code d

/-- **When the copies fit.** In every element that the handler gets to, no attribute that it looks up
is longer than the buffer it goes to, and a group id has at least the six bytes of its address; the device
password id and the channels on the way stay in their arrays too. -/
theorem negotiation_copies_fit_iff (f : NegoFrame) (d : NegoDev) :
    (Sound (negotationReq f d) ↔ ReqFrameFits f d)
      ∧ (Sound (negotationResp f d) ↔ RespFrameFits f d)
      ∧ (Sound (negotationConfirm f d) ↔ ConfFrameFits f d) :=
  ⟨sound_negotationReq f d, sound_negotationResp f d, sound_negotationConfirm f d⟩

/-! ## Frames that do not fit -/

/-- A WPS element, and a P2P element with one attribute without any bytes of it. -/
def frameWith (id lenLow lenHigh : UInt8) : NegoFrame where
  ies := fun k => ([0xdd, 0x04, 0x00, 0x50, 0xf2, 0x04, 0xdd, 0x07, 0x50, 0x6f, 0x9a, 0x09, id, lenLow,
    lenHigh] : List UInt8).getD k 0
  iesLen := 15

def listeningDev : NegoDev where
  wd :=
    { intent := 7, peerIntent := 0, role := .device, state := .listen, preState := .listen
      gotWpsInfo := true, negoReqEnable := false, operatingChannel := 6, peerOperatingCh := 0
      channelSet := [1, 6, 11], channelList := [1, 6, 11] }
  chListAttr := fun _ => 0
  cmUnset := true

/-- An intent of 200 bytes goes into one byte, a group id of 200 bytes into 38; and from an empty group
id 4294967290 bytes go into the SSID. -/
theorem negotiation_copies_overrun :
    (negotationReq (frameWith 0x04 200 0) listeningDev).copies = [⟨1, 200⟩]
      ∧ ¬ Sound (negotationReq (frameWith 0x04 200 0) listeningDev)
      ∧ (negotationResp (frameWith 0x0f 200 0) listeningDev).copies = [⟨38, 200⟩]
      ∧ ¬ Sound (negotationResp (frameWith 0x0f 200 0) listeningDev)
      ∧ (negotationConfirm (frameWith 0x0f 0 0) listeningDev).copies = [⟨38, 0⟩, ⟨32, 4294967290⟩]
      ∧ ¬ Sound (negotationConfirm (frameWith 0x0f 0 0) listeningDev) := by
  have hreq : (negotationReq (frameWith 0x04 200 0) listeningDev).copies = [⟨1, 200⟩] := by
    decide
  have hresp : (negotationResp (frameWith 0x0f 200 0) listeningDev).copies = [⟨38, 200⟩] := by
    decide
  have hconf : (negotationConfirm (frameWith 0x0f 0 0) listeningDev).copies
      = [⟨38, 0⟩, ⟨32, 4294967290⟩] := by decide
  refine ⟨hreq, ?_, hresp, ?_, hconf, ?_⟩
  · intro h
    exact absurd (h ⟨1, 200⟩ (by rw [hreq]; exact List.mem_cons_self)) (by decide)
  · intro h
    exact absurd (h ⟨38, 200⟩ (by rw [hresp]; exact List.mem_cons_self)) (by decide)
  · intro h
    exact absurd (h ⟨32, 4294967290⟩ (by rw [hconf]; exact List.mem_cons_of_mem _ List.mem_cons_self))
      (by decide)

end Rtl8812au.P2p

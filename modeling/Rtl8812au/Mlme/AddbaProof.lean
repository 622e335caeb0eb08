import Mathlib.Tactic.FinCases
import Rtl8812au.Lib.Pact
import Rtl8812au.Mlme.Addba

/-!
# Who aggregates is remembered

For each station and TID the link of `Addba` is an agreement of `Lib.Pact`: the station asks with its requests
and goes by `agg_enable_bitmap`; the other answers, and remembers by `ampdu_size`. That a recipient keeps
`ampdu_size` when it refuses, and when its DELBA is not acknowledged, is what makes a station that still aggregates
one that `rx_ampdu_apply_sta_tid` finds.
-/

namespace Rtl8812au

/-! ## Bits and bytes -/

@[simp] theorem getElem_bit8 (n : Nat) (t : Fin 8) : (bit8 n)[(t : Nat)] = decide (n = t) := by
  unfold bit8
  rw [BitVec.getElem_shiftLeft, BitVec.getElem_one]
  rcases Nat.lt_trichotomy n t with hlt | rfl | hgt
  · have hne : n ≠ t := hlt.ne
    have hsub : (t : Nat) - n ≠ 0 := Nat.sub_ne_zero_of_lt hlt
    simp [hne, hsub]
  · simp
  · have hne : n ≠ t := hgt.ne'
    simp [hne, hgt]

theorem getLsbD_clear (b : BitVec 8) (n : Nat) (t : Fin 8) :
    (b &&& ~~~ bit8 n).getLsbD t = (b.getLsbD t && !decide (n = t)) := by simp

/-- The three actions differ. -/
@[simp] theorem action_req_ne : ¬ actionAddbaReq = actionAddbaResp ∧ ¬ actionAddbaReq = actionDelba := by decide
@[simp] theorem action_resp_ne : ¬ actionAddbaResp = actionAddbaReq ∧ ¬ actionAddbaResp = actionDelba := by decide
@[simp] theorem action_delba_ne : ¬ actionDelba = actionAddbaReq ∧ ¬ actionDelba = actionAddbaResp := by decide

theorem lowTid_inj {t u : Fin 8} : lowTid t = lowTid u ↔ t = u :=
  ⟨fun h => Fin.ext (congrArg (fun v : Tid => v.val) h), fun h => h ▸ rfl⟩

theorem le16_round (x : UInt16) :
    x.toUInt8.toUInt16 ||| (x >>> 8).toUInt8.toUInt16 <<< 8 = x := by
  refine UInt16.toNat_inj.mp ?_
  have hx : x.toNat < 65536 := x.toNat_lt
  have hlow : x.toUInt8.toUInt16.toNat = x.toNat % 256 := by simp
  have hhigh : ((x >>> 8).toUInt8.toUInt16 <<< 8).toNat = 2 ^ 8 * (x.toNat / 256) := by
    simp [Nat.shiftRight_eq_div_pow, Nat.shiftLeft_eq]
    omega
  have hlt : x.toNat % 256 < 2 ^ 8 := Nat.mod_lt _ (by decide)
  rw [UInt16.toNat_or, hlow, hhigh, Nat.or_comm, ← Nat.two_pow_add_eq_or_of_lt hlt]
  omega

/-- The TID field of a response is the one that was asked for. -/
theorem testBit_rspParaSet (conf : BaConf) (param : UInt16) (tid : Tid) (size : UInt8) {k : Nat} (hk : k < 3) :
    (rspParaSet conf param tid size).toBitVec.getLsbD (2 + k) = (tid : Nat).testBit k := by
  have hfield (x y : BitVec 16) :
      ((((x &&& ~~~0x003C#16) ||| ((BitVec.ofNat 16 tid <<< 2) &&& 0x003C#16)) &&& ~~~0xFFC0#16)
        ||| ((y <<< 6) &&& 0xFFC0#16)).getLsbD (2 + k) = (tid : Nat).testBit k := by
    obtain rfl | rfl | rfl : k = 0 ∨ k = 1 ∨ k = 2 := by omega
    all_goals simp
    all_goals revert tid; decide
  have hflag (x : BitVec 16) : (x &&& ~~~1#16).getLsbD (2 + k) = x.getLsbD (2 + k)
      ∧ (x ||| 1#16).getLsbD (2 + k) = x.getLsbD (2 + k) := by
    obtain rfl | rfl | rfl : k = 0 ∨ k = 1 ∨ k = 2 := by omega
    all_goals simp
  unfold rspParaSet
  simp only
  split
  · split
    · exact (hflag _).1.trans (hfield _ _)
    · split
      · exact (hflag _).2.trans (hfield _ _)
      · exact hfield _ _
  · exact hfield _ _

theorem rspTid_rspParaSet (conf : BaConf) (param : UInt16) (tid : Tid) (size : UInt8) :
    (((rspParaSet conf param tid size).toUInt8 >>> 2) &&& 7).toNat = tid % 8 := by
  have hbits (x : UInt16) : ((x.toUInt8 >>> 2) &&& 7).toNat = x.toNat / 4 % 8 := by
    rw [UInt8.toNat_and, UInt8.toNat_shiftRight, UInt16.toNat_toUInt8]
    show (x.toNat % 256) >>> 2 &&& (2 ^ 3 - 1) = _
    rw [Nat.and_two_pow_sub_one_eq_mod, Nat.shiftRight_eq_div_pow]
    omega
  rw [hbits]
  refine Nat.eq_of_testBit_eq fun k => ?_
  rw [show 8 = 2 ^ 3 from rfl, Nat.testBit_mod_two_pow, Nat.testBit_mod_two_pow]
  by_cases hk : k < 3
  · have hbit := testBit_rspParaSet conf param tid size hk
    rw [show 4 = 2 ^ 2 from rfl, Nat.testBit_div_two_pow, Nat.add_comm k 2]
    rw [← hbit]
    rfl
  · simp [hk]

/-! ## Lanes -/

/-- What a body says to who answers. -/
def callOf (t : Fin 8) (body : List UInt8) : Option PactCall :=
  if isAddbaReq t body then some .ask else if isDelba t true body then some .ends else none

/-- What a body says to who asked. -/
def replyOf (t : Fin 8) (body : List UInt8) : Option PactReply :=
  if isAddbaResp t true body then some .yes
  else if isAddbaResp t false body then some .no
  else if isDelba t false body then some .ends
  else none

namespace BaSide

variable (s : BaSide)

/-- Whether the station aggregates. -/
def aggregates (t : Fin 8) : Bool := s.aggEnableBitmap.getLsbD t

/-- Whether the station remembers an agreement as a recipient, or is going to. -/
def remembers (t : Fin 8) : Bool :=
  (s.recvreorderCtrl (lowTid t)).ampduSize != rxAmpduSizeInvalid
    || (s.waiting (lowTid t)).any fun w => !w.2

end BaSide

/-- The agreement on what station `x` sends with TID `t`. -/
def BaLink.lane (l : BaLink) (x : Bool) (t : Fin 8) : Pact where
  asker := (l.side x).aggregates t
  answerer := (l.side (!x)).remembers t
  forth := (l.air (!x)).filterMap (callOf t)
  back := (l.air x).filterMap (replyOf t)

theorem lane_put_self (l : BaLink) (x : Bool) (r : BaSide × List (List UInt8)) (t : Fin 8) :
    (l.put x r).lane x t =
      { l.lane x t with
        asker := r.1.aggregates t, forth := (l.lane x t).forth ++ r.2.filterMap (callOf t) } := by
  cases x <;> simp [BaLink.lane, BaLink.put]

theorem lane_put_other (l : BaLink) (x : Bool) (r : BaSide × List (List UInt8)) (t : Fin 8) :
    (l.put x r).lane (!x) t =
      { l.lane (!x) t with
        answerer := r.1.remembers t, back := (l.lane (!x) t).back ++ r.2.filterMap (replyOf t) } := by
  cases x <;> simp [BaLink.lane, BaLink.put]

/-! ## What is sent -/

theorem addbaTid_issueAddbaReq (s : BaSide) (tid : Fin 8) :
    addbaTid (getLe16 (s.issueAddbaReq tid).2 3) = lowTid tid := by
  have hparam : getLe16 (s.issueAddbaReq tid).2 3 = (0x1002 : UInt16) ||| (UInt16.ofNat tid <<< 2) :=
    le16_round _
  rw [hparam]
  clear hparam
  revert tid
  decide

theorem callOf_issueAddbaReq (s : BaSide) (tid t : Fin 8) :
    callOf t (s.issueAddbaReq tid).2 = if tid = t then some .ask else none := by
  have hreq : isAddbaReq t (s.issueAddbaReq tid).2 = decide (tid = t) := by
    unfold isAddbaReq
    rw [addbaTid_issueAddbaReq, decide_eq_decide.mpr lowTid_inj]
    rfl
  have hdelba : isDelba t true (s.issueAddbaReq tid).2 = false := rfl
  unfold callOf
  rw [hreq, hdelba]
  by_cases h : tid = t <;> simp [h]

theorem replyOf_issueAddbaReq (s : BaSide) (tid t : Fin 8) : replyOf t (s.issueAddbaReq tid).2 = none := rfl

theorem rspTid_issueAddbaRsp (conf : BaConf) (s : BaSide) (tid : Tid) (status : UInt16) (size : UInt8) :
    rspTid (s.issueAddbaRsp conf tid status size) = tid % 8 :=
  rspTid_rspParaSet conf s.addbaReq.baParaSet tid size

theorem rspStatus_issueAddbaRsp (conf : BaConf) (s : BaSide) (tid : Tid) (status : UInt16) (size : UInt8) :
    rspStatus (s.issueAddbaRsp conf tid status size) = status := le16_round status

theorem replyOf_issueAddbaRsp (conf : BaConf) (s : BaSide) (tid t : Fin 8) (status : UInt16) (size : UInt8) :
    replyOf t (s.issueAddbaRsp conf (lowTid tid) status size) =
      if tid = t then some (if status = 0 then .yes else .no) else none := by
  have htid := rspTid_issueAddbaRsp conf s (lowTid tid) status size
  have hmod : ((lowTid tid : Tid) : Nat) % 8 = tid := Nat.mod_eq_of_lt tid.isLt
  rw [hmod] at htid
  have hresp (accepts : Bool) : isAddbaResp t accepts (s.issueAddbaRsp conf (lowTid tid) status size)
      = (decide (decide (status = 0) = accepts) && decide (tid = t)) := by
    unfold isAddbaResp
    rw [htid, rspStatus_issueAddbaRsp, decide_eq_decide.mpr (Fin.val_inj (a := tid))]
    rfl
  have hdelba : isDelba t false (s.issueAddbaRsp conf (lowTid tid) status size) = false := rfl
  unfold replyOf
  rw [hresp, hresp, hdelba]
  by_cases h : tid = t <;> by_cases h0 : status = 0 <;> simp [h, h0]

theorem callOf_issueDelBa (tid : Tid) (t : Fin 8) (initiator : Bool) :
    callOf t (issueDelBa tid 37 initiator) = if initiator && tid = lowTid t then some .ends else none := by
  revert tid t initiator
  decide

theorem replyOf_issueDelBa (tid : Tid) (t : Fin 8) (initiator : Bool) :
    replyOf t (issueDelBa tid 37 initiator) = if !initiator && tid = lowTid t then some .ends else none := by
  revert tid t initiator
  decide

/-- Every try of `issue_del_ba_ex` sends the same body, and one that is acknowledged was sent. -/
theorem issueDelBaEx_mem (body : List UInt8) : ∀ (n : Nat) (ts : List TxTry),
    (∀ b ∈ (issueDelBaEx body n ts).1, b = body) ∧
      ((issueDelBaEx body n ts).2 = true → body ∈ (issueDelBaEx body n ts).1) := by
  intro n
  induction n with
  | zero => exact fun ts => ⟨fun b hb => absurd hb List.not_mem_nil, nofun⟩
  | succ n ih =>
      intro ts
      cases ts with
      | nil => exact ⟨fun b hb => absurd hb List.not_mem_nil, nofun⟩
      | cons t ts =>
          unfold issueDelBaEx
          have hsent : ∀ b ∈ (if t.received then [body] else []), b = body := by
            intro b hb
            cases hr : t.received with
            | false =>
                rw [hr] at hb
                exact absurd hb List.not_mem_nil
            | true =>
                rw [hr] at hb
                exact List.mem_singleton.mp hb
          cases hacked : t.acked with
          | true =>
              refine ⟨hsent, fun _ => ?_⟩
              simp [t.heard hacked]
          | false =>
              refine ⟨fun b hb => ?_, fun h => List.mem_append_right _ ((ih ts).2 h)⟩
              rcases List.mem_append.mp hb with hb | hb
              · exact hsent b hb
              · exact (ih ts).1 b hb

/-! ## What is heard -/

/-- The two are associated, with HT. -/
structure BaConf.Up (conf : BaConf) : Prop where
  linked : (conf.apState || conf.assocSuccess) = true
  ht : conf.htEnable = true

/-- A request is for a TID that data has. -/
def LowReq (body : List UInt8) : Prop :=
  baCategory body = categoryBack → baAction body = actionAddbaReq → ∃ u, addbaTid (getLe16 body 3) = lowTid u

namespace BaSide

variable {conf : BaConf} {s : BaSide} {t : Fin 8} {body : List UInt8}

@[simp] theorem aggregates_setCtrl (tid : Tid) (c : BaCtrl) : (s.setCtrl tid c).aggregates t = s.aggregates t :=
  rfl

theorem setCtrl_ctrl (tid : Tid) (c : BaCtrl) :
    (s.setCtrl tid c).recvreorderCtrl = Function.update s.recvreorderCtrl tid c := rfl

@[simp] theorem setCtrl_waiting (tid : Tid) (c : BaCtrl) : (s.setCtrl tid c).waiting = s.waiting := rfl

theorem remembers_setCtrl_ne {tid : Tid} (c : BaCtrl) (h : tid ≠ lowTid t) :
    (s.setCtrl tid c).remembers t = s.remembers t := by
  unfold remembers
  rw [setCtrl_ctrl, Function.update_of_ne (Ne.symm h), setCtrl_waiting]

theorem remembers_setCtrl_self (c : BaCtrl) :
    (s.setCtrl (lowTid t) c).remembers t =
      (c.ampduSize != rxAmpduSizeInvalid || (s.waiting (lowTid t)).any fun w => !w.2) := by
  unfold remembers
  rw [setCtrl_ctrl, Function.update_self, setCtrl_waiting]

/-- A size that stays is remembered as it was. -/
theorem remembers_setCtrl_size {tid : Tid} {c : BaCtrl} (h : c.ampduSize = (s.recvreorderCtrl tid).ampduSize) :
    (s.setCtrl tid c).remembers t = s.remembers t := by
  by_cases htid : tid = lowTid t
  · subst htid
    rw [remembers_setCtrl_self, h]
    rfl
  · exact remembers_setCtrl_ne c htid

theorem setCtrl_remembers {c : BaCtrl} (h : c.ampduSize ≠ rxAmpduSizeInvalid) :
    (s.setCtrl (lowTid t) c).remembers t = true := by
  rw [remembers_setCtrl_self, bne_iff_ne.mpr h, Bool.true_or]

/-- What a request leads to. -/
theorem processAddbaReq_spec {u : Fin 8} (hu : addbaTid s.addbaReq.baParaSet = lowTid u) :
    (s.processAddbaReq conf).1.aggregates t = s.aggregates t ∧
      (s.processAddbaReq conf).2.filterMap (callOf t) = [] ∧
      (u ≠ t → (s.processAddbaReq conf).1.remembers t = s.remembers t ∧
        (s.processAddbaReq conf).2.filterMap (replyOf t) = []) ∧
      (u = t → (s.processAddbaReq conf).1.remembers t = true ∧
          (s.processAddbaReq conf).2.filterMap (replyOf t) = [.yes] ∨
        (s.processAddbaReq conf).1.remembers t = s.remembers t ∧
          (s.processAddbaReq conf).2.filterMap (replyOf t) = [.no]) := by
  unfold processAddbaReq
  simp only [hu]
  split
  · refine ⟨rfl, rfl, fun hne => ⟨?_, ?_⟩, fun heq => Or.inl ⟨?_, ?_⟩⟩
    · exact remembers_setCtrl_ne _ fun h => hne (lowTid_inj.mp h)
    · rw [List.filterMap_cons, replyOf_issueAddbaRsp, if_neg hne, List.filterMap_nil]
    · subst heq
      exact setCtrl_remembers (s.rtwRxAmpduSize_ne conf)
    · rw [List.filterMap_cons, replyOf_issueAddbaRsp, if_pos heq, if_pos rfl, List.filterMap_nil]
  · refine ⟨rfl, rfl, fun hne => ⟨?_, ?_⟩, fun heq => Or.inr ⟨?_, ?_⟩⟩
    · exact remembers_setCtrl_ne _ fun h => hne (lowTid_inj.mp h)
    · rw [List.filterMap_cons, replyOf_issueAddbaRsp, if_neg hne, List.filterMap_nil]
    · exact remembers_setCtrl_size rfl
    · rw [List.filterMap_cons, replyOf_issueAddbaRsp, if_pos heq, if_neg (by decide), List.filterMap_nil]

/-- What a response leads to: at most what it says. -/
theorem aggregates_onAddbaResp (tid : Nat) (status : UInt16) :
    (tid ≠ t → (s.onAddbaResp tid status).aggregates t = s.aggregates t) ∧
      (tid = t → (s.onAddbaResp tid status).aggregates t = true → status = 0) := by
  unfold onAddbaResp
  refine ⟨fun hne => ?_, fun heq hagg => ?_⟩
  · simp only
    split <;> split <;> simp [aggregates, hne]
  · by_contra h0
    simp only [if_neg h0] at hagg
    revert hagg
    split <;> simp [aggregates, heq]

theorem remembers_onAddbaResp (tid : Nat) (status : UInt16) :
    (s.onAddbaResp tid status).remembers t = s.remembers t := by
  unfold onAddbaResp
  simp only
  split <;> split <;> rfl

/-- What a DELBA leads to. -/
theorem onDelba_spec (param : UInt8) :
    ((s.onDelba param).aggregates t = true → s.aggregates t = true ∧ (param &&& 8 = 0 → delbaTid param ≠ lowTid t)) ∧
      (param &&& 8 = 0 → delbaTid param ≠ lowTid t → (s.onDelba param).aggregates t = s.aggregates t) ∧
      (param &&& 8 ≠ 0 → (s.onDelba param).aggregates t = s.aggregates t) := by
  have hval : delbaTid param = lowTid t ↔ (delbaTid param : Nat) = t := Fin.ext_iff
  by_cases h : param &&& 8 = 0
  · have hclear : (s.onDelba param).aggregates t = (s.aggregates t && !decide ((delbaTid param : Nat) = t)) := by
      unfold onDelba
      rw [if_pos h]
      exact getLsbD_clear _ _ _
    refine ⟨fun hagg => ?_, fun _ hne => ?_, fun hne => absurd h hne⟩
    · rw [hclear, Bool.and_eq_true] at hagg
      refine ⟨hagg.1, fun _ heq => ?_⟩
      rw [decide_eq_true (hval.mp heq)] at hagg
      exact absurd hagg.2 (by decide)
    · rw [hclear, decide_eq_false fun hn => hne (hval.mpr hn), Bool.not_false, Bool.and_true]
  · have hsame : (s.onDelba param).aggregates t = s.aggregates t := by
      unfold onDelba
      rw [if_neg h]
      rfl
    exact ⟨fun hagg => ⟨hsame ▸ hagg, fun h0 => absurd h0 h⟩, fun h0 => absurd h0 h, fun _ => hsame⟩

theorem remembers_onDelba (param : UInt8) (h : param &&& 8 = 0 ∨ delbaTid param ≠ lowTid t) :
    (s.onDelba param).remembers t = s.remembers t := by
  unfold onDelba
  simp only
  split
  · rfl
  · rename_i h8
    exact remembers_setCtrl_ne _ (h.resolve_left h8)

/-! ### `OnAction_back` -/

theorem onActionBack_eq (hup : conf.Up) :
    s.onActionBack conf body =
      if baCategory body ≠ categoryBack then (s, [])
      else if baAction body = actionAddbaReq then { s with addbaReq := addbaRequest body }.processAddbaReq conf
      else if baAction body = actionAddbaResp then (s.onAddbaResp (rspTid body) (rspStatus body), [])
      else if baAction body = actionDelba then (s.onDelba (delbaParam body), [])
      else (s, []) := by
  have hlinked : (!conf.apState && !conf.assocSuccess) = false := by
    rw [← Bool.not_or, hup.linked]
    rfl
  unfold onActionBack
  rw [hlinked, hup.ht]
  rfl

/-- What a frame does to who may have asked. -/
theorem onActionBack_own (hup : conf.Up) :
    (s.onActionBack conf body).2.filterMap (callOf t) = [] ∧
      (replyOf t body = none → (s.onActionBack conf body).1.aggregates t = s.aggregates t) ∧
      ∀ r, replyOf t body = some r → (s.onActionBack conf body).1.aggregates t = true →
        Pact.hear (s.aggregates t) r = true := by
  rw [onActionBack_eq hup]
  by_cases hcat : baCategory body = categoryBack
  · rw [if_neg (not_not_intro hcat)]
    -- a request says nothing to the one who asks
    by_cases hreq : baAction body = actionAddbaReq
    · have hreply : replyOf t body = none := by simp [replyOf, isAddbaResp, isDelba, hreq]
      rw [if_pos hreq, hreply]
      refine ⟨?_, fun _ => ?_, nofun⟩
      · unfold processAddbaReq
        simp only
        split <;> rfl
      · unfold processAddbaReq
        simp only
        split <;> rfl
    · rw [if_neg hreq]
      by_cases hresp : baAction body = actionAddbaResp
      · have hreply : replyOf t body =
            if rspTid body = t then some (if rspStatus body = 0 then .yes else .no) else none := by
          unfold replyOf
          simp only [isAddbaResp, isDelba, hcat, hresp]
          by_cases htid : rspTid body = t <;> by_cases h0 : rspStatus body = 0 <;> simp [htid, h0]
        rw [if_pos hresp, hreply]
        -- a response is heard for its TID, and says what its status is
        obtain ⟨hother, hsame⟩ := aggregates_onAddbaResp (s := s) (t := t) (rspTid body) (rspStatus body)
        refine ⟨rfl, fun hnone => hother fun htid => ?_, fun r hr hagg => ?_⟩
        · rw [if_pos htid] at hnone
          cases hnone
        · by_cases htid : rspTid body = t
          · rw [if_pos htid, if_pos (hsame htid hagg)] at hr
            cases hr
            rfl
          · rw [if_neg htid] at hr
            cases hr
      · rw [if_neg hresp]
        by_cases hdel : baAction body = actionDelba
        · have hreply : replyOf t body =
              if delbaParam body &&& 8 = 0 ∧ delbaTid (delbaParam body) = lowTid t then some .ends else none := by
            unfold replyOf
            simp only [isAddbaResp, isDelba, hcat, hdel]
            by_cases h8 : delbaParam body &&& 8 = 0 <;>
              by_cases htid : delbaTid (delbaParam body) = lowTid t <;> simp [htid, h8]
          rw [if_pos hdel, hreply]
          -- a DELBA from the recipient ends its TID; one from the originator is not for this side
          obtain ⟨hclear, hother, hsame⟩ := onDelba_spec (s := s) (t := t) (delbaParam body)
          refine ⟨rfl, fun hnone => ?_, fun r hr hagg => ?_⟩
          · by_cases h8 : delbaParam body &&& 8 = 0
            · refine hother h8 fun htid => ?_
              rw [if_pos ⟨h8, htid⟩] at hnone
              cases hnone
            · exact hsame h8
          · by_cases hthis : delbaParam body &&& 8 = 0 ∧ delbaTid (delbaParam body) = lowTid t
            · exact absurd hthis.2 ((hclear hagg).2 hthis.1)
            · rw [if_neg hthis] at hr
              cases hr
        · have hreply : replyOf t body = none := by simp [replyOf, isAddbaResp, isDelba, hresp, hdel]
          rw [if_neg hdel, hreply]
          exact ⟨rfl, fun _ => rfl, nofun⟩
  · have hreply : replyOf t body = none := by simp [replyOf, isAddbaResp, isDelba, hcat]
    rw [if_pos hcat, hreply]
    exact ⟨rfl, fun _ => rfl, nofun⟩

/-- What a frame does to who may answer. -/
theorem onActionBack_other (hup : conf.Up) (hlow : LowReq body) :
    (callOf t body = none → (s.onActionBack conf body).1.remembers t = s.remembers t ∧
      (s.onActionBack conf body).2.filterMap (replyOf t) = []) ∧
    (callOf t body = some .ask →
      (s.onActionBack conf body).1.remembers t = true ∧
        (s.onActionBack conf body).2.filterMap (replyOf t) = [.yes] ∨
      (s.onActionBack conf body).1.remembers t = s.remembers t ∧
        (s.onActionBack conf body).2.filterMap (replyOf t) = [.no]) ∧
    (callOf t body = some .ends → (s.onActionBack conf body).2.filterMap (replyOf t) = []) := by
  rw [onActionBack_eq hup]
  by_cases hcat : baCategory body = categoryBack
  · rw [if_neg (not_not_intro hcat)]
    by_cases hreq : baAction body = actionAddbaReq
    -- a request is for one TID, and is answered yes or no
    · obtain ⟨u, hu⟩ := hlow hcat hreq
      have hcall : callOf t body = if u = t then some .ask else none := by
        unfold callOf
        simp only [isAddbaReq, isDelba, hcat, hreq, hu, lowTid_inj]
        by_cases htid : u = t <;> simp [htid]
      rw [if_pos hreq, hcall]
      obtain ⟨-, -, hne, heq⟩ :=
        @processAddbaReq_spec conf { s with addbaReq := addbaRequest body } t u hu
      by_cases htid : u = t
      · rw [if_pos htid]
        exact ⟨nofun, fun _ => heq htid, nofun⟩
      · rw [if_neg htid]
        exact ⟨fun _ => hne htid, nofun, nofun⟩
    · rw [if_neg hreq]
      by_cases hresp : baAction body = actionAddbaResp
      · have hcall : callOf t body = none := by simp [callOf, isAddbaReq, isDelba, hresp]
        rw [if_pos hresp, hcall]
        exact ⟨fun _ => ⟨remembers_onAddbaResp _ _, rfl⟩, nofun, nofun⟩
      · rw [if_neg hresp]
        -- a DELBA of the originator ends its TID, and nothing else touches what is remembered
        by_cases hdel : baAction body = actionDelba
        · have hcall : callOf t body =
              if delbaParam body &&& 8 ≠ 0 ∧ delbaTid (delbaParam body) = lowTid t then some .ends else none := by
            unfold callOf
            simp only [isAddbaReq, isDelba, hcat, hdel]
            by_cases h8 : delbaParam body &&& 8 = 0 <;>
              by_cases htid : delbaTid (delbaParam body) = lowTid t <;> simp [htid, h8]
          rw [if_pos hdel, hcall]
          by_cases hthis : delbaParam body &&& 8 ≠ 0 ∧ delbaTid (delbaParam body) = lowTid t
          · rw [if_pos hthis]
            exact ⟨nofun, nofun, fun _ => rfl⟩
          · rw [if_neg hthis]
            refine ⟨fun _ => ⟨remembers_onDelba _ ?_, rfl⟩, nofun, nofun⟩
            by_cases h8 : delbaParam body &&& 8 = 0
            · exact Or.inl h8
            · exact Or.inr fun htid => hthis ⟨h8, htid⟩
        · have hcall : callOf t body = none := by simp [callOf, isAddbaReq, isDelba, hreq, hdel]
          rw [if_neg hdel, hcall]
          exact ⟨fun _ => ⟨rfl, rfl⟩, nofun, nofun⟩
  · have hcall : callOf t body = none := by simp [callOf, isAddbaReq, isDelba, hcat]
    rw [if_pos hcat, hcall]
    exact ⟨fun _ => ⟨rfl, rfl⟩, nofun, nofun⟩

/-- Only a response is sent, and no wait begins or ends. -/
theorem onActionBack_sends (s : BaSide) :
    (s.onActionBack conf body).1.waiting = s.waiting ∧
      ∀ b ∈ (s.onActionBack conf body).2, baAction b ≠ actionAddbaReq := by
  have hreq (s : BaSide) : (s.processAddbaReq conf).1.waiting = s.waiting ∧
      ∀ b ∈ (s.processAddbaReq conf).2, baAction b ≠ actionAddbaReq := by
    unfold processAddbaReq
    simp only
    split
    · refine ⟨rfl, fun b hb => ?_⟩
      rw [List.mem_singleton.mp hb]
      exact action_resp_ne.1
    · refine ⟨rfl, fun b hb => ?_⟩
      rw [List.mem_singleton.mp hb]
      exact action_resp_ne.1
  have hnone : ∀ b ∈ ([] : List (List UInt8)), baAction b ≠ actionAddbaReq := fun b hb =>
    absurd hb List.not_mem_nil
  unfold onActionBack
  split
  · exact ⟨rfl, hnone⟩
  split
  · exact ⟨rfl, hnone⟩
  split
  · exact ⟨rfl, hnone⟩
  split
  · exact hreq _
  split
  · refine ⟨?_, hnone⟩
    unfold onAddbaResp
    simp only
    split <;> split <;> rfl
  split
  · refine ⟨?_, hnone⟩
    unfold onDelba
    simp only
    split <;> rfl
  · exact ⟨rfl, hnone⟩

/-! ### The recipient's DELBA -/

/-- Both records of a TID at once. -/
theorem remembers_wait (tid : Tid) (c : BaCtrl) (w : List (UInt8 × Bool)) :
    BaSide.remembers { s.setCtrl tid c with waiting := Function.update s.waiting tid w } t =
      if tid = lowTid t then c.ampduSize != rxAmpduSizeInvalid || w.any fun w => !w.2 else s.remembers t := by
  by_cases htid : tid = lowTid t
  · subst htid
    simp [remembers, setCtrl_ctrl]
  · simp [remembers, setCtrl_ctrl, htid, Function.update_of_ne (Ne.symm htid)]

theorem sendDelbaRecipient_off {tid : Tid} {force : Bool} (tx : DelbaTx)
    (h : ¬ (force || (s.recvreorderCtrl tid).enable) = true) : s.sendDelbaRecipient tid force tx = (s, []) := by
  unfold sendDelbaRecipient
  exact if_neg h

/-- A recipient that tears down without waiting tells the other, or goes on remembering. -/
theorem sendDelbaRecipient_noWait (tid : Tid) (force : Bool) :
    (s.sendDelbaRecipient tid force .noWait).1.aggregates t = s.aggregates t ∧
      (∀ b ∈ (s.sendDelbaRecipient tid force .noWait).2, b = issueDelBa tid 37 false) ∧
      ((s.sendDelbaRecipient tid force .noWait).2.filterMap (replyOf t) = [] → s.remembers t = true →
        (s.sendDelbaRecipient tid force .noWait).1.remembers t = true) := by
  by_cases hon : (force || (s.recvreorderCtrl tid).enable) = true
  · have hdo : s.sendDelbaRecipient tid force .noWait =
        (s.setCtrl tid ((s.recvreorderCtrl tid).off rxAmpduSizeInvalid), [issueDelBa tid 37 false]) := by
      unfold sendDelbaRecipient
      exact if_pos hon
    rw [hdo]
    refine ⟨rfl, fun b hb => List.mem_singleton.mp hb, fun hnil h => ?_⟩
    have hne : tid ≠ lowTid t := by
      intro htid
      have hnone := List.filterMap_eq_nil_iff.mp hnil _ (List.mem_singleton_self _)
      rw [replyOf_issueDelBa, htid] at hnone
      simp at hnone
    exact (remembers_setCtrl_ne (s := s) _ hne).trans h
  · rw [sendDelbaRecipient_off _ hon]
    exact ⟨rfl, fun b hb => absurd hb List.not_mem_nil, fun _ h => h⟩

theorem sendDelbaRecipient_noTxFail (tid : Tid) (force : Bool) :
    (s.sendDelbaRecipient tid force .noTxFail).1.aggregates t = s.aggregates t ∧
      (s.sendDelbaRecipient tid force .noTxFail).2 = [] ∧
      (s.sendDelbaRecipient tid force .noTxFail).1.remembers t = s.remembers t := by
  by_cases hon : (force || (s.recvreorderCtrl tid).enable) = true
  · have hdo : s.sendDelbaRecipient tid force .noTxFail =
        (s.setCtrl tid ((s.recvreorderCtrl tid).off (s.recvreorderCtrl tid).ampduSize), []) := by
      unfold sendDelbaRecipient
      exact if_pos hon
    rw [hdo]
    exact ⟨rfl, rfl, remembers_setCtrl_size (s := s) rfl⟩
  · rw [sendDelbaRecipient_off _ hon]
    exact ⟨rfl, rfl, rfl⟩

/-- A recipient that waits tells the other, or is going to remember. -/
theorem sendDelbaRecipient_waitAck (tid : Tid) (force : Bool) (tries : List TxTry) :
    (s.sendDelbaRecipient tid force (.waitAck tries)).1.aggregates t = s.aggregates t ∧
      (∀ b ∈ (s.sendDelbaRecipient tid force (.waitAck tries)).2, b = issueDelBa tid 37 false) ∧
      ((s.sendDelbaRecipient tid force (.waitAck tries)).2.filterMap (replyOf t) = [] → s.remembers t = true →
        (s.sendDelbaRecipient tid force (.waitAck tries)).1.remembers t = true) := by
  by_cases hon : (force || (s.recvreorderCtrl tid).enable) = true
  · obtain ⟨hall, hacked⟩ := issueDelBaEx_mem (issueDelBa tid 37 false) 3 tries
    have hdo : s.sendDelbaRecipient tid force (.waitAck tries) =
        ({ s.setCtrl tid ((s.recvreorderCtrl tid).off rxAmpduSizeInvalid) with
          waiting := Function.update s.waiting tid
            (((s.recvreorderCtrl tid).ampduSize, (issueDelBaEx (issueDelBa tid 37 false) 3 tries).2)
              :: s.waiting tid) },
          (issueDelBaEx (issueDelBa tid 37 false) 3 tries).1) := by
      unfold sendDelbaRecipient
      exact if_pos hon
    rw [hdo]
    refine ⟨rfl, hall, fun hnil h => ?_⟩
    rw [remembers_wait]
    split
    · -- nothing that is acknowledged went out
      rename_i htid
      have hfail : (issueDelBaEx (issueDelBa tid 37 false) 3 tries).2 = false := by
        refine Bool.eq_false_iff.mpr fun hok => ?_
        have hnone := List.filterMap_eq_nil_iff.mp hnil _ (hacked hok)
        rw [replyOf_issueDelBa, htid] at hnone
        simp at hnone
      rw [hfail, List.any_cons, Bool.not_false, Bool.true_or, Bool.or_true]
    · exact h
  · rw [sendDelbaRecipient_off _ hon]
    exact ⟨rfl, fun b hb => absurd hb List.not_mem_nil, fun _ h => h⟩

/-- A recipient that does not accept, and whose DELBA is acknowledged, has nothing to remember. -/
theorem forgets_apply {size : UInt8} {tries : List TxTry} (hwait : ∀ w ∈ s.waiting (lowTid t), w.2 = true)
    (hacked : (issueDelBaEx (issueDelBa (lowTid t) 37 false) 3 tries).2 = true) :
    (s.rxAmpduApplyStaTid (lowTid t) false size (some tries)).2.1.remembers t = false := by
  have hold : (s.waiting (lowTid t)).any (fun w => !w.2) = false := by
    refine List.any_eq_false.mpr fun w hw => ?_
    rw [hwait w hw]
    decide
  have hsend (force : Bool) (hon : (force || (s.recvreorderCtrl (lowTid t)).enable) = true) :
      (s.sendDelbaRecipient (lowTid t) force (.waitAck tries)).1.remembers t = false := by
    unfold sendDelbaRecipient
    rw [if_pos hon]
    refine (remembers_wait (s := s) (lowTid t) _ _).trans ?_
    rw [if_pos rfl, List.any_cons, hacked, hold]
    rfl
  unfold rxAmpduApplyStaTid
  simp only
  split
  · split
    · exact hsend true rfl
    · rename_i hsize
      unfold remembers
      rw [not_not.mp hsize, hold]
      rfl
  · rename_i hon
    exact hsend false (by simpa using hon)

/-- **The end of a wait takes nothing back.** -/
theorem remembers_endDelba (tid : Tid) (i : Nat) (hbak : ∀ w ∈ s.waiting tid, w.1 ≠ rxAmpduSizeInvalid)
    (h : s.remembers t = true) : (s.endDelba tid i).remembers t = true := by
  unfold endDelba
  cases hw : (s.waiting tid)[i]? with
  | none => exact h
  | some w =>
      obtain ⟨bak, acked⟩ := w
      have hvalid : (bak != rxAmpduSizeInvalid) = true := bne_iff_ne.mpr (hbak _ (List.mem_of_getElem? hw))
      simp only
      split
      · refine (remembers_wait (s := s) tid _ _).trans ?_
        split
        · rw [BaCtrl.off_ampduSize, hvalid, Bool.true_or]
        · exact h
      · rename_i hdone
        have hctrl := remembers_wait (s := s) (t := t) tid (s.recvreorderCtrl tid) ((s.waiting tid).eraseIdx i)
        have hput : s.setCtrl tid (s.recvreorderCtrl tid) = s := by
          unfold setCtrl
          rw [Function.update_eq_self]
        rw [hput] at hctrl
        refine hctrl.trans ?_
        split
        · rename_i htid
          subst htid
          cases hon : (s.recvreorderCtrl (lowTid t)).enable with
          | true => rw [bne_iff_ne.mpr ((s.recvreorderCtrl (lowTid t)).sized hon), Bool.true_or]
          | false =>
              -- it was acknowledged; if another wait fails, that one is still there
              have hacked : acked ≠ false := fun hfail => hdone ⟨hfail, hon⟩
              rcases Bool.or_eq_true_iff.mp h with hsize | hfail
              · rw [hsize, Bool.true_or]
              · obtain ⟨w, hmem, hnot⟩ := List.any_eq_true.mp hfail
                obtain ⟨j, hj⟩ := List.getElem?_of_mem hmem
                have hji : j ≠ i := by
                  rintro rfl
                  rw [hw] at hj
                  cases hj
                  exact hacked (by simpa using hnot)
                have hstill := List.mem_eraseIdx_iff_getElem?.mpr ⟨j, hji, hj⟩
                rw [List.any_eq_true.mpr ⟨w, hstill, hnot⟩, Bool.or_true]
        · exact h

end BaSide

/-! ## Any order -/

/-- **What keeps the two stations together.** -/
structure BaLink.Inv (l : BaLink) : Prop where
  sound : ∀ x t, (l.lane x t).Sound
  low : ∀ x, ∀ body ∈ l.air x, LowReq body
  bak : ∀ x tid, ∀ w ∈ (l.side x).waiting tid, w.1 ≠ rxAmpduSizeInvalid

theorem baLink_start (s : Bool → BaSide) (hagg : ∀ x, (s x).aggEnableBitmap = 0)
    (hwait : ∀ x tid, (s x).waiting tid = []) : BaLink.Inv { side := s } where
  sound := fun x t => by
    have hasker : (s x).aggregates t = false := by simp [BaSide.aggregates, hagg]
    refine ⟨fun hhope => ?_, fun hends => absurd hends List.not_mem_nil, List.Pairwise.nil⟩
    rw [show (BaLink.lane { side := s } x t).hopes = (s x).aggregates t from rfl, hasker] at hhope
    cases hhope
  low := fun _ _ hb => absurd hb List.not_mem_nil
  bak := fun x tid w hw => by
    rw [hwait] at hw
    exact absurd hw List.not_mem_nil

namespace BaLink

variable {conf : Bool → BaConf} {l l' : BaLink} {x : Bool} {r : BaSide × List (List UInt8)}

theorem put_side (l : BaLink) (x : Bool) (r : BaSide × List (List UInt8)) :
    (l.put x r).side = Function.update l.side x r.1 := rfl

theorem put_air (l : BaLink) (x : Bool) (r : BaSide × List (List UInt8)) :
    (l.put x r).air = Function.update l.air (!x) (l.air (!x) ++ r.2) := rfl

/-- What there is to show when one station has taken a step. -/
theorem inv_put (hlow : ∀ y, ∀ body ∈ l.air y, LowReq body)
    (hbak : ∀ y tid, ∀ w ∈ (l.side y).waiting tid, w.1 ≠ rxAmpduSizeInvalid)
    (hself : ∀ t, Pact.Sound { l.lane x t with
      asker := r.1.aggregates t, forth := (l.lane x t).forth ++ r.2.filterMap (callOf t) })
    (hother : ∀ t, Pact.Sound { l.lane (!x) t with
      answerer := r.1.remembers t, back := (l.lane (!x) t).back ++ r.2.filterMap (replyOf t) })
    (hsends : ∀ body ∈ r.2, LowReq body)
    (hwaits : ∀ tid, ∀ w ∈ r.1.waiting tid, w.1 ≠ rxAmpduSizeInvalid) : (l.put x r).Inv where
  sound := fun y t => by
    rcases Bool.eq_or_eq_not y x with rfl | rfl
    · rw [lane_put_self]
      exact hself t
    · rw [lane_put_other]
      exact hother t
  low := fun y body hb => by
    rw [put_air] at hb
    rcases Bool.eq_or_eq_not y (!x) with rfl | rfl
    · rw [Function.update_self] at hb
      rcases List.mem_append.mp hb with hb | hb
      · exact hlow _ body hb
      · exact hsends body hb
    · rw [Function.update_of_ne (by cases x <;> decide)] at hb
      exact hlow _ body hb
  bak := fun y tid w hw => by
    rw [put_side] at hw
    rcases Bool.eq_or_eq_not y x with rfl | rfl
    · rw [Function.update_self] at hw
      exact hwaits tid w hw
    · rw [Function.update_of_ne (by cases x <;> decide)] at hw
      exact hbak _ tid w hw

/-- A step that neither sends nor touches an agreement. -/
theorem Inv.quiet (h : l.Inv) {s : BaSide} (hagg : ∀ t, s.aggregates t = (l.side x).aggregates t)
    (hrem : ∀ t, s.remembers t = (l.side x).remembers t) (hwait : s.waiting = (l.side x).waiting) :
    (l.put x (s, [])).Inv := by
  refine inv_put h.low h.bak (fun t => ?_) (fun t => ?_) (fun b hb => absurd hb List.not_mem_nil) fun tid w hw => ?_
  · rw [List.filterMap_nil, List.append_nil, hagg]
    exact h.sound x t
  · have hthis : (l.lane (!x) t).answerer = (l.side x).remembers t := by simp [lane]
    rw [List.filterMap_nil, List.append_nil, hrem, ← hthis]
    exact h.sound (!x) t
  · rw [hwait] at hw
    exact h.bak x tid w hw

/-- A step that says nothing to who answers and nothing to who asked but that it is over. -/
theorem Inv.ends (h : l.Inv) (hagg : ∀ t, r.1.aggregates t = (l.side x).aggregates t)
    (hends : ∀ body ∈ r.2, ∃ tid, body = issueDelBa tid 37 false)
    (hrem : ∀ t, r.2.filterMap (replyOf t) = [] → (l.side x).remembers t = true → r.1.remembers t = true)
    (hwaits : ∀ tid, ∀ w ∈ r.1.waiting tid, w.1 ≠ rxAmpduSizeInvalid) : (l.put x r).Inv := by
  refine inv_put h.low h.bak (fun t => ?_) (fun t => ?_) (fun b hb => ?_) hwaits
  · have hnil : r.2.filterMap (callOf t) = [] := by
      refine List.filterMap_eq_nil_iff.mpr fun b hb => ?_
      obtain ⟨tid, rfl⟩ := hends b hb
      rw [callOf_issueDelBa]
      rfl
    rw [hnil, List.append_nil, hagg]
    exact h.sound x t
  · refine (h.sound (!x) t).endsAll (fun w hw => ?_) fun hnil ha => ?_
    · obtain ⟨b, hb, hbw⟩ := List.mem_filterMap.mp hw
      obtain ⟨tid, rfl⟩ := hends b hb
      rw [replyOf_issueDelBa] at hbw
      split at hbw
      · exact (Option.some.inj hbw).symm
      · cases hbw
    · refine hrem t hnil ?_
      have hthis : (l.lane (!x) t).answerer = (l.side x).remembers t := by simp [lane]
      rw [← hthis]
      exact ha
  · obtain ⟨tid, rfl⟩ := hends b hb
    have hact : baAction (issueDelBa tid 37 false) = actionDelba := rfl
    exact fun _ hreq => absurd (hact.symm.trans hreq) (by decide)

theorem lane_air_self (l : BaLink) (x : Bool) (air : List (List UInt8)) (t : Fin 8) :
    BaLink.lane { l with air := Function.update l.air x air } x t =
      { l.lane x t with back := air.filterMap (replyOf t) } := by
  cases x <;> simp [lane]

theorem lane_air_other (l : BaLink) (x : Bool) (air : List (List UInt8)) (t : Fin 8) :
    BaLink.lane { l with air := Function.update l.air x air } (!x) t =
      { l.lane (!x) t with forth := air.filterMap (callOf t) } := by
  cases x <;> simp [lane]

/-! ### Event by event -/

theorem Inv.xmit (h : l.Inv) (c : BaConf) (priority : Fin 8) (numTxOk : Nat) :
    (l.put x ((l.side x).rtwIssueAddbareqCmd c priority numTxOk, [])).Inv := by
  have hsame : ((l.side x).rtwIssueAddbareqCmd c priority numTxOk).aggEnableBitmap = (l.side x).aggEnableBitmap ∧
      ((l.side x).rtwIssueAddbareqCmd c priority numTxOk).recvreorderCtrl = (l.side x).recvreorderCtrl ∧
      ((l.side x).rtwIssueAddbareqCmd c priority numTxOk).waiting = (l.side x).waiting := by
    unfold BaSide.rtwIssueAddbareqCmd
    split
    · exact ⟨rfl, rfl, rfl⟩
    · split
      · simp only
        split <;> exact ⟨rfl, rfl, rfl⟩
      · exact ⟨rfl, rfl, rfl⟩
  obtain ⟨hagg, hctrl, hwait⟩ := hsame
  refine h.quiet (fun t => ?_) (fun t => ?_) hwait
  · unfold BaSide.aggregates
    rw [hagg]
  · unfold BaSide.remembers
    rw [hctrl, hwait]

theorem Inv.timer (h : l.Inv) (c : BaConf) : (l.put x ((l.side x).addbaTimerHdl c, [])).Inv := by
  unfold BaSide.addbaTimerHdl
  split
  · exact h.quiet (fun _ => rfl) (fun _ => rfl) rfl
  · exact h.quiet (fun _ => rfl) (fun _ => rfl) rfl

/-- A request that is sent. -/
theorem Inv.request (h : l.Inv) {s : BaSide} (tid : Fin 8) (hagg : s.aggEnableBitmap = (l.side x).aggEnableBitmap)
    (hctrl : s.recvreorderCtrl = (l.side x).recvreorderCtrl) (hwait : s.waiting = (l.side x).waiting) :
    (l.put x ((s.issueAddbaReq tid).1, [(s.issueAddbaReq tid).2])).Inv := by
  refine inv_put h.low h.bak (fun t => ?_) (fun t => ?_) (fun b hb => ?_) fun tid w hw => ?_
  · have hasker : (s.issueAddbaReq tid).1.aggregates t = (l.lane x t).asker := by
      show s.aggEnableBitmap.getLsbD t = _
      rw [hagg]
      rfl
    rw [List.filterMap_cons, callOf_issueAddbaReq, List.filterMap_nil, hasker]
    by_cases htid : tid = t
    · rw [if_pos htid]
      exact (h.sound x t).step .ask
    · rw [if_neg htid, List.append_nil]
      exact h.sound x t
  · have hrem : (s.issueAddbaReq tid).1.remembers t = (l.lane (!x) t).answerer := by
      have hthis : (l.lane (!x) t).answerer = (l.side x).remembers t := by simp [lane]
      rw [hthis]
      unfold BaSide.remembers
      rw [← hctrl, ← hwait]
      rfl
    rw [List.filterMap_cons, replyOf_issueAddbaReq, List.filterMap_nil, List.append_nil, hrem]
    exact h.sound (!x) t
  · rw [List.mem_singleton.mp hb]
    exact fun _ _ => ⟨tid, addbaTid_issueAddbaReq s tid⟩
  · have hthis : w ∈ s.waiting _ := hw
    rw [hwait] at hthis
    exact h.bak x _ w hthis

theorem Inv.addBaCmd (h : l.Inv) (c : BaConf) : (l.put x ((l.side x).addBaHdl c)).Inv := by
  unfold BaSide.addBaHdl
  cases (l.side x).cmds with
  | nil => exact h.quiet (fun _ => rfl) (fun _ => rfl) rfl
  | cons tid cmds =>
      simp only
      split
      · exact h.request tid rfl rfl rfl
      · exact h.quiet (fun _ => rfl) (fun _ => rfl) rfl

theorem Inv.deliver (h : l.Inv) {c : BaConf} (hup : c.Up) {body : List UInt8} {rest : List (List UInt8)}
    (hair : l.air x = body :: rest) :
    (BaLink.put { l with air := Function.update l.air x rest } x ((l.side x).onActionBack c body)).Inv := by
  have hlow : LowReq body := h.low x body (hair ▸ List.mem_cons_self)
  refine inv_put (fun y b hb => ?_) h.bak (fun t => ?_) (fun t => ?_) (fun b hb => ?_) fun tid w hw => ?_
  · have hair' : b ∈ Function.update l.air x rest y := hb
    by_cases hyx : y = x
    · subst hyx
      rw [Function.update_self] at hair'
      exact h.low y b (hair ▸ List.mem_cons_of_mem _ hair')
    · rw [Function.update_of_ne hyx] at hair'
      exact h.low y b hair'
  -- as asker the receiver hears a reply, or nothing that concerns this TID
  · obtain ⟨hnil, hnone, hsome⟩ := @BaSide.onActionBack_own c (l.side x) t body hup
    rw [lane_air_self, hnil, List.append_nil]
    have hback : (l.lane x t).back = (body :: rest).filterMap (replyOf t) := by
      rw [← hair]
      rfl
    rw [List.filterMap_cons] at hback
    cases hreply : replyOf t body with
    | none =>
        simp only [hreply] at hback
        rw [hnone hreply, ← hback]
        exact h.sound x t
    | some r =>
        simp only [hreply] at hback
        exact (h.sound x t).step (.hearReply _ hback (hsome r hreply))
  -- as answerer it hears a request, an end, or nothing
  · obtain ⟨hnone, hask, hends⟩ := (l.side x).onActionBack_other (t := t) hup hlow
    rw [lane_air_other]
    have hthis : (l.lane (!x) t).answerer = (l.side x).remembers t := by simp [lane]
    have hforth : (l.lane (!x) t).forth = (body :: rest).filterMap (callOf t) := by
      rw [← hair]
      simp [lane]
    rw [List.filterMap_cons] at hforth
    cases hcall : callOf t body with
    | none =>
        obtain ⟨hrem, hnil⟩ := hnone hcall
        simp only [hcall] at hforth
        rw [hrem, hnil, List.append_nil, ← hforth, ← hthis]
        exact h.sound (!x) t
    | some r =>
        simp only [hcall] at hforth
        cases r with
        | ask =>
            rcases hask hcall with ⟨hrem, hsent⟩ | ⟨hrem, hsent⟩
            · rw [hrem, hsent]
              exact (h.sound (!x) t).step (.accept hforth)
            · rw [hrem, hsent, ← hthis]
              exact (h.sound (!x) t).step (.refuse hforth)
        | ends =>
            rw [hends hcall, List.append_nil]
            exact (h.sound (!x) t).step (.hearEnd _ hforth)
  · have hact := (@BaSide.onActionBack_sends c body (l.side x)).2 b hb
    exact fun _ hreq => absurd hreq hact
  · rw [(@BaSide.onActionBack_sends c body (l.side x)).1] at hw
    exact h.bak x tid w hw

theorem Inv.lose (h : l.Inv) (i : Nat)
    (hok : ∀ body, (l.air x)[i]? = some body → ∀ t, isDelba t false body = false) :
    BaLink.Inv { l with air := Function.update l.air x ((l.air x).eraseIdx i) } where
  sound := fun y t => by
    rcases Bool.eq_or_eq_not y x with rfl | rfl
    · rw [lane_air_self]
      cases hi : (l.air y)[i]? with
      | none =>
          rw [List.eraseIdx_of_length_le (List.getElem?_eq_none_iff.mp hi)]
          exact h.sound y t
      | some body =>
          obtain ⟨hlt, hget⟩ := List.getElem?_eq_some_iff.mp hi
          -- the frame that is lost stood between the others
          have hall : l.air y = (l.air y).take i ++ body :: (l.air y).drop (i + 1) := by
            rw [← hget, List.getElem_cons_drop, List.take_append_drop]
          have hback : (l.lane y t).back =
              ((l.air y).take i).filterMap (replyOf t) ++
                (body :: (l.air y).drop (i + 1)).filterMap (replyOf t) := by
            rw [← List.filterMap_append, ← hall]
            rfl
          rw [List.filterMap_cons] at hback
          rw [List.eraseIdx_eq_take_drop_succ, List.filterMap_append]
          cases hreply : replyOf t body with
          | none =>
              simp only [hreply] at hback
              rw [← hback]
              exact h.sound y t
          | some r =>
              simp only [hreply] at hback
              refine (h.sound y t).step (.loseBack hback ?_)
              -- it was not a DELBA of the recipient
              rintro rfl
              unfold replyOf at hreply
              rw [hok body hi t] at hreply
              split at hreply
              · cases hreply
              · split at hreply
                · cases hreply
                · cases hreply
    · rw [lane_air_other]
      refine (h.sound (!x) t).step (.loseForth ?_)
      have hforth : (l.lane (!x) t).forth = (l.air x).filterMap (callOf t) := by simp [lane]
      rw [hforth]
      exact (List.eraseIdx_sublist _ _).filterMap _
  low := fun y b hb => by
    have hair : b ∈ Function.update l.air x ((l.air x).eraseIdx i) y := hb
    by_cases hyx : y = x
    · subst hyx
      rw [Function.update_self] at hair
      exact h.low y b (List.mem_of_mem_eraseIdx hair)
    · rw [Function.update_of_ne hyx] at hair
      exact h.low y b hair
  bak := h.bak

/-- What a recipient has to have when it waits. -/
theorem bak_sendDelbaRecipient {s : BaSide} {tid : Tid} {force : Bool} (tx : DelbaTx)
    (hs : ∀ u, ∀ w ∈ s.waiting u, w.1 ≠ rxAmpduSizeInvalid)
    (hsize : ∀ tries, tx = .waitAck tries → force = true →
      (s.recvreorderCtrl tid).ampduSize ≠ rxAmpduSizeInvalid) :
    ∀ u, ∀ w ∈ (s.sendDelbaRecipient tid force tx).1.waiting u, w.1 ≠ rxAmpduSizeInvalid := by
  by_cases hon : (force || (s.recvreorderCtrl tid).enable) = true
  · unfold BaSide.sendDelbaRecipient
    rw [if_pos hon]
    cases tx with
    | noTxFail => exact hs
    | noWait => exact hs
    | waitAck tries =>
        have hbak : (s.recvreorderCtrl tid).ampduSize ≠ rxAmpduSizeInvalid := by
          rcases Bool.or_eq_true_iff.mp hon with hforce | hen
          · exact hsize tries rfl hforce
          · exact (s.recvreorderCtrl tid).sized hen
        intro u w hw
        by_cases hu : u = tid
        · subst hu
          simp only [Function.update_self] at hw
          rcases List.mem_cons.mp hw with rfl | hw
          · exact hbak
          · exact hs u w hw
        · simp only [Function.update_of_ne hu] at hw
          exact hs u w hw
  · rw [BaSide.sendDelbaRecipient_off tx hon]
    exact hs

/-- A recipient that tears down in whatever way. -/
theorem Inv.recipient (h : l.Inv) {tid : Tid} {force : Bool} (tx : DelbaTx)
    (hwaits : ∀ u, ∀ w ∈ ((l.side x).sendDelbaRecipient tid force tx).1.waiting u, w.1 ≠ rxAmpduSizeInvalid) :
    (l.put x ((l.side x).sendDelbaRecipient tid force tx)).Inv := by
  cases tx with
  | noTxFail =>
      have hspec (t : Fin 8) := (l.side x).sendDelbaRecipient_noTxFail (t := t) tid force
      refine h.ends (fun t => (hspec t).1) (fun b hb => ?_) (fun t _ hrem => (hspec t).2.2.trans hrem) hwaits
      rw [(hspec 0).2.1] at hb
      exact absurd hb List.not_mem_nil
  | noWait =>
      have hspec (t : Fin 8) := (l.side x).sendDelbaRecipient_noWait (t := t) tid force
      exact h.ends (fun t => (hspec t).1) (fun b hb => ⟨tid, (hspec 0).2.1 b hb⟩) (fun t => (hspec t).2.2) hwaits
  | waitAck tries =>
      have hspec (t : Fin 8) := (l.side x).sendDelbaRecipient_waitAck (t := t) tid force tries
      exact h.ends (fun t => (hspec t).1) (fun b hb => ⟨tid, (hspec 0).2.1 b hb⟩) (fun t => (hspec t).2.2) hwaits

theorem Inv.apply (h : l.Inv) (tid : Tid) (accept : Bool) (size : UInt8) (tries : Option (List TxTry)) :
    (l.put x ((l.side x).rxAmpduApplyStaTid tid accept size tries).2).Inv := by
  have hstay : (l.put x (l.side x, [])).Inv := h.quiet (fun _ => rfl) (fun _ => rfl) rfl
  have hsoft : (l.put x ((l.side x).sendDelbaRecipient tid false (tries.elim .noTxFail .waitAck))).Inv :=
    h.recipient _ (bak_sendDelbaRecipient _ (h.bak x) nofun)
  unfold BaSide.rxAmpduApplyStaTid
  simp only
  split
  · split
    · rename_i hsize
      exact h.recipient _ (bak_sendDelbaRecipient _ (h.bak x) fun _ _ _ => hsize)
    · exact hstay
  · split
    · exact hsoft
    · split
      · exact hsoft
      · exact hstay

theorem Inv.delbaDone (h : l.Inv) (tid : Tid) (i : Nat) : (l.put x ((l.side x).endDelba tid i, [])).Inv := by
  have hkept : ((l.side x).endDelba tid i).aggEnableBitmap = (l.side x).aggEnableBitmap ∧
      ∀ u, ∀ w ∈ ((l.side x).endDelba tid i).waiting u, w ∈ (l.side x).waiting u := by
    unfold BaSide.endDelba
    split
    · exact ⟨rfl, fun _ _ hw => hw⟩
    · have hsub : ∀ u, ∀ w ∈ Function.update (l.side x).waiting tid (((l.side x).waiting tid).eraseIdx i) u,
          w ∈ (l.side x).waiting u := by
        intro u w hw
        by_cases hu : u = tid
        · subst hu
          rw [Function.update_self] at hw
          exact List.mem_of_mem_eraseIdx hw
        · rw [Function.update_of_ne hu] at hw
          exact hw
      simp only
      split <;> exact ⟨rfl, hsub⟩
  refine h.ends (fun t => ?_) (fun b hb => absurd hb List.not_mem_nil) (fun t _ hrem => ?_) fun u w hw => ?_
  · unfold BaSide.aggregates
    rw [hkept.1]
  · exact BaSide.remembers_endDelba tid i (h.bak x tid) hrem
  · exact h.bak x u w (hkept.2 u w hw)

theorem Inv.originator (h : l.Inv) (tid : Tid) (force : Bool)
    (hok : ∀ t, lowTid t = tid → (∀ body ∈ l.air (!x), isAddbaReq t body = false) ∧
      (∀ body ∈ l.air x, isAddbaResp t true body = false)) :
    (l.put x ((l.side x).sendDelbaOriginator tid force)).Inv := by
  unfold BaSide.sendDelbaOriginator
  split
  · refine inv_put h.low h.bak (fun t => ?_) (fun t => ?_) (fun b hb => ?_) (h.bak x)
    · have hasker : BaSide.aggregates { l.side x with
          aggEnableBitmap := (l.side x).aggEnableBitmap &&& ~~~ bit8 tid
          candidateTidBitmap := (l.side x).candidateTidBitmap &&& ~~~ bit8 tid } t
            = ((l.lane x t).asker && !decide ((tid : Nat) = t)) := getLsbD_clear _ _ _
      rw [hasker, List.filterMap_cons, callOf_issueDelBa, List.filterMap_nil]
      have hval : tid = lowTid t ↔ (tid : Nat) = t := Fin.ext_iff
      -- for this TID nothing is on its way that would begin it anew
      by_cases htid : tid = lowTid t
      · obtain ⟨hask, hyes⟩ := hok t htid.symm
        have hno : PactCall.ask ∉ (l.lane x t).forth := by
          intro hmem
          obtain ⟨b, hb, hbc⟩ := List.mem_filterMap.mp hmem
          unfold callOf at hbc
          rw [hask b hb] at hbc
          split at hbc
          · rename_i hfalse
            cases hfalse
          · split at hbc <;> cases hbc
        have hnoYes : PactReply.yes ∉ (l.lane x t).back := by
          intro hmem
          obtain ⟨b, hb, hbc⟩ := List.mem_filterMap.mp hmem
          unfold replyOf at hbc
          rw [hyes b hb] at hbc
          split at hbc
          · rename_i hfalse
            cases hfalse
          · split at hbc
            · cases hbc
            · split at hbc <;> cases hbc
        rw [decide_eq_true htid, decide_eq_true (hval.mp htid), Bool.not_true, Bool.and_false]
        exact (h.sound x t).step (.askerEnds hno hnoYes)
      · have hne : decide ((tid : Nat) = t) = false := decide_eq_false fun hn => htid (hval.mpr hn)
        rw [decide_eq_false htid, hne, Bool.not_false, Bool.and_true]
        simp only [Bool.and_false, Bool.false_eq_true, if_false, List.append_nil]
        exact h.sound x t
    · have hthis : (l.lane (!x) t).answerer = (l.side x).remembers t := by simp [lane]
      rw [List.filterMap_cons, replyOf_issueDelBa, List.filterMap_nil]
      simp only [Bool.not_true, Bool.false_and, Bool.false_eq_true, if_false, List.append_nil]
      show Pact.Sound { l.lane (!x) t with answerer := (l.side x).remembers t }
      rw [← hthis]
      exact h.sound (!x) t
    · rw [List.mem_singleton.mp hb]
      have hact : baAction (issueDelBa tid 37 true) = actionDelba := rfl
      exact fun _ hreq => absurd (hact.symm.trans hreq) (by decide)
  · exact h.quiet (fun _ => rfl) (fun _ => rfl) rfl

/-- **Kept by every event.** -/
theorem Inv.step (hup : ∀ x, (conf x).Up) (h : l.Inv) {e : Bool × BaLinkEvent} (hok : BaOk l e)
    (hs : baLinkStep conf l e = .done l') : l'.Inv := by
  obtain ⟨x, e⟩ := e
  cases e with
  | xmit priority numTxOk =>
      cases hs
      exact h.xmit (conf x) priority numTxOk
  | addBaCmd =>
      cases hs
      exact h.addBaCmd (conf x)
  | timer =>
      cases hs
      exact h.timer (conf x)
  -- data and the check of the neighbours send no action frame
  | data tid =>
      cases hs
      exact h.quiet (fun _ => rfl) (fun _ => rfl) rfl
  | aliveChk on =>
      cases hs
      exact h.quiet (fun _ => rfl) (fun _ => rfl) rfl
  | deliver =>
      unfold baLinkStep at hs
      simp only at hs
      cases hair : l.air x with
      | nil =>
          rw [hair] at hs
          cases hs
          exact h
      | cons body rest =>
          rw [hair] at hs
          cases hs
          exact h.deliver (hup x) hair
  | lose i =>
      cases hs
      exact h.lose i hok
  | setRxAmpdu accept size =>
      cases hs
      exact h.quiet (fun _ => rfl) (fun _ => rfl) rfl
  | apply tid accept size tries =>
      cases hs
      exact h.apply tid accept size tries
  | delbaDone tid i =>
      cases hs
      exact h.delbaDone tid i
  -- the originator takes its own request back, the recipient tells the other side
  | sendDelba initiator tid force noTxFail =>
      cases hs
      cases initiator with
      | true => exact h.originator tid force hok
      | false =>
          refine h.recipient _ (bak_sendDelbaRecipient _ (h.bak x) fun tries heq => ?_)
          cases noTxFail <;> cases heq

end BaLink

/-! ## Runs -/

/-- Two stations that have just been associated: nothing agreed and nothing waited for. -/
def BaFresh (s : Bool → BaSide) : Prop := ∀ x, (s x).aggEnableBitmap = 0 ∧ ∀ tid, (s x).waiting tid = []

theorem baLink_reach {conf : Bool → BaConf} (hup : ∀ x, (conf x).Up) {s : Bool → BaSide} (hs : BaFresh s)
    {l : BaLink} (h : Reach (baLinkStep conf) BaOk { side := s } l) : l.Inv :=
  h.invariant BaLink.Inv (baLink_start s (fun x => (hs x).1) fun x => (hs x).2)
    fun hinv hok hstep => hinv.step hup hok hstep

/-- Who aggregates, and the two ways in which the other knows. -/
theorem BaLink.Inv.known {l : BaLink} (h : l.Inv) {x : Bool} {t : Fin 8} (ha : (l.side x).aggregates t = true) :
    (l.side (!x)).remembers t = true ∨ ∃ body ∈ l.air x, isDelba t false body = true := by
  refine ((h.sound x t).remembered ha).imp id fun hends => ?_
  obtain ⟨body, hb, hreply⟩ := List.mem_filterMap.mp hends
  refine ⟨body, hb, ?_⟩
  unfold replyOf at hreply
  split at hreply
  · cases hreply
  split at hreply
  · cases hreply
  split at hreply
  · assumption
  · cases hreply

/-- **Who aggregates is not forgotten.** Whatever the order in which requests, responses and DELBAs are sent,
received and lost, and whatever either station accepts meanwhile: while a station aggregates towards the other
with a TID, the other has an `ampdu_size` for it, or is about to put one back, or has a DELBA on its way. -/
theorem aggregation_remembered {conf : Bool → BaConf} (hup : ∀ x, (conf x).Up) {s : Bool → BaSide}
    (hs : BaFresh s) {l : BaLink} (h : Reach (baLinkStep conf) BaOk { side := s } l) {x : Bool} {t : Fin 8}
    (ha : (l.side x).aggEnableBitmap.getLsbD t = true) :
    ((l.side (!x)).recvreorderCtrl (lowTid t)).ampduSize ≠ rxAmpduSizeInvalid ∨
      (∃ w ∈ (l.side (!x)).waiting (lowTid t), w.2 = false) ∨
      ∃ body ∈ l.air x, isDelba t false body = true := by
  rcases (baLink_reach hup hs h).known ha with hrem | hdelba
  · rcases Bool.or_eq_true_iff.mp hrem with hsize | hwait
    · exact Or.inl (bne_iff_ne.mp hsize)
    · obtain ⟨w, hw, hnot⟩ := List.any_eq_true.mp hwait
      exact Or.inr (Or.inl ⟨w, hw, by simpa using hnot⟩)
  · exact Or.inr (Or.inr hdelba)

/-- `false` asks for TID 5 and is answered. -/
def sampleAddba : List (Bool × BaLinkEvent) :=
  [(false, .xmit 5 100), (false, .addBaCmd), (true, .deliver), (false, .deliver)]

theorem sampleAddba_ok (conf : Bool → BaConf) (l : BaLink) : RunOk (baLinkStep conf) BaOk l sampleAddba :=
  ⟨trivial, fun _ _ => ⟨trivial, fun _ _ => ⟨trivial, fun _ _ => ⟨trivial, fun _ _ => trivial⟩⟩⟩⟩

instance (l : BaLink) : ∀ e, Decidable (BaOk l e)
  | (x, .lose i) =>
    inferInstanceAs (Decidable (∀ body ∈ (l.air x)[i]?, ∀ t, isDelba t false body = false))
  | (x, .sendDelba true tid _ _) => inferInstanceAs (Decidable (∀ t, lowTid t = tid →
      (∀ body ∈ l.air (!x), isAddbaReq t body = false) ∧ (∀ body ∈ l.air x, isAddbaResp t true body = false)))
  | (_, .sendDelba false _ _ _) => .isTrue trivial
  | (_, .xmit _ _) => .isTrue trivial
  | (_, .addBaCmd) => .isTrue trivial
  | (_, .timer) => .isTrue trivial
  | (_, .data _) => .isTrue trivial
  | (_, .aliveChk _) => .isTrue trivial
  | (_, .deliver) => .isTrue trivial
  | (_, .setRxAmpdu _ _) => .isTrue trivial
  | (_, .apply _ _ _ _) => .isTrue trivial
  | (_, .delbaDone _ _) => .isTrue trivial

/-- The first request is lost, the second one is answered; the originator tears down and asks once more, and
the recipient tears that down. -/
def sampleAddbaRun : List (Bool × BaLinkEvent) :=
  [(false, .xmit 5 100), (false, .addBaCmd), (true, .lose 0), (false, .timer)] ++ sampleAddba ++
    [(false, .sendDelba true (lowTid 5) false false), (true, .deliver)] ++ sampleAddba ++
    [(true, .sendDelba false (lowTid 5) false false)]

/-- In the end the originator still aggregates, and all that is left of it is the DELBA on its way. -/
theorem aggregation_remembered_sample : ∃ l : BaLink,
    runActions (baLinkStep fun _ => {}) { side := fun _ => {} } sampleAddbaRun = .done l ∧
      (l.side false).aggEnableBitmap.getLsbD (5 : Fin 8) = true ∧
      ((l.side true).recvreorderCtrl (lowTid 5)).ampduSize = rxAmpduSizeInvalid ∧
      (((l.side true).recvreorderCtrl (lowTid 5)).ampduSize ≠ rxAmpduSizeInvalid ∨
        (∃ w ∈ (l.side true).waiting (lowTid 5), w.2 = false) ∨
        ∃ body ∈ l.air false, isDelba 5 false body = true) := by
  have hview : (runActions (baLinkStep fun _ => {}) { side := fun _ => {} } sampleAddbaRun).view
      (fun l => ((l.side false).aggEnableBitmap.getLsbD (5 : Fin 8),
        ((l.side true).recvreorderCtrl (lowTid 5)).ampduSize)) = some (true, 0xff) := by decide +kernel
  have hok : RunOk (baLinkStep fun _ => {}) BaOk { side := fun _ => {} } sampleAddbaRun := by decide +kernel
  obtain ⟨l, hrun, hl⟩ := Outcome.of_view hview
  obtain ⟨hagg, hsize⟩ := Prod.mk.inj hl
  exact ⟨l, hrun, hagg, hsize, aggregation_remembered (x := false) (fun _ => ⟨rfl, rfl⟩)
    (fun _ => ⟨rfl, fun _ => rfl⟩) (reach_runActions .start hok hrun) hagg⟩

/-- Without the condition on the originator it is forgotten: a request is sent again after the timer, and the
agreement torn down between the two responses. -/
example : (runActions (baLinkStep fun _ => {}) {}
    [(false, .xmit 5 100), (false, .addBaCmd), (false, .timer), (false, .xmit 5 100), (false, .addBaCmd),
      (true, .deliver), (true, .deliver), (false, .deliver), (false, .sendDelba true (lowTid 5) false false),
      (true, .deliver), (false, .deliver)]).view
    (fun l => ((l.side false).aggEnableBitmap.getLsbD (5 : Fin 8),
      ((l.side true).recvreorderCtrl (lowTid 5)).ampduSize, l.air false)) = some (true, 0xff, []) := by decide

/-- **What is not accepted is torn down.** When `rx_ampdu_apply_sta_tid` is told not to accept, and its DELBA
is acknowledged, then a station that still aggregates has a DELBA on its way. -/
theorem apply_tears_down {conf : Bool → BaConf} (hup : ∀ x, (conf x).Up) {s : Bool → BaSide}
    (hs : BaFresh s) {l l' : BaLink} (h : Reach (baLinkStep conf) BaOk { side := s } l) {x : Bool} {t : Fin 8}
    (hwait : ∀ w ∈ (l.side (!x)).waiting (lowTid t), w.2 = true) {size : UInt8} {tries : List TxTry}
    (hacked : (issueDelBaEx (issueDelBa (lowTid t) 37 false) 3 tries).2 = true)
    (hstep : baLinkStep conf l (!x, .apply (lowTid t) false size (some tries)) = .done l')
    (ha : (l'.side x).aggEnableBitmap.getLsbD t = true) : ∃ body ∈ l'.air x, isDelba t false body = true := by
  have hl := baLink_reach hup hs h
  have hl' := baLink_reach hup hs (h.next (a := (!x, .apply (lowTid t) false size (some tries))) trivial hstep)
  refine (hl'.known ha).resolve_left fun hrem => ?_
  cases hstep
  rw [BaLink.put_side, Function.update_self, BaSide.forgets_apply hwait hacked] at hrem
  cases hrem

/-- The other does not accept any more. Of three tries of its DELBA the second gets there and the third is
acknowledged. -/
theorem apply_tears_down_sample : ∃ l l' : BaLink,
    runActions (baLinkStep fun _ => {}) { side := fun _ => {} } sampleAddba = .done l ∧
      baLinkStep (fun _ => {}) l (true, .apply (lowTid 5) false 64
        (some [⟨false, false, nofun⟩, ⟨true, false, nofun⟩, ⟨true, true, fun _ => rfl⟩])) = .done l' ∧
      (l'.side false).aggEnableBitmap.getLsbD (5 : Fin 8) = true ∧
      ∃ body ∈ l'.air false, isDelba 5 false body = true := by
  have hview : (runActions (baLinkStep fun _ => {}) { side := fun _ => {} } sampleAddba).view
      (fun l => ((l.side false).aggEnableBitmap.getLsbD (5 : Fin 8), (l.side true).waiting (lowTid 5)))
      = some (true, []) := by decide
  obtain ⟨l, hrun, hl⟩ := Outcome.of_view hview
  obtain ⟨hagg, hwait⟩ := Prod.mk.inj hl
  have hreach := reach_runActions .start (sampleAddba_ok _ _) hrun
  refine ⟨l, _, hrun, rfl, hagg, apply_tears_down (x := false) (fun _ => ⟨rfl, rfl⟩)
    (fun _ => ⟨rfl, fun _ => rfl⟩) hreach (fun w hw => ?_) (by decide) rfl hagg⟩
  have hnone : w ∈ (l.side true).waiting (lowTid 5) := hw
  rw [hwait] at hnone
  exact absurd hnone List.not_mem_nil

end Rtl8812au

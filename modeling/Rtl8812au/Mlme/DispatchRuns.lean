import Rtl8812au.Ap.SharedKeyProof
import Rtl8812au.Mlme.DispatchProof

/-!
# Who is ever associated

Behind the dispatcher a station only ever gets past its authentication by an association request that is read
as an authentication frame, and an access point never gets a station into `asoc_list` at all. Both are runs of
the handlers alone, `clientStep` and `apStep`, that lack the events the dispatcher does not make.
-/

namespace Rtl8812au

/-! ## A station -/

namespace Station

variable {s s' : Station} {e : StationEvent} {es : List StationEvent} {me : MacAddr}

/-- What a run of a station needs is what the handlers need: of the commands and the timer. -/
def ok (s : Station) : StationEvent → Prop
  | .join net tooLong => Client.ok s.client (.join net tooLong)
  | .createBss env net => Client.ok s.client (.createBss env net)
  | .setopmode mode => Client.ok s.client (.setopmode mode)
  | .linkTimer => Client.ok s.client .linkTimer
  | _ => True

instance (s : Station) : ∀ e, Decidable (ok s e)
  | .join net tooLong => inferInstanceAs (Decidable (Client.ok s.client (.join net tooLong)))
  | .createBss env net => inferInstanceAs (Decidable (Client.ok s.client (.createBss env net)))
  | .setopmode mode => inferInstanceAs (Decidable (Client.ok s.client (.setopmode mode)))
  | .linkTimer => inferInstanceAs (Decidable (Client.ok s.client .linkTimer))
  | .air _ _ _ => .isTrue trivial
  | .alloc _ => .isTrue trivial
  | .free _ => .isTrue trivial
  | .staAdd _ => .isTrue trivial
  | .disconnect => .isTrue trivial
  | .stopApMode => .isTrue trivial
  | .setauth _ => .isTrue trivial
  | .linkLost _ _ => .isTrue trivial

/-- Nothing is asked of a frame. -/
theorem ok_of_clientEvent {ap : Bool} {env : Client.BeaconEnv} {f : RecvFrame} {call : MgtCall}
    {ce : ClientEvent} (h : call.clientEvent ap env f = some ce) (c : Client) : Client.ok c ce := by
  rcases call with x | _
  · cases ap <;> cases x <;> cases h <;> trivial
  · cases h

theorem runOk_events (h : s.ok e) : RunOk clientStep Client.ok s.client (s.events e).2 := by
  cases e with
  | air ap env f =>
      refine RunOk.of_all fun ce hce => ?_
      obtain ⟨call, -, hcall⟩ := List.mem_filterMap.mp hce
      exact ok_of_clientEvent hcall
  | alloc addr => trivial
  | free addr => trivial
  | join net tooLong => exact ⟨h, fun _ _ => trivial⟩
  | createBss env net => exact ⟨h, fun _ _ => trivial⟩
  | staAdd beaconSent => exact ⟨trivial, fun _ _ => trivial⟩
  | disconnect => exact ⟨trivial, fun _ _ => trivial⟩
  | setopmode mode => exact ⟨h, fun _ _ => trivial⟩
  | stopApMode => exact ⟨trivial, fun _ _ => trivial⟩
  | setauth mode => exact ⟨trivial, fun _ _ => trivial⟩
  | linkTimer => exact ⟨h, fun _ _ => trivial⟩
  | linkLost macAddr reason => exact ⟨trivial, fun _ _ => trivial⟩

/-- An association request that the dispatcher of a station takes, read as an authentication frame. -/
def AssocReqHeard (me : MacAddr) (f : RecvFrame) (es : List StationEvent) : Prop :=
  (∃ env, .air false env f ∈ es) ∧ MgtAddressed me f
    ∧ (Wifi.getFrameSubType f.buf f.rxData = wifiAssocReq ∨ Wifi.getFrameSubType f.buf f.rxData = wifiReassocReq)

theorem onAuthClient_mem {ap : Bool} {subtype : Nat} (hsub : subtype = (subtype >>> 4) * 16)
    (hlt : subtype >>> 4 < mlmeStaTbl.length) (h : .func .onAuthClient ∈ mgtHandlers ap subtype) :
    ap = false ∧ (subtype = wifiAssocReq ∨ subtype = wifiReassocReq) := by
  have hall : ∀ ap, ∀ i < mlmeStaTbl.length, .func .onAuthClient ∈ mgtHandlers ap (i * 16) →
      ap = false ∧ (i * 16 = wifiAssocReq ∨ i * 16 = wifiReassocReq) := by decide
  rw [hsub] at h ⊢
  exact hall _ _ hlt h

/-- **Only an association request makes an `OnAuthClient`.** -/
theorem auth_of_events (htable : TableKept s.dispatcher.table) {f : RecvFrame}
    (h : .auth f ∈ (s.events e).2) : AssocReqHeard s.client.myid f [e] := by
  cases e with
  | air ap env g =>
      obtain ⟨call, hmem, hcall⟩ := List.mem_filterMap.mp h
      have hfunc : call = .func .onAuthClient ∧ g = f := by
        rcases call with x | _
        · cases ap <;> cases x <;> cases hcall
          · exact ⟨rfl, rfl⟩
          · exact ⟨rfl, rfl⟩
        · cases hcall
      obtain ⟨rfl, rfl⟩ := hfunc
      by_cases hg : MgtAddressed s.client.myid g
      · rw [MgtDispatcher.dispatch_calls htable hg] at hmem
        split at hmem
        · cases hmem
        · obtain ⟨rfl, hsub⟩ := onAuthClient_mem (mgt_subtype hg.1) hg.2.2 hmem
          exact ⟨⟨env, List.mem_singleton.mpr rfl⟩, hg, hsub⟩
      · rw [MgtDispatcher.dispatch_ignored htable.length hg] at hmem
        cases hmem
  | _ => simp [Station.events] at h

theorem events_tableKept (h : TableKept s.dispatcher.table) : TableKept (s.events e).1.table := by
  cases e with
  | air ap env f => exact MgtDispatcher.dispatch_tableKept h
  | _ => exact h

/-- **A station's run is a run of the handlers**, with `OnAuthClient` for association requests only. -/
structure Simulated (me : MacAddr) (es : List StationEvent) (s : Station) (ces : List ClientEvent) : Prop where
  table : TableKept s.dispatcher.table
  myid : s.client.myid = me
  run : Traced clientStep Client.ok (.start me) ces s.client
  auth : ∀ f, .auth f ∈ ces → AssocReqHeard me f es

theorem simulated_step {ces : List ClientEvent} (h : Simulated me es s ces) (hok : s.ok e)
    (hstep : stationStep s e = .done s') : Simulated me (es ++ [e]) s' (ces ++ (s.events e).2) := by
  obtain ⟨c, hc, hs⟩ := Outcome.bind_eq_done.mp hstep
  cases hs
  have hrun := h.run.append (runOk_events hok) hc
  obtain ⟨p, hclient⟩ := Client.clientRun_history hrun
  refine ⟨events_tableKept h.table, hclient.myid, hrun, fun f hf => ?_⟩
  rcases List.mem_append.mp hf with hf | hf
  · obtain ⟨⟨env, hair⟩, hrest⟩ := h.auth f hf
    exact ⟨⟨env, List.mem_append_left _ hair⟩, hrest⟩
  · obtain ⟨⟨env, hair⟩, hrest⟩ := auth_of_events h.table hf
    exact ⟨⟨env, List.mem_append_right _ hair⟩, h.myid ▸ hrest⟩

theorem simulated_history (h : Traced stationStep ok { client := .start me } es s) :
    ∃ ces, Simulated me es s ces := by
  have hstart : Simulated me [] { client := .start me } [] :=
    ⟨tableKept_start, rfl, .start, fun f hf => absurd hf List.not_mem_nil⟩
  refine h.invariant (fun es s => ∃ ces, Simulated me es s ces) ⟨[], hstart⟩ ?_
  rintro es e s s' ⟨ces, hsim⟩ hok hstep
  exact ⟨_, simulated_step hsim hok hstep⟩

end Station

/-- An ad hoc network is made and left for an access point, which answers in the dispatcher's way: with a
request for its authentication. -/
def sampleStationRun (me b : MacAddr) : List StationEvent :=
  [.createBss {} (sampleIbss me),
    .disconnect,
    .setopmode .infrastructure,
    .join (sampleNetwork b) false,
    .air false {} (sampleMgntFrame 0x80 .bcast b []),
    .air false {} (sampleMgntFrame 0xb0 me b [0, 0, 2, 0, 0, 0]),
    .linkTimer,
    .air false {} (sampleMgntFrame 0x00 me b [0, 0, 2, 0, 0, 0]),
    .air false {} (sampleMgntFrame 0x10 me b [1, 0, 0, 0, 5, 192])]

/-- Nobody is associated. -/
structure NobodyIn (a : Ap) : Prop where
  auth : a.authList.Nodup
  asocList : a.asocList = []
  asocListCnt : a.asocListCnt = 0

namespace NobodyIn

variable {a a' : Ap} {s : StaSlot}

theorem once (h : NobodyIn a) : ListsOnce a := ⟨h.auth, h.asocList ▸ List.nodup_nil⟩

theorem offAuth (h : NobodyIn a) (s : StaSlot) : NobodyIn (a.offAuth s) := by
  refine ⟨(h.once.offAuth s).auth, (offAuth_rest a s).2.2.2.2.trans h.asocList, ?_⟩
  unfold Ap.offAuth
  split <;> exact h.asocListCnt

theorem ontoAuth (h : NobodyIn a) (s : StaSlot) : NobodyIn (a.ontoAuth s) := by
  refine ⟨(h.once.ontoAuth s).auth, (ontoAuth_rest a s).2.2.2.2.trans h.asocList, ?_⟩
  unfold Ap.ontoAuth
  split <;> exact h.asocListCnt

theorem freeSta (h : NobodyIn a) (s : StaSlot) : NobodyIn (a.freeSta s) :=
  ⟨(h.offAuth s).auth, (h.offAuth s).asocList, (h.offAuth s).asocListCnt⟩

/-- **Every event but an `OnAssocReq` and an `OnAuth`.** -/
theorem passive : Passive NobodyIn where
  nodup := fun h => ⟨h.once.auth, h.once.asoc⟩
  priv := fun h _ => ⟨h.auth, h.asocList, h.asocListCnt⟩
  tries := fun _ h => ⟨h.auth, h.asocList, h.asocListCnt⟩
  leave := fun h hs => by
    rw [h.asocList] at hs
    cases hs
  expire := fun {_ s} h _ => (h.offAuth s).freeSta s

/-- **`OnAuth`** lets nobody in. -/
theorem onAuth {f : RecvFrame} (h : NobodyIn a) (hdone : Rtl8812au.onAuth a f = .done a') : NobodyIn a' := by
  rcases onAuth_cases hdone with rfl | ⟨d, off, s, b, -, -, -, hsta, rfl⟩
  · exact h
  · have hb : NobodyIn b := by
      rcases authStation_cases hsta with ⟨-, rfl⟩ | halloc
      · have hnot : s ∉ a.asocList := by
          rw [h.asocList]
          exact List.not_mem_nil
        unfold Ap.offAsoc
        rw [if_neg hnot]
        exact h
      · obtain ⟨-, hauth, hasoc, -⟩ := allocSta_new halloc
        refine ⟨hauth ▸ h.auth, hasoc.trans h.asocList, ?_⟩
        unfold Ap.allocSta at halloc
        obtain ⟨r, -, hr⟩ := Option.map_eq_some_iff.mp halloc
        cases hr
        exact h.asocListCnt
    have hwait : NobodyIn (authWait b s) := by
      unfold authWait
      dsimp only
      split
      · exact ⟨(hb.ontoAuth s).auth, (hb.ontoAuth s).asocList, (hb.ontoAuth s).asocListCnt⟩
      · exact hb.ontoAuth s
    generalize authEnd _ _ _ _ _ _ = x
    cases x with
    | fail => exact hwait.freeSta s
    | opened => exact ⟨hwait.auth, hwait.asocList, hwait.asocListCnt⟩
    | challenged => exact ⟨hwait.auth, hwait.asocList, hwait.asocListCnt⟩
    | proven => exact ⟨hwait.auth, hwait.asocList, hwait.asocListCnt⟩

/-- A run of the handlers without an `OnAssocReq`. -/
theorem runEvents {evs : List ApEvent} (h : NobodyIn a) (hreq : ∀ f, .assocReq f ∉ evs)
    (hrun : runActions apStep a evs = .done a') : NobodyIn a' := by
  have hok : RunOk apStep (fun _ ev => ∀ f, ev ≠ .assocReq f) a evs :=
    RunOk.of_all fun ev hev _ f heq => hreq f (heq ▸ hev)
  refine (reach_runActions .start hok hrun).invariant NobodyIn h fun {_ _ ev} h hev hstep => ?_
  refine passive.apStep h hstep (fun f _ hauth => h.onAuth hauth) fun f hf _ => ?_
  exact absurd hf (hev f)

end NobodyIn

namespace ApAir

variable {a a' : ApAir} {e : ApAirEvent}

/-- The dispatcher makes no `OnAssocReq`. -/
theorem assocReq_not_mem (h : TableKept a.dispatcher.table) (f : RecvFrame) : .assocReq f ∉ (a.events e).2 := by
  intro hmem
  cases e with
  | air g =>
      obtain ⟨call, hcall, hev⟩ := List.mem_filterMap.mp hmem
      have hfunc : call = .func .onAssocReq := by
        rcases call with x | _
        · cases x <;> cases hev
          rfl
        · cases hev
      subst hfunc
      by_cases hg : MgtAddressed a.me g
      · rw [MgtDispatcher.dispatch_calls h hg] at hcall
        split at hcall
        · cases hcall
        · exact onAssocReq_not_mem_mgtHandlers (mgt_subtype hg.1) hg.2.2 hcall
      · rw [MgtDispatcher.dispatch_ignored h.length hg] at hcall
        cases hcall
  | _ => simp [ApAir.events] at hmem

theorem events_tableKept (h : TableKept a.dispatcher.table) : TableKept (a.events e).1.table := by
  cases e with
  | air f => exact MgtDispatcher.dispatch_tableKept h
  | _ => exact h

end ApAir

/-- **No station is ever associated** at an access point, whatever it is sent. -/
theorem ap_never_associates {me : MacAddr} {conf : ApConf} {hiq : HiqFilter} {expireTo maxNumSta : Nat} {b : Bss}
    {a : ApAir} (h : Reach apAirStep (fun _ _ => True)
      { me := me, ap := startAp conf hiq expireTo maxNumSta b } a) :
    a.ap.asocList = [] ∧ a.ap.asocListCnt = 0 := by
  have hinv : TableKept a.dispatcher.table ∧ NobodyIn a.ap := by
    refine h.invariant (fun a => TableKept a.dispatcher.table ∧ NobodyIn a.ap)
      ⟨tableKept_start, List.nodup_nil, rfl, rfl⟩ ?_
    rintro a a' e ⟨htable, hnobody⟩ - hstep
    obtain ⟨ap, hap, ha⟩ := Outcome.bind_eq_done.mp hstep
    cases ha
    exact ⟨ApAir.events_tableKept htable, hnobody.runEvents (ApAir.assocReq_not_mem htable) hap⟩
  exact ⟨hinv.2.asocList, hinv.2.asocListCnt⟩

/-- A station authenticates and asks. -/
def sampleApAirRun (me sta : MacAddr) : List ApAirEvent :=
  [.air (sampleMgntFrame 0xb0 me sta [0, 0, 1, 0, 0, 0]), .air (sampleMgntFrame 0x00 me sta [0, 0, 1, 0, 0, 0])]

theorem ap_never_associates_sample : ∃ a : ApAir,
    runActions apAirStep { me := ⟨2, 0, 0, 0, 0, 1⟩, ap := startAp {} .allowAll 3 2 {} }
      (sampleApAirRun ⟨2, 0, 0, 0, 0, 1⟩ ⟨2, 0, 0, 0, 0, 9⟩) = .done a
      ∧ a.ap.asocList = [] ∧ a.ap.asocListCnt = 0 := by
  have hview : (runActions apAirStep { me := ⟨2, 0, 0, 0, 0, 1⟩, ap := startAp {} .allowAll 3 2 {} }
      (sampleApAirRun ⟨2, 0, 0, 0, 0, 1⟩ ⟨2, 0, 0, 0, 0, 9⟩)).view (fun a => a.ap.authList.length) = some 1 := by
    decide
  obtain ⟨a, hrun, -⟩ := Outcome.of_view hview
  exact ⟨a, hrun, ap_never_associates (reach_runActions .start (RunOk.of_all fun _ _ _ => trivial) hrun)⟩

end Rtl8812au

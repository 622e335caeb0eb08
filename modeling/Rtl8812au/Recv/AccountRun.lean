import Rtl8812au.Recv.AccountProof
import Rtl8812au.Recv.Turns

/-!
# Runs of the receive path

Packets from the device, reorder timers, and stations that come and go, in any order. What
`recv_func` does with a packet is cut into turns, one for each call of `recv_func_prehandle`
or `recv_func_posthandle`, so that a frame that is about to be handled is seen in the state
it is handled in. A whole call is a number of turns (`recvbuf2recvframe_turns`).

A run that stays off four paths keeps every frame of the pool in exactly one place: a
management frame that `recvframe_chk_defrag` frees, a reassembled MSDU that indication does
not take, a data frame in MP mode, and a station slot that is given out with frames still in
its queues.
-/

namespace Rtl8812au

open Pool

/-! ## Validation -/

section

variable {a a' : Adapter} {f g : RecvFrame} {hand : List Nat}

theorem contents_updRxseq (a : Adapter) (s : StaSlot) (t : Nat → Nat) :
    (a.updSta s fun x => { x with tidRxseq := t }).contents = a.contents := by
  funext p
  unfold Adapter.updSta
  cases p with
  | free => rfl
  | swdec => rfl
  | defrag s' => simp only [Adapter.contents]; split <;> rfl
  | pending s' t' => simp only [Adapter.contents]; split <;> rfl

/-- A data frame stays with the caller of `validate_recv_data_frame`. -/
theorem accounted_validateData {ret : RxRet} (h : Accounted hand a)
    (hd : validateRecvDataFrame a f = (ret, a', g)) :
    Accounted hand a' ∧ g.id = f.id ∧ a'.running = a.running := by
  have hsame := (dsDataFrame_same a f).1
  unfold validateRecvDataFrame at hd
  rcases hds : dsDataFrame a f with ⟨r, k, psta⟩
  rw [hds] at hd hsame
  have hk : k.id = f.id := by
    dsimp only at hsame
    rw [hsame]
  cases r with
  | fail =>
      cases psta
      all_goals
        obtain ⟨-, rfl, rfl⟩ := hd
        exact ⟨h, hk, rfl⟩
  | handled =>
      cases psta
      all_goals
        obtain ⟨-, rfl, rfl⟩ := hd
        exact ⟨h, hk, rfl⟩
  | success =>
      cases psta with
      | none =>
          obtain ⟨-, rfl, rfl⟩ := hd
          exact ⟨h, hk, rfl⟩
      | some s =>
          have hq : (parseQos { k with psta := some s }).id = f.id := by
            rw [parseQos_same]
            exact hk
          dsimp only at hd
          split at hd
          · obtain ⟨-, rfl, rfl⟩ := hd
            exact ⟨h, hq, rfl⟩
          · obtain ⟨-, rfl, rfl⟩ := hd
            exact ⟨h.congr (contents_updRxseq a s _) rfl, hq, rfl⟩

/-- A frame that is not freed stays where it is. -/
theorem mem_freeQueue {i : Nat} {p : Place} (hp : p ≠ .free) : ∀ (q : List RecvFrame) {a : Adapter},
    i ∈ a.contents p → i ∉ q.map (·.id) → i ∈ (rtwFreeRecvframeQueue a q).contents p
  | [], _, h, _ => h
  | g :: q, a, h, hq => by
      unfold rtwFreeRecvframeQueue
      rw [List.foldl_cons]
      rw [List.map_cons, List.mem_cons, not_or] at hq
      refine mem_freeQueue hp q ?_ hq.2
      rw [contents_free, Function.update_of_ne hp, contents_unlink]
      exact List.mem_filter.mpr ⟨h, bne_iff_ne.mpr hq.1⟩

/-- A fragment with more to come ends up in the queue. -/
theorem chkDefragIn_more {s : StaSlot} {r : Option RecvFrame} (hm : f.attrib.mfrag = true)
    (h : Accounted (f.id :: hand) a) (hd : chkDefragIn a (some s) f = .done (a', r)) :
    r = none ∧ f.id ∈ a'.contents (.defrag s) := by
  have hnot : f.id ∉ (a.sta s).defragQ.map (·.id) :=
    h.placed.notMem (List.mem_cons_self ..) (.defrag s)
  have hmem : ∀ q' : List RecvFrame, f ∈ q' →
      f.id ∈ (a.updSta s fun x => { x with defragQ := q' }).contents (.defrag s) := by
    intro q' hq'
    rw [contents_updSta_defrag, Function.update_self]
    exact List.mem_map_of_mem hq'
  unfold chkDefragIn chkDefragQueue at hd
  simp only [Option.map_some, hm, Bool.not_true, Bool.false_and, Bool.false_eq_true, if_false,
    if_true] at hd
  split at hd
  · obtain ⟨rfl, rfl⟩ := Prod.mk.inj (Outcome.done.inj hd)
    exact ⟨rfl, mem_freeQueue (by simp) _ (hmem _ (List.mem_singleton_self f)) hnot⟩
  · obtain ⟨rfl, rfl⟩ := Prod.mk.inj (Outcome.done.inj hd)
    exact ⟨rfl, mem_freeQueue (by simp) _ (hmem _ (by simp)) (by simp)⟩

theorem updSta_defrag_self (a : Adapter) (s : StaSlot) :
    (a.updSta s fun x => { x with defragQ := (a.sta s).defragQ }) = a := by
  have hsta : (fun k => if k = s then { a.sta k with defragQ := (a.sta s).defragQ } else a.sta k)
      = a.sta := by
    funext k
    split
    · rename_i hk
      subst hk
      rfl
    · rfl
  unfold Adapter.updSta
  rw [hsta]

/-- What is no fragment goes straight to the MIC check. -/
theorem chkDefragIn_whole (slot : Option StaSlot) (hm : f.attrib.mfrag = false)
    (h0 : f.attrib.fragNum = 0) : chkDefragIn a slot f = chkDefragMic a (some f) := by
  have hwhole : (!f.attrib.mfrag && f.attrib.fragNum == 0) = true := by simp [hm, h0]
  unfold chkDefragIn chkDefragQueue
  simp only [hwhole, if_true, List.all_nil]
  cases slot with
  | none => rfl
  | some s =>
      show chkDefragMic (a.updSta s fun x => { x with defragQ := (a.sta s).defragQ }) _ = _
      rw [updSta_defrag_self]

/-- A management frame that can be freed after it went through `recvframe_chk_defrag`: it
is not the last of several fragments, and its MIC is right if it has one. -/
structure MgntOk (a : Adapter) (f : RecvFrame) : Prop where
  notLast : isLastFragment f = false
  micRight : f.attrib.mfrag = false → f.attrib.privacy = true → TkipMicRight a f

instance (a : Adapter) (f : RecvFrame) : Decidable (MgntOk a f) :=
  decidable_of_iff (_ ∧ _) ⟨fun h => ⟨h.1, h.2⟩, fun h => ⟨h.notLast, h.micRight⟩⟩

/-- **A management frame is freed once.** A fragment that was queued is taken off its
queue again. -/
theorem accounted_mgnt (hok : MgntOk a f) (ht : Wifi.getFrameType f.buf f.rxData ≠ .data)
    (h : Accounted (f.id :: hand) a) (hd : validateRecvMgntFrame a f = .done a') :
    Accounted hand (rtwFreeRecvframe a' f) := by
  unfold validateRecvMgntFrame at hd
  obtain ⟨⟨b, r⟩, hchk, hb⟩ := Outcome.bind_eq_done.mp hd
  obtain rfl := Outcome.done.inj hb
  have hacc := accounted_chkDefrag h hchk
  cases hm : f.attrib.mfrag with
  | true =>
      -- the queue is the one of a station, there is no other for a fragment
      have hslot : ∃ s, chkDefragIn a (some s) f = .done (b, r) := by
        unfold recvframeChkDefrag at hchk
        split at hchk
        · exact ⟨_, hchk⟩
        · rw [if_neg ht] at hchk
          split at hchk
          · exact ⟨_, hchk⟩
          · rw [hm] at hchk
            exact absurd hchk (by simp)
      obtain ⟨s, hs⟩ := hslot
      obtain ⟨rfl, hmem⟩ := chkDefragIn_more hm h hs
      exact accounted_freeQueued hacc hmem (by simp)
  | false =>
      have h0 : f.attrib.fragNum = 0 := by
        have hl := hok.notLast
        unfold isLastFragment at hl
        rw [hm] at hl
        simpa using hl
      obtain ⟨slot, hs⟩ := recvframeChkDefrag_slot hchk
      rw [chkDefragIn_whole slot hm h0] at hs
      unfold chkDefragMic at hs
      dsimp only at hs
      split at hs
      · obtain ⟨rfl, -⟩ := Prod.mk.inj (Outcome.done.inj hs)
        exact accounted_free h
      · rename_i hp
        obtain ⟨⟨g, ok⟩, hmic, hs⟩ := Outcome.bind_eq_done.mp hs
        cases ok with
        | true =>
            obtain ⟨rfl, -⟩ := Prod.mk.inj (Outcome.done.inj hs)
            exact accounted_free h
        | false =>
            have hright := tkipMicRight_of_chkmic hmic (hok.micRight hm (by simpa using hp))
            cases hright

theorem mgnt_running (hd : validateRecvMgntFrame a f = .done a') : a'.running = a.running := by
  unfold validateRecvMgntFrame at hd
  obtain ⟨⟨b, r⟩, hchk, hb⟩ := Outcome.bind_eq_done.mp hd
  obtain rfl := Outcome.done.inj hb
  exact (sameConfig_chkDefrag hchk).running

/-- **`validate_recv_frame` leaves the frame with its caller**, who frees it or goes on
with it. -/
theorem accounted_validate {ret : RxRet}
    (hok : Wifi.getFrameType f.buf f.rxData = .mgt → f.buf.le16 f.rxData &&& 3 = 0 →
      MgntOk a (readHeader f))
    (h : Accounted (f.id :: hand) a) (hd : validateRecvFrame a f = .done (ret, a', g)) :
    g.id = f.id ∧ a'.running = a.running
      ∧ (ret = .success → Accounted (g.id :: hand) a')
      ∧ (ret ≠ .success → Accounted hand (rtwFreeRecvframe a' g)) := by
  have hkeep : ∀ {x : RecvFrame}, x.id = f.id → Accounted (x.id :: hand) a := by
    intro x hx
    rw [hx]
    exact h
  unfold validateRecvFrame at hd
  split at hd
  · obtain ⟨rfl, rfl, rfl⟩ := Outcome.done.inj hd
    exact ⟨rfl, rfl, fun _ => h, fun _ => accounted_free h⟩
  · rename_i hver
    dsimp only at hd
    split at hd
    · rename_i ht
      obtain ⟨b, hm, hb⟩ := Outcome.bind_eq_done.mp hd
      obtain ⟨rfl, rfl, rfl⟩ := Outcome.done.inj hb
      have hmg := hok ht (by simpa using hver)
      have htype : Wifi.getFrameType (readHeader f).buf (readHeader f).rxData ≠ .data := by
        rw [ht]
        simp
      exact ⟨rfl, mgnt_running hm, fun hr => absurd hr (by simp),
        fun _ => accounted_mgnt hmg htype (hkeep rfl) hm⟩
    · obtain ⟨rfl, rfl, rfl⟩ := Outcome.done.inj hd
      exact ⟨rfl, rfl, fun _ => hkeep rfl, fun _ => accounted_free (hkeep rfl)⟩
    · obtain ⟨hacc, hid, hrun⟩ := accounted_validateData (hkeep rfl) (Outcome.done.inj hd)
      rw [hid]
      exact ⟨rfl, hrun, fun _ => hacc, fun _ => accounted_free (by rw [hid]; exact hacc)⟩
    · obtain ⟨rfl, rfl, rfl⟩ := Outcome.done.inj hd
      exact ⟨rfl, rfl, fun _ => hkeep rfl, fun _ => accounted_free (hkeep rfl)⟩

end

/-! ## The entry -/

/-- A frame that `recv_func_prehandle` can deal with: in MP mode not a data frame that is
indicated, otherwise no management frame that `recvframe_chk_defrag` frees. -/
def PreOk (a : Adapter) (f : RecvFrame) : Prop :=
  if a.mpMode || a.bRTWSmbCfg then
    ¬ (a.mlme.fwLinked = true ∧ a.rxBindicatePkt = true
      ∧ Wifi.getFrameType f.buf f.rxData = .data)
  else
    Wifi.getFrameType f.buf f.rxData = .mgt → f.buf.le16 f.rxData &&& 3 = 0 →
      MgntOk a (readHeader f)

instance (a : Adapter) (f : RecvFrame) : Decidable (PreOk a f) := by
  unfold PreOk
  infer_instance

section

variable {os : Os} {aes : AesKey → BlockMode.Block → BlockMode.Block}
variable {a a' : Adapter} {f g : RecvFrame} {hand : List Nat} {ret : RxRet}

theorem accounted_prehandle (hok : PreOk a f) (h : Accounted (f.id :: hand) a)
    (hd : recvFuncPrehandle os a f = .done (ret, a', g)) :
    a'.running = a.running ∧ (ret = .success → Accounted (g.id :: hand) a')
      ∧ (ret ≠ .success → Accounted hand a') := by
  unfold recvFuncPrehandle at hd
  unfold PreOk at hok
  split at hd
  · rename_i hmp
    rw [if_pos hmp] at hok
    have hno : ¬ (a.mlme.fwLinked && a.rxBindicatePkt
        && decide (Wifi.getFrameType f.buf f.rxData = .data)) = true := by
      intro hc
      simp only [Bool.and_eq_true, decide_eq_true_eq] at hc
      exact hok ⟨hc.1.1, hc.1.2, hc.2⟩
    obtain ⟨b, hm, hb⟩ := Outcome.bind_eq_done.mp hd
    obtain ⟨rfl, rfl, rfl⟩ := Outcome.done.inj hb
    unfold mpRecvFrame at hm
    rw [if_neg hno] at hm
    obtain rfl := Outcome.done.inj hm
    exact ⟨rfl, fun hr => absurd hr (by simp), fun _ => accounted_free h⟩
  · rename_i hmp
    rw [if_neg hmp] at hok
    obtain ⟨⟨r, b, k⟩, hv, hb⟩ := Outcome.bind_eq_done.mp hd
    obtain ⟨-, hrun, hgo, hfree⟩ := accounted_validate hok h hv
    dsimp only at hb
    split at hb
    · rename_i hr
      obtain ⟨rfl, rfl, rfl⟩ := Outcome.done.inj hb
      exact ⟨hrun, hgo, fun hne => absurd hr hne⟩
    · rename_i hr
      obtain ⟨rfl, rfl, rfl⟩ := Outcome.done.inj hb
      exact ⟨hrun, fun hs => absurd hs hr, fun _ => hfree hr⟩

theorem contents_withSwdec (a : Adapter) (q : List RecvFrame) :
    (withSwdec a q).contents = Function.update a.contents .swdec (q.map (·.id)) := by
  funext p
  cases p with
  | free => rw [Function.update_of_ne (by simp)]; rfl
  | swdec => rw [Function.update_self]; rfl
  | defrag s => rw [Function.update_of_ne (by simp)]; rfl
  | pending s t => rw [Function.update_of_ne (by simp)]; rfl

/-- Taking the head off `uc_swdec_pending_queue`. -/
theorem accounted_dequeue {k : RecvFrame} {q : List RecvFrame} (h : Accounted hand a)
    (hq : a.recvpriv.ucSwdecPendingQueue = k :: q) : Accounted (k.id :: hand) (withSwdec a q) := by
  refine ⟨?_, h.cnt⟩
  rw [contents_withSwdec]
  refine h.placed.exchange ?_
  have hc : a.contents .swdec = k.id :: q.map (·.id) := by
    show a.recvpriv.ucSwdecPendingQueue.map (·.id) = _
    rw [hq, List.map_cons]
  rw [hc]
  exact List.perm_middle

theorem accounted_enqueue (h : Accounted (f.id :: hand) a) : Accounted hand (enqueueUcSwdec a f) := by
  have hsame : (a.unlink f.id).contents = a.contents := by
    rw [contents_unlink]
    exact h.placed.unlink_hand (List.mem_cons_self ..)
  have hu : Accounted (f.id :: hand) (a.unlink f.id) := h.congr hsame rfl
  refine ⟨?_, hu.cnt⟩
  show Placed _ _ (withSwdec (a.unlink f.id)
    ((a.unlink f.id).recvpriv.ucSwdecPendingQueue ++ [f])).contents
  rw [contents_withSwdec]
  refine hu.placed.exchange ?_
  rw [List.map_append, List.map_singleton, List.cons_append, ← List.append_assoc]
  exact (List.perm_append_singleton _ _).symm

end

/-! ## Turns -/

/-- The turn stays off the paths that free a frame twice or forget one: the condition is on the
frame that is next and the state it is handled in. -/
def TurnOk (aes : AesKey → BlockMode.Block → BlockMode.Block) (a : Adapter) : RxWork → Prop
  | .drain (_ + 1) _ => ∀ g ∈ a.recvpriv.ucSwdecPendingQueue.head?,
    PostOk aes (withSwdec a a.recvpriv.ucSwdecPendingQueue.tail) g
  | .prehandle f => PreOk a f
  | .posthandle f => PostOk aes a f
  | _ => True

instance (aes : AesKey → BlockMode.Block → BlockMode.Block) (a : Adapter) :
    ∀ w, Decidable (TurnOk aes a w)
  | .idle => .isTrue trivial
  | .drain 0 _ => .isTrue trivial
  | .drain (_ + 1) _ => inferInstanceAs (Decidable (∀ g ∈ a.recvpriv.ucSwdecPendingQueue.head?,
      PostOk aes (withSwdec a a.recvpriv.ucSwdecPendingQueue.tail) g))
  | .prehandle f => inferInstanceAs (Decidable (PreOk a f))
  | .posthandle f => inferInstanceAs (Decidable (PostOk aes a f))

section

variable {os : Os} {aes : AesKey → BlockMode.Block → BlockMode.Block}
variable {a a' : Adapter} {f : RecvFrame} {hand : List Nat} {s : RxState}

/-- The second half of a turn: an accepted frame waits for its key, or is next. -/
theorem accounted_accepted {b : Adapter} {g : RecvFrame} (hg : Accounted [g.id] b)
    (hd : (if waitsForKey b g then
        match (enqueueUcSwdec b g).recvpriv.ucSwdecPendingQueue with
        | k :: q =>
          if (enqueueUcSwdec b g).recvpriv.freeRecvframeCnt < nrRecvframe / 4 then
            Outcome.done (⟨withSwdec (enqueueUcSwdec b g) q, .posthandle k⟩ : RxState)
          else .done { adapter := enqueueUcSwdec b g }
        | [] => .done { adapter := enqueueUcSwdec b g }
      else .done ⟨b, .posthandle g⟩) = .done s) : Accounted s.work.hand s.adapter := by
  split at hd
  · have he : Accounted [] (enqueueUcSwdec b g) := accounted_enqueue hg
    cases hq : (enqueueUcSwdec b g).recvpriv.ucSwdecPendingQueue with
    | nil =>
        rw [hq] at hd
        obtain rfl := Outcome.done.inj hd
        exact he
    | cons k q =>
        rw [hq] at hd
        dsimp only at hd
        split at hd
        · obtain rfl := Outcome.done.inj hd
          exact accounted_dequeue he hq
        · obtain rfl := Outcome.done.inj hd
          exact he
  · obtain rfl := Outcome.done.inj hd
    exact hg

/-- **A turn takes the frame in hand over.** -/
theorem accounted_turn {w : RxWork} (hr : a.running = true) (h : Accounted w.hand a)
    (hok : TurnOk aes a w) (hd : rxTurn aes os a w = .done s) :
    Accounted s.work.hand s.adapter := by
  cases w with
  | idle =>
      obtain rfl := Outcome.done.inj hd
      exact h
  | drain n f =>
      cases n with
      | zero =>
          obtain rfl := Outcome.done.inj hd
          exact h
      | succ n =>
          rw [rxTurn] at hd
          unfold TurnOk at hok
          cases hq : a.recvpriv.ucSwdecPendingQueue with
          | nil =>
              rw [hq] at hd
              obtain rfl := Outcome.done.inj hd
              exact h
          | cons g q =>
              rw [hq] at hd hok
              obtain ⟨⟨b, ret⟩, hpost, hb⟩ := Outcome.bind_eq_done.mp hd
              obtain rfl := Outcome.done.inj hb
              exact @accounted_posthandle os aes (withSwdec a q) b g [f.id] ret hr
                (accounted_dequeue h hq) (hok g rfl) hpost
  | prehandle f =>
      obtain ⟨⟨ret, b, g⟩, hpre, hd⟩ := Outcome.bind_eq_done.mp hd
      obtain ⟨-, hgo, hstop⟩ := @accounted_prehandle os a b f g [] ret hok h hpre
      dsimp only at hd
      split at hd
      · rename_i hne
        obtain rfl := Outcome.done.inj hd
        exact hstop hne
      · rename_i hsucc
        exact accounted_accepted (hgo (not_not.mp hsucc)) hd
  | posthandle f =>
      obtain ⟨⟨b, ret⟩, hpost, hb⟩ := Outcome.bind_eq_done.mp hd
      obtain rfl := Outcome.done.inj hb
      exact @accounted_posthandle os aes a b f [] ret hr h hok hpost

end

/-! ## Packets and stations -/

section

variable {os : Os} {aes : AesKey → BlockMode.Block → BlockMode.Block} {a a' : Adapter}
variable {hand : List Nat}

theorem accounted_alloc {id : Nat} (h : Accounted hand a) (hd : rtwAllocRecvframe a = some (id, a')) :
    Accounted (id :: hand) a' ∧ a'.running = a.running := by
  unfold rtwAllocRecvframe at hd
  cases hq : a.recvpriv.freeRecvQueue with
  | nil => rw [hq] at hd; exact absurd hd (by simp)
  | cons i q =>
      rw [hq] at hd
      obtain ⟨rfl, rfl⟩ := Prod.mk.inj (Option.some.inj hd)
      refine ⟨⟨?_, ?_⟩, rfl⟩
      · have hc : Adapter.contents { a with recvpriv := { a.recvpriv with
            freeRecvQueue := q, freeRecvframeCnt := a.recvpriv.freeRecvframeCnt - 1 } }
            = Function.update a.contents .free q := by
          funext p
          cases p with
          | free => rw [Function.update_self]; rfl
          | swdec => rw [Function.update_of_ne (by simp)]; rfl
          | defrag s => rw [Function.update_of_ne (by simp)]; rfl
          | pending s t => rw [Function.update_of_ne (by simp)]; rfl
        rw [hc]
        refine h.placed.exchange ?_
        have hfree : a.contents .free = i :: q := hq
        rw [hfree]
        exact List.perm_middle
      · have hcnt := h.cnt
        rw [hq, List.length_cons] at hcnt
        show a.recvpriv.freeRecvframeCnt - 1 = q.length
        omega

theorem osAlloc_id {skb : Option Nat} {cloneOk : Bool} {urb : Mem} {pdata : Nat} {f g : RecvFrame}
    {ok : Bool} (h : rtwOsAllocRecvframe skb cloneOk urb pdata f = (g, ok)) : g.id = f.id := by
  unfold rtwOsAllocRecvframe at h
  cases skb with
  | some addr => rw [← (Prod.mk.inj h).1]
  | none =>
      dsimp only at h
      split_ifs at h
      all_goals rw [← (Prod.mk.inj h).1]

theorem accounted_recvFuncStart {f : RecvFrame} {s : RxState} (h : Accounted [f.id] a)
    (hd : recvFuncStart a f = .done s) : Accounted s.work.hand s.adapter := by
  unfold recvFuncStart at hd
  split at hd
  · obtain ⟨b, hm, hb⟩ := Outcome.bind_eq_done.mp hd
    obtain rfl := Outcome.done.inj hb
    unfold recvFrameMonitor at hm
    split at hm
    · obtain rfl := Outcome.done.inj hm
      exact accounted_free h
    · cases hm
  · split at hd
    · obtain rfl := Outcome.done.inj hd
      exact h
    · obtain rfl := Outcome.done.inj hd
      exact h

/-- **A packet gets a frame of the pool**, which is in hand or free again. -/
theorem accounted_packet {x : RxPacket} {s : RxState} (h : Accounted [] a)
    (hd : rxPacket a x = .done s) : Accounted s.work.hand s.adapter := by
  unfold rxPacket at hd
  cases halloc : rtwAllocRecvframe a with
  | none =>
      rw [halloc] at hd
      obtain rfl := Outcome.done.inj hd
      exact h
  | some y =>
      obtain ⟨id, b⟩ := y
      rw [halloc] at hd
      obtain ⟨hb, -⟩ := accounted_alloc h halloc
      have hfree : ∀ g : RecvFrame, g.id = id → Accounted [] (rtwFreeRecvframe b g) := by
        intro g hg
        refine accounted_free ?_
        rw [hg]
        exact hb
      dsimp only at hd
      split at hd
      · obtain rfl := Outcome.done.inj hd
        exact hfree _ rfl
      · split at hd
        · obtain rfl := Outcome.done.inj hd
          exact hfree _ rfl
        · split at hd
          · rename_i g hos
            obtain rfl := Outcome.done.inj hd
            exact hfree g (osAlloc_id hos)
          · rename_i g hos
            have hid : (g.put x.attrib.pktLen).1.id = id :=
              (RecvFrame.put_id g _).trans (osAlloc_id hos)
            split at hd
            · refine accounted_recvFuncStart ?_ hd
              rw [hid]
              exact hb
            · obtain rfl := Outcome.done.inj hd
              exact hfree _ hid

theorem accounted_freeSwdec (h : Accounted hand a) : Accounted hand (rtwFreeUcSwdecPendingQueue a) := by
  refine accounted_freeQueue _ ⟨?_, h.cnt⟩
  show Placed _ _ (withSwdec a []).contents
  rw [contents_withSwdec]
  refine h.placed.exchange ?_
  rw [List.map_nil, List.append_nil]
  exact List.perm_append_comm

/-- A station slot without frames. -/
structure EmptySlot (x : StaInfo) : Prop where
  defragQ : x.defragQ = []
  pending : ∀ t, (x.recvreorderCtrl t).pendingRecvframeQueue = []

instance (x : StaInfo) : Decidable (EmptySlot x) :=
  decidable_of_iff (x.defragQ = [] ∧ ∀ t, (x.recvreorderCtrl t).pendingRecvframeQueue = [])
    ⟨fun h => ⟨h.1, h.2⟩, fun h => ⟨h.defragQ, h.pending⟩⟩

theorem accounted_allocStainfo {hwaddr : MacAddr} (h : Accounted hand a)
    (hok : ∀ s ∈ a.freeStaQueue.head?, EmptySlot (a.sta s)) :
    Accounted hand (rtwAllocStainfo a hwaddr) := by
  unfold rtwAllocStainfo
  cases hq : a.freeStaQueue with
  | nil => exact h
  | cons s q =>
      have hs := hok s (by rw [hq]; rfl)
      refine h.congr ?_ rfl
      funext p
      unfold Adapter.updSta
      cases p with
      | free => rfl
      | swdec => rfl
      | defrag s' =>
          simp only [Adapter.contents]
          split
          · rename_i hk
            rw [hk, hs.defragQ]
          · rfl
      | pending s' t =>
          simp only [Adapter.contents]
          split
          · rename_i hk
            rw [hk, hs.pending t]
          · rfl

theorem accounted_freeStainfo {s : StaSlot} (h : Accounted hand a) :
    Accounted hand (rtwFreeStainfo a s) := by
  refine accounted_freeQueue _ ?_
  refine ⟨?_, h.cnt⟩
  have hnd : ((List.finRange 16).map (Place.pending s)).Nodup := by
    refine List.Nodup.map ?_ (List.nodup_finRange 16)
    intro t t' ht
    exact (Place.pending.inj ht).2
  have hempty := Placed.empty _ hnd h.placed
  have hhand : ((List.finRange 16).map (Place.pending s)).flatMap a.contents
      = ((List.finRange 16).flatMap fun t =>
          ((a.sta s).recvreorderCtrl t).pendingRecvframeQueue).map (·.id) := by
    rw [List.flatMap_map, List.map_flatMap]
    rfl
  rw [hhand] at hempty
  refine (congrArg (Placed _ _) ?_).mp hempty
  funext p
  unfold Adapter.updSta
  cases p with
  | free => rw [if_neg (by simp)]; rfl
  | swdec => rw [if_neg (by simp)]; rfl
  | defrag s' =>
      rw [if_neg (by simp)]
      simp only [Adapter.contents]
      split <;> rfl
  | pending s' t =>
      by_cases hs : s' = s
      · subst hs
        rw [if_pos (List.mem_map_of_mem (List.mem_finRange t))]
        simp only [Adapter.contents, if_true, List.map_nil]
      · rw [if_neg ?_]
        · simp only [Adapter.contents, if_neg hs]
        · intro hm
          obtain ⟨t', -, ht'⟩ := List.mem_map.mp hm
          exact hs (Place.pending.inj ht').1.symm

end

/-! ## Runs -/

/-- The driver as it starts: all frames are free. -/
structure RxStart (a : Adapter) : Prop where
  recvpriv : a.recvpriv = {}
  sta : ∀ s, EmptySlot (a.sta s)

/-- Every frame of the pool is in exactly one queue, once, and `free_recvframe_cnt` is
the length of the free queue. -/
structure EachInOnePlace (a : Adapter) : Prop where
  place : ∀ id < nrRecvframe, ∃! p, id ∈ a.contents p
  once : ∀ p, (a.contents p).Nodup
  cnt : a.recvpriv.freeRecvframeCnt = a.recvpriv.freeRecvQueue.length

/-- Frames are handled while the driver runs. -/
def RxEvent.Running (s : RxState) : RxEvent → Prop
  | .turn _ => s.adapter.running = true
  | .timeout _ _ _ => s.adapter.running = true
  | _ => True

instance (s : RxState) : ∀ e, Decidable (RxEvent.Running s e)
  | .turn _ => inferInstanceAs (Decidable (s.adapter.running = true))
  | .timeout _ _ _ => inferInstanceAs (Decidable (s.adapter.running = true))
  | .packet _ => .isTrue trivial
  | .allocStainfo _ => .isTrue trivial
  | .freeStainfo _ => .isTrue trivial
  | .freeUcSwdec => .isTrue trivial
  | .settings _ => .isTrue trivial

/-- The event stays off the paths that free a frame twice or forget one. -/
def RxEvent.Safe (aes : AesKey → BlockMode.Block → BlockMode.Block) (s : RxState) : RxEvent → Prop
  | .turn _ => TurnOk aes s.adapter s.work
  | .allocStainfo _ => ∀ i ∈ s.adapter.freeStaQueue.head?, EmptySlot (s.adapter.sta i)
  | _ => True

instance (aes : AesKey → BlockMode.Block → BlockMode.Block) (s : RxState) :
    ∀ e, Decidable (RxEvent.Safe aes s e)
  | .turn _ => inferInstanceAs (Decidable (TurnOk aes s.adapter s.work))
  | .allocStainfo _ =>
    inferInstanceAs (Decidable (∀ i ∈ s.adapter.freeStaQueue.head?, EmptySlot (s.adapter.sta i)))
  | .packet _ => .isTrue trivial
  | .timeout _ _ _ => .isTrue trivial
  | .freeStainfo _ => .isTrue trivial
  | .freeUcSwdec => .isTrue trivial
  | .settings _ => .isTrue trivial

section

variable {aes : AesKey → BlockMode.Block → BlockMode.Block} {a₀ a b : Adapter} {s s' : RxState}

theorem accounted_start (h : RxStart a) : Accounted [] a := by
  have hfree : a.contents .free = List.range nrRecvframe := by
    show a.recvpriv.freeRecvQueue = _
    rw [h.recvpriv]
  have hrest : ∀ p, p ≠ .free → a.contents p = [] := by
    intro p hp
    cases p with
    | free => exact absurd rfl hp
    | swdec =>
        show a.recvpriv.ucSwdecPendingQueue.map (·.id) = []
        rw [h.recvpriv]
        rfl
    | defrag s =>
        show (a.sta s).defragQ.map (·.id) = []
        rw [(h.sta s).defragQ]
        rfl
    | pending s t =>
        show ((a.sta s).recvreorderCtrl t).pendingRecvframeQueue.map (·.id) = []
        rw [(h.sta s).pending t]
        rfl
  refine ⟨⟨List.nodup_range, ?_⟩, ?_⟩
  · intro i
    rw [Finset.sum_eq_single Place.free ?_ (fun hn => absurd (Finset.mem_univ _) hn), hfree,
      List.count_nil, Nat.zero_add]
    intro p _ hp
    rw [hrest p hp, List.count_nil]
  · have hcnt : a.recvpriv.freeRecvframeCnt = nrRecvframe := by rw [h.recvpriv]
    have hqueue : a.recvpriv.freeRecvQueue = List.range nrRecvframe := hfree
    rw [hcnt, hqueue, List.length_range]

theorem contents_withSettings (a b : Adapter) : (withSettings a b).contents = a.contents := by
  funext p
  cases p <;> rfl

/-- **A safe event keeps the books.** -/
theorem accounted_step {e : RxEvent} (h : Accounted s.work.hand s.adapter) (hrun : e.Running s)
    (hok : e.Safe aes s) (hd : rxStep aes s e = .done s') :
    Accounted s'.work.hand s'.adapter := by
  cases e with
  | packet x =>
      rcases s with ⟨a, w⟩
      cases w with
      | idle =>
          change (if a.running then rxPacket a x else Outcome.done { adapter := a }) = _ at hd
          split at hd
          · exact accounted_packet h hd
          · obtain rfl := Outcome.done.inj hd
            exact h
      | drain n f => obtain rfl := Outcome.done.inj hd; exact h
      | prehandle f => obtain rfl := Outcome.done.inj hd; exact h
      | posthandle f => obtain rfl := Outcome.done.inj hd; exact h
  | turn os => exact accounted_turn hrun h hok hd
  | timeout os i t =>
      obtain rfl := Outcome.done.inj hd
      exact accounted_reorderTimeout hrun h
  | allocStainfo hwaddr =>
      obtain rfl := Outcome.done.inj hd
      exact accounted_allocStainfo h hok
  | freeStainfo i =>
      obtain rfl := Outcome.done.inj hd
      exact accounted_freeStainfo h
  | freeUcSwdec =>
      obtain rfl := Outcome.done.inj hd
      exact accounted_freeSwdec h
  | settings b =>
      obtain rfl := Outcome.done.inj hd
      exact h.congr (contents_withSettings s.adapter b) rfl

/-- At every point of a safe run, between two turns as well, the frame in hand and the queues
hold each frame once. -/
theorem accounted_run (h0 : RxStart a₀)
    (h : Reach (rxStep aes) (fun s e => e.Running s ∧ e.Safe aes s) { adapter := a₀ } s) :
    Accounted s.work.hand s.adapter :=
  h.invariant (fun s => Accounted s.work.hand s.adapter) (accounted_start h0)
    fun hs hok hd => accounted_step hs hok.1 hok.2 hd

/-- **Every safe run keeps each frame of the pool in exactly one place.** For every block
cipher, every start and every sequence of events, whenever no packet is being handled. -/
theorem frames_in_one_place (h0 : RxStart a₀)
    (h : Reach (rxStep aes) (fun s e => e.Running s ∧ e.Safe aes s) { adapter := a₀ }
      { adapter := a }) : EachInOnePlace a := by
  have hacc : Accounted [] a := accounted_run h0 h
  refine ⟨?_, hacc.placed.place_nodup, hacc.cnt⟩
  intro id hid
  exact hacc.placed.existsUnique (List.mem_range.mpr hid)

end

/-! ## Fragments that come in -/

/-- An access point without stations. -/
def poolAp : Adapter :=
  { mlme := { apState := true, bssid := ⟨2, 0, 0, 0, 0, 0xaa⟩ }, myid := ⟨2, 0, 0, 0, 0, 0xaa⟩ }

theorem poolAp_start : RxStart poolAp := ⟨rfl, fun _ => ⟨rfl, fun _ => rfl⟩⟩

/-- A packet with these bytes. -/
def packetOf (bytes : List UInt8) (mfrag : Bool) (fragNum : Nat) : RxPacket where
  attrib := { pktLen := bytes.length, mfrag := mfrag, fragNum := fragNum }
  skb := some 64
  urb := fun k => bytes.getD k 0

/-- A fragment of a data frame to the access point from the station `02:00:00:00:00:01`. -/
def apFragment (more : Bool) (n : Nat) (body : List UInt8) : RxPacket :=
  packetOf ([0x08, if more then 0x05 else 0x01, 0, 0] ++ [2, 0, 0, 0, 0, 0xaa]
    ++ [2, 0, 0, 0, 0, 1] ++ [2, 0, 0, 0, 0, 0xaa] ++ [0x70 + UInt8.ofNat n, 0] ++ body) more n

/-- The station comes, and so do the two fragments of an MSDU. -/
def fragmentsCome : List RxEvent :=
  [.allocStainfo .bcast, .allocStainfo ⟨2, 0, 0, 0, 0, 1⟩,
    .packet (apFragment true 0 [0xaa, 0xaa, 3, 0, 0, 0, 8, 0, 0x45]), .turn {}, .turn {},
    .packet (apFragment false 1 [0x46, 0x47]), .turn {}, .turn {}]

/-- A beacon of 24 bytes with fragment number `n`. -/
def mgntFragment (n : UInt8) : RxPacket :=
  packetOf ([0x80, 0] ++ List.replicate 20 0 ++ [n, 0]) false 0

/-- Whether no packet is being handled, what has gone up, and both counts of the free frames. -/
def poolSeen (s : RxState) : Bool × List Pkt × Nat × Nat :=
  (s.isIdle, s.adapter.indicated, s.adapter.recvpriv.freeRecvframeCnt,
    s.adapter.recvpriv.freeRecvQueue.length)

/-- The MSDU of the two fragments. -/
def fragmentsPkt : Pkt :=
  [2, 0, 0, 0, 0, 0xaa, 2, 0, 0, 0, 0, 1, 8, 0, 0x45, 0x46, 0x47]

/-- Two fragments are put together and go up as one packet, and their frames are free again. -/
theorem frames_in_one_place_sample :
    ∃ a, runActions (rxStep fun _ b => b) { adapter := poolAp } fragmentsCome =
        .done { adapter := a }
      ∧ poolSeen { adapter := a } = (true, [fragmentsPkt], 256, 256) ∧ EachInOnePlace a := by
  have hview : (runActions (rxStep fun _ b => b) { adapter := poolAp } fragmentsCome).view
      poolSeen = some (true, [fragmentsPkt], 256, 256) := by decide +kernel
  have hok : RunOk (rxStep fun _ b => b) (fun s e => e.Running s ∧ e.Safe (fun _ b => b) s)
      { adapter := poolAp } fragmentsCome := by decide +kernel
  obtain ⟨s, hrun, hseen⟩ := Outcome.of_view hview
  rw [RxState.eq_of_isIdle (congrArg Prod.fst hseen)] at hrun hseen
  exact ⟨s.adapter, hrun, hseen,
    frames_in_one_place poolAp_start (reach_runActions .start hok hrun)⟩

/-- A beacon with fragment number 1: `recvframe_chk_defrag` frees it as a lone last
fragment, and `recv_func_prehandle` frees it again. -/
theorem management_fragment_freed_twice :
    ¬ ∀ (aes : AesKey → BlockMode.Block → BlockMode.Block) (a₀ a : Adapter), RxStart a₀ →
      Reach (rxStep aes) (fun s e => e.Running s) { adapter := a₀ } { adapter := a } →
        EachInOnePlace a := by
  intro h
  have hview : (runActions (rxStep fun _ b => b) { adapter := poolAp }
      [.allocStainfo .bcast, .packet (mgntFragment 1), .turn {}]).view poolSeen =
        some (true, [], 257, 256) := by decide +kernel
  have hok : RunOk (rxStep fun _ b => b) (fun s e => e.Running s) { adapter := poolAp }
      [.allocStainfo .bcast, .packet (mgntFragment 1), .turn {}] := by decide +kernel
  obtain ⟨s, hrun, hseen⟩ := Outcome.of_view hview
  rw [RxState.eq_of_isIdle (congrArg Prod.fst hseen)] at hrun
  have hcnt := (h _ _ s.adapter poolAp_start (reach_runActions .start hok hrun)).cnt
  have h1 : s.adapter.recvpriv.freeRecvframeCnt = 257 := congrArg (fun x => x.2.2.1) hseen
  have h2 : s.adapter.recvpriv.freeRecvQueue.length = 256 := congrArg (fun x => x.2.2.2) hseen
  rw [h1, h2] at hcnt
  exact absurd hcnt (by decide)

end Rtl8812au

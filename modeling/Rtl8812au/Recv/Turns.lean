import Rtl8812au.Lib.Reach
import Rtl8812au.Recv.PathProof

/-!
# The receive path in turns

`recv_func` handles the frames that wait for their key, then the one it was called with. Here
it is cut where a frame changes hands: each call of `recv_func_prehandle` and of
`recv_func_posthandle` is a turn, and between two turns the state says which frame is next.
Timers, stations and settings may come in between.

`recvbuf2recvframe_turns` says that a call of the whole function is a number of turns.
-/

namespace Rtl8812au

/-- Where the receive path stands: between two packets, in the loop over the frames that wait
for their key, with at most `n` of them before `f`, or before one of the two halves of
`recv_func` for `f`. -/
inductive RxWork where
  | idle
  | drain (n : Nat) (f : RecvFrame)
  | prehandle (f : RecvFrame)
  | posthandle (f : RecvFrame)

/-- The frame that is in hand. -/
def RxWork.hand : RxWork → List Nat
  | .idle => []
  | .drain _ f => [f.id]
  | .prehandle f => [f.id]
  | .posthandle f => [f.id]

structure RxState where
  adapter : Adapter
  work : RxWork := .idle

/-- No packet is being handled. -/
def RxState.isIdle (s : RxState) : Bool :=
  match s.work with
  | .idle => true
  | _ => false

theorem RxState.eq_of_isIdle {s : RxState} (h : s.isIdle = true) : s = { adapter := s.adapter } := by
  rcases s with ⟨a, _ | ⟨n, f⟩ | f | f⟩
  · rfl
  · cases h
  · cases h
  · cases h

/-- The adapter with a shorter `uc_swdec_pending_queue`. -/
def withSwdec (a : Adapter) (q : List RecvFrame) : Adapter :=
  { a with recvpriv := { a.recvpriv with ucSwdecPendingQueue := q } }

/-- `recv_func` up to the first frame it handles. -/
def recvFuncStart (a : Adapter) (f : RecvFrame) : Outcome RxState :=
  if a.mlme.monitorState then do
    let a ← recvFrameMonitor a f
    return { adapter := a }
  else if a.mlme.stationState && a.sec.busetkipkey then
    .done ⟨a, .drain a.recvpriv.ucSwdecPendingQueue.length f⟩
  else .done ⟨a, .prehandle f⟩

/-- `recvbuf2recvframe` up to there. -/
def rxPacket (a : Adapter) (x : RxPacket) : Outcome RxState :=
  match rtwAllocRecvframe a with
  | none => .done { adapter := a }
  | some (id, a) =>
    let f : RecvFrame := { id := id, attrib := x.attrib, pkt := false }
    if !a.mpMode && (x.attrib.crcErr || x.attrib.icvErr) then
      .done { adapter := rtwFreeRecvframe a f }
    else if x.attrib.pktLen = 0 || !x.complete then .done { adapter := rtwFreeRecvframe a f }
    else
      match rtwOsAllocRecvframe x.skb x.cloneOk x.urb x.pdata f with
      | (f, false) => .done { adapter := rtwFreeRecvframe a f }
      | (f, true) =>
        let f := (f.put x.attrib.pktLen).1
        if x.normalRx then recvFuncStart a f
        else .done { adapter := rtwFreeRecvframe a f }

section

variable (aes : AesKey → BlockMode.Block → BlockMode.Block)

/-- One turn. -/
def rxTurn (os : Os) (a : Adapter) : RxWork → Outcome RxState
  | .idle => .done { adapter := a }
  | .drain 0 f => .done ⟨a, .prehandle f⟩
  | .drain (n + 1) f =>
    match a.recvpriv.ucSwdecPendingQueue with
    | [] => .done ⟨a, .prehandle f⟩
    | g :: q => do
      let (a, _) ← recvFuncPosthandle os aes (withSwdec a q) g
      return ⟨a, .drain n f⟩
  | .prehandle f => do
    let (ret, a, f) ← recvFuncPrehandle os a f
    if ret ≠ .success then return { adapter := a }
    else if waitsForKey a f then
      let a := enqueueUcSwdec a f
      match a.recvpriv.ucSwdecPendingQueue with
      | g :: q =>
        if a.recvpriv.freeRecvframeCnt < nrRecvframe / 4 then
          return ⟨withSwdec a q, .posthandle g⟩
        else return { adapter := a }
      | [] => return { adapter := a }
    else return ⟨a, .posthandle f⟩
  | .posthandle f => do
    let (a, _) ← recvFuncPosthandle os aes a f
    return { adapter := a }

/-! ## Events -/

/-- Other settings (modes, keys, station flags, reorder windows, the driver stopped or
started), with every frame where it was. -/
def withSettings (a b : Adapter) : Adapter :=
  { b with
    recvpriv := a.recvpriv
    sta := fun s => { b.sta s with
      defragQ := (a.sta s).defragQ
      recvreorderCtrl := fun t => { (b.sta s).recvreorderCtrl t with
        pendingRecvframeQueue := ((a.sta s).recvreorderCtrl t).pendingRecvframeQueue } } }

/-- What can happen to the driver: a packet comes in, the receive path takes a turn, a reorder
timer fires, a station comes or goes, the frames that wait for a key are given up, settings
change. -/
inductive RxEvent where
  | packet (x : RxPacket)
  | turn (os : Os)
  | timeout (os : Os) (s : StaSlot) (t : Tid)
  | allocStainfo (hwaddr : MacAddr)
  | freeStainfo (s : StaSlot)
  | freeUcSwdec
  | settings (b : Adapter)

/-- One event. `usb_recv_tasklet` takes one packet after the other, and none from a driver that
is stopped. -/
def rxStep (s : RxState) : RxEvent → Outcome RxState
  | .packet x =>
    match s.work with
    | .idle => if s.adapter.running then rxPacket s.adapter x else .done s
    | _ => .done s
  | .turn os => rxTurn aes os s.adapter s.work
  | .timeout os i t => .done { s with adapter := reorderTimeout os s.adapter i t }
  | .allocStainfo hwaddr => .done { s with adapter := rtwAllocStainfo s.adapter hwaddr }
  | .freeStainfo i => .done { s with adapter := rtwFreeStainfo s.adapter i }
  | .freeUcSwdec => .done { s with adapter := rtwFreeUcSwdecPendingQueue s.adapter }
  | .settings b => .done { s with adapter := withSettings s.adapter b }

/-- A number of turns lead from `s` to `s'`. -/
def Turns (os : Os) (s s' : RxState) : Prop :=
  ∃ n, runActions (rxStep aes) s (List.replicate n (.turn os)) = .done s'

end

section

variable {aes : AesKey → BlockMode.Block → BlockMode.Block} {os : Os} {a a' b : Adapter}
variable {f : RecvFrame} {ret : RxRet} {s s' s'' : RxState}

theorem Turns.refl (s : RxState) : Turns aes os s s := ⟨0, rfl⟩

/-- A turn, and then more. -/
theorem Turns.cons (h : rxTurn aes os s.adapter s.work = .done s') (h' : Turns aes os s' s'') :
    Turns aes os s s'' := by
  obtain ⟨n, hn⟩ := h'
  refine ⟨n + 1, ?_⟩
  rw [List.replicate_succ]
  show (rxTurn aes os s.adapter s.work >>= fun s' => runActions _ s' _) = _
  rw [h]
  exact hn

theorem turns_posthandle (h : recvFuncPosthandle os aes a f = .done (a', ret)) :
    Turns aes os ⟨a, .posthandle f⟩ ⟨a', .idle⟩ := by
  refine Turns.cons ?_ (Turns.refl _)
  show (recvFuncPosthandle os aes a f >>= fun r =>
    Outcome.done ({ adapter := r.1 } : RxState)) = _
  rw [h]
  rfl

/-- The loop over `uc_swdec_pending_queue`, and then more. -/
theorem turns_drain : ∀ (n : Nat) {a : Adapter}, drainUcSwdec os aes n a = .done b →
    Turns aes os ⟨b, .prehandle f⟩ s' → Turns aes os ⟨a, .drain n f⟩ s'
  | 0, a, hd, h => by
      obtain rfl := Outcome.done.inj hd
      exact Turns.cons rfl h
  | n + 1, a, hd, h => by
      rw [drainUcSwdec] at hd
      cases hq : a.recvpriv.ucSwdecPendingQueue with
      | nil =>
          rw [hq] at hd
          obtain rfl := Outcome.done.inj hd
          have hturn : rxTurn aes os a (.drain (n + 1) f) = .done ⟨a, .prehandle f⟩ := by
            rw [rxTurn, hq]
          exact Turns.cons hturn h
      | cons g q =>
          rw [hq] at hd
          obtain ⟨⟨c, r⟩, hpost, hd⟩ := Outcome.bind_eq_done.mp hd
          have hturn : rxTurn aes os a (.drain (n + 1) f) = .done ⟨c, .drain n f⟩ := by
            rw [rxTurn, hq]
            show (recvFuncPosthandle os aes (withSwdec a q) g >>= fun r =>
              Outcome.done (⟨r.1, .drain n f⟩ : RxState)) = _
            rw [show recvFuncPosthandle os aes (withSwdec a q) g = .done (c, r) from hpost]
            rfl
          exact Turns.cons hturn (turns_drain n hd h)

/-- **A call of `recv_func` is a number of turns.** -/
theorem recvFunc_turns (h : recvFunc os aes a f = .done (a', ret)) :
    ∃ s, recvFuncStart a f = .done s ∧ Turns aes os s ⟨a', .idle⟩ := by
  unfold recvFunc at h
  unfold recvFuncStart
  split at h
  · rename_i hmon
    obtain ⟨b, hm, hb⟩ := Outcome.bind_eq_done.mp h
    obtain ⟨rfl, -⟩ := Prod.mk.inj (Outcome.done.inj hb)
    rw [if_pos hmon, hm]
    exact ⟨_, rfl, Turns.refl _⟩
  · rename_i hmon
    rw [if_neg hmon]
    obtain ⟨b, hdrain, h⟩ := Outcome.bind_eq_done.mp h
    -- what is left once the waiting frames are handled
    have hrest : Turns aes os ⟨b, .prehandle f⟩ ⟨a', .idle⟩ := by
      obtain ⟨⟨r, c, g⟩, hpre, h⟩ := Outcome.bind_eq_done.mp h
      have hturn : rxTurn aes os b (.prehandle f) = (Outcome.done (r, c, g) >>= fun x =>
          if x.1 ≠ .success then Outcome.done { adapter := x.2.1 }
          else if waitsForKey x.2.1 x.2.2 then
            match (enqueueUcSwdec x.2.1 x.2.2).recvpriv.ucSwdecPendingQueue with
            | k :: q =>
              if (enqueueUcSwdec x.2.1 x.2.2).recvpriv.freeRecvframeCnt < nrRecvframe / 4 then
                .done ⟨withSwdec (enqueueUcSwdec x.2.1 x.2.2) q, .posthandle k⟩
              else .done { adapter := enqueueUcSwdec x.2.1 x.2.2 }
            | [] => .done { adapter := enqueueUcSwdec x.2.1 x.2.2 }
          else .done ⟨x.2.1, .posthandle x.2.2⟩) := by
        rw [← hpre]
        rfl
      rw [Outcome.done_bind] at hturn
      dsimp only at h hturn
      split at h
      · rename_i hne
        obtain ⟨rfl, -⟩ := Prod.mk.inj (Outcome.done.inj h)
        rw [if_pos hne] at hturn
        exact Turns.cons hturn (Turns.refl _)
      · rename_i hne
        rw [if_neg hne] at hturn
        split at h
        · rename_i hwait
          rw [if_pos hwait] at hturn
          cases hq : (enqueueUcSwdec c g).recvpriv.ucSwdecPendingQueue with
          | nil =>
              rw [hq] at h hturn
              obtain ⟨rfl, -⟩ := Prod.mk.inj (Outcome.done.inj h)
              exact Turns.cons hturn (Turns.refl _)
          | cons k q =>
              rw [hq] at h hturn
              dsimp only at h hturn
              split at h
              · rename_i hfew
                rw [if_pos hfew] at hturn
                exact Turns.cons hturn (turns_posthandle h)
              · rename_i hfew
                rw [if_neg hfew] at hturn
                obtain ⟨rfl, -⟩ := Prod.mk.inj (Outcome.done.inj h)
                exact Turns.cons hturn (Turns.refl _)
        · rename_i hwait
          rw [if_neg hwait] at hturn
          exact Turns.cons hturn (turns_posthandle h)
    unfold handleUcSwdec at hdrain
    split at hdrain
    · rename_i hkey
      rw [if_pos hkey]
      exact ⟨_, rfl, turns_drain _ hdrain hrest⟩
    · rename_i hkey
      obtain rfl := Outcome.done.inj hdrain
      rw [if_neg hkey]
      exact ⟨_, rfl, hrest⟩

/-- **A packet of a running driver, and a number of turns**, are a call of
`recvbuf2recvframe`. -/
theorem recvbuf2recvframe_turns {x : RxPacket} (hr : a.running = true)
    (h : recvbuf2recvframe os aes a x = .done a') :
    ∃ n, runActions (rxStep aes) ⟨a, .idle⟩ (.packet x :: List.replicate n (.turn os)) =
      .done ⟨a', .idle⟩ := by
  have hstart : ∃ s, rxPacket a x = .done s ∧ Turns aes os s ⟨a', .idle⟩ := by
    unfold recvbuf2recvframe at h
    unfold rxPacket
    -- without a buffer, and for a packet that is cut or bad, no turn is left over
    cases halloc : rtwAllocRecvframe a with
    | none =>
        rw [halloc] at h
        obtain rfl := Outcome.done.inj h
        exact ⟨_, rfl, Turns.refl _⟩
    | some y =>
        obtain ⟨id, b⟩ := y
        rw [halloc] at h
        dsimp only at h ⊢
        split at h
        · rename_i hcrc
          obtain rfl := Outcome.done.inj h
          rw [if_pos hcrc]
          exact ⟨_, rfl, Turns.refl _⟩
        · rename_i hcrc
          rw [if_neg hcrc]
          split at h
          · rename_i hlen
            obtain rfl := Outcome.done.inj h
            rw [if_pos hlen]
            exact ⟨_, rfl, Turns.refl _⟩
          · rename_i hlen
            rw [if_neg hlen]
            rcases hos : rtwOsAllocRecvframe x.skb x.cloneOk x.urb x.pdata
              { id := id, attrib := x.attrib, pkt := false } with ⟨g, ok⟩
            rw [hos] at h
            cases ok with
            | false =>
                obtain rfl := Outcome.done.inj h
                exact ⟨_, rfl, Turns.refl _⟩
            | true =>
                dsimp only at h ⊢
                split at h
                · rename_i hnormal
                  rw [if_pos hnormal]
                  -- a frame is left for the receive path, whose turns follow
                  obtain ⟨⟨c, r⟩, hentry, hc⟩ := Outcome.bind_eq_done.mp h
                  obtain rfl := Outcome.done.inj hc
                  exact recvFunc_turns hentry
                · rename_i hnormal
                  rw [if_neg hnormal]
                  obtain rfl := Outcome.done.inj h
                  exact ⟨_, rfl, Turns.refl _⟩
  obtain ⟨s, hs, n, hn⟩ := hstart
  refine ⟨n, ?_⟩
  show ((if a.running then rxPacket a x else Outcome.done { adapter := a }) >>= fun s' =>
    runActions (rxStep aes) s' _) = _
  rw [hr, if_pos rfl, hs]
  exact hn

end

end Rtl8812au

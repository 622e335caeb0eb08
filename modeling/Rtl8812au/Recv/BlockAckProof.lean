import Mathlib.Order.Interval.Finset.Nat
import Rtl8812au.Recv.BlockAck
import Rtl8812au.Recv.ReorderProof

/-!
# The reorder window under renegotiation

While an agreement stands, the pending frames lie inside the window, in order. Two operations move
`indicate_seq` and leave the queue as it is: an ADDBA request sets it to `0xFFFF`, and a frame that
comes in without an agreement sets it past itself. When frames are pending the first breaks the
window, and the second does unless they still lie ahead of the new start.

The theorem is about every run that stays off these two: the window holds, it holds fewer frames
than its size, and `recv_indicatepkts_in_order` only moves it forward.
-/

namespace Rtl8812au

open Window

/-- How far a frame lies ahead of `indicate_seq`. -/
def aheadOf (ind : Nat) (g : RecvFrame) : Nat := (g.attrib.seqNum + 4096 - ind) % 4096

/-- How far `indicate_seq` has moved. -/
def movedBy (ind ind' : Nat) : Nat := (ind' + 4096 - ind) % 4096

/-- **The reorder window of one control.** -/
structure WindowKept (c : RecvReorderCtrl) : Prop where
  /-- no frame waits, or all of them in order inside the window -/
  window : c.pendingRecvframeQueue = []
    ∨ (c.indicateSeq ≠ 0xFFFF
      ∧ c.pendingRecvframeQueue.Pairwise (fun g h => aheadOf c.indicateSeq g < aheadOf c.indicateSeq h)
      ∧ ∀ g ∈ c.pendingRecvframeQueue,
        1 ≤ aheadOf c.indicateSeq g ∧ aheadOf c.indicateSeq g ≤ c.wsizeB - 1)
  few : c.pendingRecvframeQueue.length ≤ c.wsizeB - 1
  /-- the call of a timer moves `indicate_seq` forward -/
  timeout : movedBy c.indicateSeq (recvIndicatepktsInOrder c true).2.1.indicateSeq ≤ c.wsizeB
  /-- and so does the call for a frame that was let in -/
  arrive : ∀ f : RecvFrame, f.attrib.seqNum < 4096 → ∀ q,
    (checkIndicateSeq c f.attrib.seqNum).2 = true →
    enqueueReorderRecvframe f c.pendingRecvframeQueue = some q →
    movedBy (checkIndicateSeq c f.attrib.seqNum).1.indicateSeq
      (recvIndicatepktsInOrder
        { (checkIndicateSeq c f.attrib.seqNum).1 with pendingRecvframeQueue := q } false).2.1.indicateSeq
      ≤ c.wsizeB

/-- The frame is an A-MSDU, or has room for an Ethernet header. -/
def QosFrame.Converts (mp : Bool) (f : QosFrame) : Prop :=
  f.frame.attrib.amsdu = true ∨ (wlanhdrToEthhdr mp f.frame).2 = true

/-- The event does not move `indicate_seq` away from pending frames. -/
def BaEvent.Calm (a : Adapter) : BaEvent → Prop
  | .arrive s tid f =>
    let c := (a.sta s).recvreorderCtrl tid
    c.enable = false → f.Converts a.mlme.mpState → ∀ g ∈ c.pendingRecvframeQueue,
      1 ≤ aheadOf ((f.frame.attrib.seqNum + 1) % 4096) g
        ∧ aheadOf ((f.frame.attrib.seqNum + 1) % 4096) g ≤ c.wsizeB - 1
  | .addba addr param _ => ∀ s, rtwGetStainfo a addr = some s →
      ((a.sta s).recvreorderCtrl (addbaTid param)).pendingRecvframeQueue = []
  | _ => True

/-! ## One control -/

/-- `wsize_b`. -/
def windowSize : Nat := 64

/-- The control stands for a window of positions from `n` on. -/
structure AtWindow (c : RecvReorderCtrl) (n : Nat) (held : List Nat) : Prop where
  ind : c.indicateSeq = n % 4096
  wrapped : seqs c.pendingRecvframeQueue = wrap held
  sorted : held.Pairwise (· < ·)
  ahead : ∀ p ∈ held, n < p ∧ p < n + windowSize

/-- A control between events: nothing has come in, or it stands for a window. -/
structure Windowed (c : RecvReorderCtrl) : Prop where
  wsize : c.wsizeB = windowSize
  at' : (c.indicateSeq = 0xFFFF ∧ c.pendingRecvframeQueue = []) ∨ ∃ n held, AtWindow c n held

section

variable {c c' : RecvReorderCtrl} {n : Nat} {held : List Nat}

/-- Only the window start, its size and the queue matter. -/
theorem Windowed.congr (h : Windowed c) (hw : c'.wsizeB = c.wsizeB)
    (hi : c'.indicateSeq = c.indicateSeq)
    (hq : c'.pendingRecvframeQueue = c.pendingRecvframeQueue) : Windowed c' := by
  refine ⟨hw.trans h.wsize, ?_⟩
  rw [hi, hq]
  rcases h.at' with hf | ⟨n, held, hat⟩
  · exact Or.inl hf
  · refine Or.inr ⟨n, held, ?_, ?_, hat.sorted, hat.ahead⟩
    · rw [hi]
      exact hat.ind
    · rw [hq]
      exact hat.wrapped

/-- A window of positions as the simulation has it, with nothing delivered yet. -/
theorem AtWindow.sim (h : AtWindow c n held) :
    ReorderRun.Sim windowSize n { ctrl := c } ⟨n, held, []⟩ := by
  have hpair : held.Pairwise (Follows 2048) := by
    refine h.sorted.imp_of_mem ?_
    intro p q hp hq hlt
    have h1 := h.ahead p hp
    have h2 := h.ahead q hq
    unfold windowSize at h1 h2
    exact ⟨hlt, by omega⟩
  refine ⟨⟨?_, h.ahead, ?_, ?_⟩, h.ind, rfl, h.wrapped, List.Forall₂.nil⟩
  · rw [List.nil_append]
    exact hpair.isChain
  · intro p hp
    cases hp
  · intro _ p hp
    cases hp

theorem AtWindow.of_sim {b : Nat} {r : ReorderRun} {w : Win}
    (h : ReorderRun.Sim windowSize b r w) : AtWindow r.ctrl w.next w.held := by
  refine ⟨h.next, h.held, ?_, h.inv.ahead⟩
  exact (List.pairwise_append.mp (chain_pairwise h.inv.chain)).2.1

theorem Windowed.ordered (h : Windowed c) (he : c.enable = true) :
    ReorderRun.Ordered windowSize { ctrl := c } := by
  refine ⟨⟨he, h.wsize⟩, ?_⟩
  rcases h.at' with ⟨hi, hq⟩ | ⟨n, held, hat⟩
  · exact Or.inl ⟨hi, hq, rfl, rfl⟩
  · exact Or.inr ⟨n, _, hat.sim⟩

theorem Windowed.of_ordered {r : ReorderRun} (h : ReorderRun.Ordered windowSize r) :
    Windowed r.ctrl := by
  refine ⟨h.config.wsize, ?_⟩
  rcases h.sim with hf | ⟨b, w, hs⟩
  · exact Or.inl ⟨hf.seq, hf.pending⟩
  · exact Or.inr ⟨w.next, w.held, AtWindow.of_sim hs⟩

/-- An enabled control takes a QoS frame through the window. -/
theorem windowed_enabled {mp : Bool} {f : RecvFrame} (h : Windowed c) (he : c.enable = true)
    (hq : f.attrib.qos = true) (hs : f.attrib.seqNum < 4096) :
    Windowed (recvIndicatepktReorder true mp c f).ctrl := by
  have hstep := ReorderRun.ordered_step (by decide) (by decide) (h.ordered he) (.arrive mp f) ⟨hq, hs⟩
  have hctrl : (({ ctrl := c } : ReorderRun).step (.arrive mp f)).ctrl
      = (recvIndicatepktReorder true mp c f).ctrl := by
    unfold ReorderRun.step
    dsimp only
    split <;> rfl
  rw [← hctrl]
  exact Windowed.of_ordered hstep

/-- Positions seen from another start that all of them are still ahead of. -/
theorem AtWindow.restart {m : Nat} (h : AtWindow c n held) (hm : m < 4096)
    (hq : ∀ g ∈ c.pendingRecvframeQueue, 1 ≤ aheadOf m g ∧ aheadOf m g ≤ windowSize - 1) :
    AtWindow { c with indicateSeq := m } m (held.map fun p => m + (p % 4096 + 4096 - m) % 4096) := by
  have hin : ∀ p ∈ held, 1 ≤ (p % 4096 + 4096 - m) % 4096
      ∧ (p % 4096 + 4096 - m) % 4096 ≤ windowSize - 1 := by
    intro p hp
    have hmem : p % 4096 ∈ seqs c.pendingRecvframeQueue := by
      rw [h.wrapped]
      exact List.mem_map_of_mem hp
    obtain ⟨g, hg, hgs⟩ := List.mem_map.mp hmem
    have hgq := hq g hg
    unfold aheadOf at hgq
    rw [hgs] at hgq
    exact hgq
  refine ⟨(Nat.mod_eq_of_lt hm).symm, ?_, ?_, ?_⟩
  · show seqs c.pendingRecvframeQueue = _
    rw [h.wrapped]
    unfold wrap
    rw [List.map_map]
    refine List.map_congr_left ?_
    intro p _
    show p % 4096 = (m + (p % 4096 + 4096 - m) % 4096) % 4096
    omega
  · refine List.pairwise_map.mpr (h.sorted.imp_of_mem ?_)
    intro p q hp hq' hlt
    -- both stay less than a window apart, so their order is that of their distances
    have h1 := h.ahead p hp
    have h2 := h.ahead q hq'
    have h3 := hin p hp
    have h4 := hin q hq'
    unfold windowSize at h1 h2 h3 h4
    omega
  · intro p hp
    obtain ⟨p', hp', rfl⟩ := List.mem_map.mp hp
    have h1 := hin p' hp'
    unfold windowSize at h1 ⊢
    omega

theorem windowed_restart {m : Nat} (h : Windowed c) (hm : m < 4096)
    (hq : ∀ g ∈ c.pendingRecvframeQueue, 1 ≤ aheadOf m g ∧ aheadOf m g ≤ windowSize - 1) :
    Windowed { c with indicateSeq := m } := by
  refine ⟨h.wsize, Or.inr ?_⟩
  rcases h.at' with ⟨-, hnil⟩ | ⟨n, held, hat⟩
  · refine ⟨m, [], (Nat.mod_eq_of_lt hm).symm, ?_, List.Pairwise.nil, ?_⟩
    · show seqs c.pendingRecvframeQueue = _
      rw [hnil]
      rfl
    · intro p hp
      cases hp
  · exact ⟨m, _, hat.restart hm hq⟩

/-- A QoS frame does not ask whether the driver runs. -/
theorem recvIndicatepktReorder_running {r mp : Bool} {f : RecvFrame} (hq : f.attrib.qos = true) :
    recvIndicatepktReorder r mp c f = recvIndicatepktReorder true mp c f := by
  unfold recvIndicatepktReorder
  rcases hw : wlanhdrToEthhdr mp f with ⟨g, ok⟩
  have hg : g.attrib.qos = true := by
    have hqos := wlanhdrToEthhdr_qos mp f
    rw [hw] at hqos
    exact hqos.trans hq
  simp only [hg, Bool.not_true, Bool.false_eq_true, if_false]

/-- **What a QoS frame does to a control without an agreement**: nothing, when it has no room for
an Ethernet header, or `indicate_seq` is set past it. -/
theorem recvIndicatepktReorder_disabled (mp : Bool) {f : RecvFrame} (he : c.enable = false)
    (hq : f.attrib.qos = true) :
    (recvIndicatepktReorder true mp c f).ctrl = c
      ∨ ((f.attrib.amsdu = true ∨ (wlanhdrToEthhdr mp f).2 = true)
        ∧ (recvIndicatepktReorder true mp c f).ctrl
          = { c with indicateSeq := (f.attrib.seqNum + 1) % 4096 }) := by
  have hseq := queuedForm_seqNum mp f
  unfold recvIndicatepktReorder
  cases ha : f.attrib.amsdu with
  | true =>
      right
      simp [he]
  | false =>
      have hform : queuedForm mp f = (wlanhdrToEthhdr mp f).1 := by
        unfold queuedForm
        rw [ha]
        rfl
      rw [hform] at hseq
      have hqos := (wlanhdrToEthhdr_qos mp f).trans hq
      rcases hw : wlanhdrToEthhdr mp f with ⟨g, ok⟩
      rw [hw] at hseq hqos
      dsimp only at hseq hqos
      cases ok with
      | false =>
          left
          simp
      | true =>
          right
          simp [he, hqos, hseq]

theorem windowed_timeout {r : Bool} (h : Windowed c) :
    Windowed (rtwReorderingCtrlTimeoutHandler r c).1 := by
  cases r with
  | false => exact h.congr rfl rfl rfl
  | true =>
      rcases h.at' with ⟨-, hnil⟩ | ⟨n, held, hat⟩
      · rcases timeoutHandler_cases c with ⟨b, -, heq⟩ | ⟨f, q, b, hq, -⟩
        · rw [heq]
          exact h.congr rfl rfl rfl
        · rw [hnil] at hq
          cases hq
      · have hwsize : (rtwReorderingCtrlTimeoutHandler true c).1.wsizeB = c.wsizeB := by
          rcases timeoutHandler_cases c with ⟨b, -, heq⟩ | ⟨f, q, b, -, heq⟩
          · rw [heq]
          · rw [heq]
        obtain ⟨w, hs⟩ := ReorderRun.sim_timeout (by decide) hat.sim
        exact ⟨hwsize.trans h.wsize, Or.inr ⟨w.next, w.held, AtWindow.of_sim hs⟩⟩

/-! ## What a window says -/

theorem movedBy_mod {m m' k : Nat} (h : m ≤ m') (h' : m' ≤ m + k) (hk : k < 4096) :
    movedBy (m % 4096) (m' % 4096) ≤ k := by
  unfold movedBy
  omega

theorem movedBy_self (m : Nat) : movedBy m m = 0 := by
  unfold movedBy
  omega

/-- The distances of the pending frames are those of their positions. -/
theorem AtWindow.distances (h : AtWindow c n held) :
    c.pendingRecvframeQueue.map (aheadOf c.indicateSeq) = held.map (· - n) := by
  have hcomp : c.pendingRecvframeQueue.map (aheadOf c.indicateSeq)
      = (seqs c.pendingRecvframeQueue).map fun s => (s + 4096 - c.indicateSeq) % 4096 := by
    unfold seqs
    rw [List.map_map]
    rfl
  rw [hcomp, h.wrapped]
  unfold wrap
  rw [List.map_map]
  refine List.map_congr_left ?_
  intro p hp
  have hb := h.ahead p hp
  unfold windowSize at hb
  show (p % 4096 + 4096 - c.indicateSeq) % 4096 = p - n
  rw [h.ind]
  omega

/-- Increasing numbers between 1 and `k` are at most `k`. -/
theorem length_le_of_sorted {k : Nat} {l : List Nat} (hs : l.Pairwise (· < ·))
    (hb : ∀ d ∈ l, 1 ≤ d ∧ d ≤ k) : l.length ≤ k := by
  have hnd : l.Nodup := hs.imp fun h => Nat.ne_of_lt h
  have hsub : l.toFinset ⊆ Finset.Icc 1 k := by
    intro d hd
    exact Finset.mem_Icc.mpr (hb d (List.mem_toFinset.mp hd))
  have hcard := Finset.card_le_card hsub
  rw [List.toFinset_card_of_nodup hnd, Nat.card_Icc] at hcard
  omega

/-- A frame that is let in starts the loop at the slid window, and it ends no further than the
window reaches. -/
theorem AtWindow.forward {f : RecvFrame} {q : List RecvFrame} (h : AtWindow c n held)
    (hw : c.wsizeB = windowSize) (hs : f.attrib.seqNum < 4096)
    (hok : (checkIndicateSeq c f.attrib.seqNum).2 = true)
    (hen : enqueueReorderRecvframe f c.pendingRecvframeQueue = some q) :
    movedBy (checkIndicateSeq c f.attrib.seqNum).1.indicateSeq
      (indicateLoop (checkIndicateSeq c f.attrib.seqNum).1.indicateSeq q).2.1 ≤ windowSize := by
  have hge : n ≤ unwrap n f.attrib.seqNum := by unfold unwrap; omega
  by_cases hx : unwrap n f.attrib.seqNum < n + 2048
  · have hck := checkIndicateSeq_new hs (by decide) (by decide) hw h.ind hx
    have hmod := @unwrap_mod n f.attrib.seqNum hs
    rw [hck]
    generalize unwrap n f.attrib.seqNum = x at hge hx hmod
    -- the frame is put where the window without wrapping puts it
    have hens := enqueue_refines hmod.symm h.wrapped (by
      intro p hp
      have hb := h.ahead p hp
      unfold windowSize at hb
      omega)
    rw [hen] at hens
    obtain ⟨ps, hins, hps⟩ := Option.map_eq_some_iff.mp hens.symm
    have hacc : Win.accept windowSize ⟨n, held, []⟩ x
        = some ⟨(flush (slide windowSize n x) ps).2.1, (flush (slide windowSize n x) ps).2.2,
          [] ++ (flush (slide windowSize n x) ps).1⟩ := by
      rw [Win.accept, hins]
      rfl
    obtain ⟨hinv, -⟩ := accept_inv (by decide) (by decide) h.sim.inv hge hx hacc
    have hsorted : ps.Pairwise (· < ·) := ReorderRun.sorted_of_flush hinv rfl
    -- the window slides at most so far that the frame is its last one
    have hslide : n ≤ slide windowSize n x ∧ slide windowSize n x ≤ x + 1
        ∧ x < slide windowSize n x + windowSize := by
      unfold slide windowSize
      split_ifs <;> omega
    have hmem : ∀ p ∈ ps, p = x ∨ (n < p ∧ p < n + windowSize) := by
      intro p hp
      exact (insert_mem hins p hp).imp_right (h.ahead p)
    show movedBy (slide windowSize n x % 4096) (indicateLoop (slide windowSize n x % 4096) q).2.1 ≤ _
    generalize slide windowSize n x = m at hslide
    have hloop := indicateLoop_refines (n := m) hps.symm hsorted (by
      intro p hp
      have hb := hmem p hp
      unfold windowSize at hb hslide
      omega)
    rw [hloop.2.1]
    refine movedBy_mod (flush_next_ge _ _) ?_ (by decide)
    refine flush_next_le _ _ (by omega) ?_
    intro p hp
    have hb := hmem p hp
    omega
  · have hck := checkIndicateSeq_old hs h.ind (by omega)
    rw [hck] at hok
    cases hok

theorem AtWindow.kept (h : AtWindow c n held) (hw : c.wsizeB = windowSize) : WindowKept c := by
  have hdist := h.distances
  have hsorted : (held.map (· - n)).Pairwise (· < ·) := by
    refine List.pairwise_map.mpr (h.sorted.imp_of_mem ?_)
    intro p q hp _ hlt
    have hb := h.ahead p hp
    omega
  -- what is held is inside the window, and not its first number
  have hbound : ∀ d ∈ held.map (· - n), 1 ≤ d ∧ d ≤ c.wsizeB - 1 := by
    intro d hd
    obtain ⟨p, hp, rfl⟩ := List.mem_map.mp hd
    have hb := h.ahead p hp
    rw [hw]
    omega
  refine ⟨Or.inr ⟨?_, ?_, ?_⟩, ?_, ?_, ?_⟩
  · rw [h.ind]
    omega
  · rw [← hdist] at hsorted
    exact List.pairwise_map.mp hsorted
  · intro g hg
    rw [← hdist] at hbound
    exact hbound _ (List.mem_map_of_mem hg)
  · have hlen := length_le_of_sorted hsorted hbound
    rw [← hdist, List.length_map] at hlen
    exact hlen
  -- a timer moves the window at most to behind what is held
  · cases hq : c.pendingRecvframeQueue with
    | nil =>
        have hsame : (recvIndicatepktsInOrder c true).2.1 = c := by
          unfold recvIndicatepktsInOrder
          rw [hq]
        rw [hsame, movedBy_self]
        exact Nat.zero_le _
    | cons f q =>
        have hseqs := h.wrapped
        rw [hq] at hseqs
        obtain ⟨p, ps, rfl⟩ : ∃ p ps, held = p :: ps := by
          cases held with
          | nil => cases hseqs
          | cons p ps => exact ⟨p, ps, rfl⟩
        have hf : f.attrib.seqNum = p % 4096 := (List.cons.inj hseqs).1
        have hp := h.ahead p (List.mem_cons_self ..)
        have hloop := indicateLoop_refines (n := p) hseqs h.sorted (by
          intro y hy
          have hb := h.ahead y hy
          unfold windowSize at hb hp
          omega)
        have hnew : (recvIndicatepktsInOrder c true).2.1.indicateSeq
            = (flush p (p :: ps)).2.1 % 4096 := by
          unfold recvIndicatepktsInOrder
          rw [hq, ← hloop.2.1, ← hf]
        rw [hnew, h.ind, hw]
        refine movedBy_mod ?_ ?_ (by decide)
        · have hge := flush_next_ge (p :: ps) p
          omega
        · refine flush_next_le _ _ (by omega) ?_
          intro y hy
          exact (h.ahead y hy).2
  -- and so does a frame that is queued
  · intro f hs q hok hen
    rw [hw]
    exact h.forward hw hs hok hen

/-- **A windowed control keeps its window.** -/
theorem Windowed.kept (h : Windowed c) : WindowKept c := by
  rcases h.at' with ⟨hi, hnil⟩ | ⟨n, held, hat⟩
  · refine ⟨Or.inl hnil, ?_, ?_, ?_⟩
    · rw [hnil]
      exact Nat.zero_le _
    · have hsame : (recvIndicatepktsInOrder c true).2.1 = c := by
        unfold recvIndicatepktsInOrder
        rw [hnil]
      rw [hsame, movedBy_self]
      exact Nat.zero_le _
    · intro f hs q _ hen
      rw [hnil] at hen
      obtain rfl := Option.some.inj hen
      -- the first frame is indicated at once
      have hseqs : seqs [f] = wrap [f.attrib.seqNum] := by
        show [f.attrib.seqNum] = [f.attrib.seqNum % 4096]
        rw [Nat.mod_eq_of_lt hs]
      have hloop := indicateLoop_refines (n := f.attrib.seqNum + 1) hseqs
        (List.pairwise_singleton _ _) (by
          intro p hp
          rw [List.mem_singleton.mp hp]
          omega)
      have hflush : flush (f.attrib.seqNum + 1) [f.attrib.seqNum]
          = ([f.attrib.seqNum], f.attrib.seqNum + 1, []) := by simp [flush]
      rw [hflush] at hloop
      rw [checkIndicateSeq_fresh hs hi]
      show movedBy _ (indicateLoop ((f.attrib.seqNum + 1) % 4096) [f]).2.1 ≤ _
      rw [hloop.2.1, movedBy_self]
      exact Nat.zero_le _
  · exact hat.kept h.wsize

end

/-! ## Steps and runs -/

section

variable {a a' : Adapter}

theorem recvreorderCtrl_updReorder (a : Adapter) (s s' : StaSlot) (t t' : Tid)
    (c : RecvReorderCtrl) :
    ((a.updReorder s t c).sta s').recvreorderCtrl t'
      = if s' = s ∧ t' = t then c else (a.sta s').recvreorderCtrl t' := by
  unfold Adapter.updReorder Adapter.updSta
  dsimp only
  by_cases hs : s' = s
  · by_cases ht : t' = t
    · rw [if_pos hs, if_pos ⟨hs, ht⟩]
      dsimp only
      rw [if_pos ht]
    · rw [if_pos hs, if_neg (fun h => ht h.2)]
      dsimp only
      rw [if_neg ht]
  · rw [if_neg hs, if_neg (fun h => hs h.1)]

/-- Every control is windowed. -/
def AllWindowed (a : Adapter) : Prop := ∀ s tid, Windowed ((a.sta s).recvreorderCtrl tid)

/-- One control is changed. -/
theorem AllWindowed.updReorder {s : StaSlot} {tid : Tid} {c : RecvReorderCtrl} (h : AllWindowed a)
    (hc : Windowed c) : AllWindowed (a.updReorder s tid c) := by
  intro s' tid'
  rw [recvreorderCtrl_updReorder]
  split
  · exact hc
  · exact h s' tid'

theorem windowed_arrive {r mp : Bool} {c : RecvReorderCtrl} (f : QosFrame) (h : Windowed c)
    (hcalm : c.enable = false → f.Converts mp → ∀ g ∈ c.pendingRecvframeQueue,
      1 ≤ aheadOf ((f.frame.attrib.seqNum + 1) % 4096) g
        ∧ aheadOf ((f.frame.attrib.seqNum + 1) % 4096) g ≤ c.wsizeB - 1) :
    Windowed (recvIndicatepktReorder r mp c f.frame).ctrl := by
  rw [recvIndicatepktReorder_running f.qos]
  cases he : c.enable with
  | true => exact windowed_enabled h he f.qos f.seq
  | false =>
      rcases recvIndicatepktReorder_disabled mp he f.qos with hc | ⟨hconv, hc⟩
      · rw [hc]
        exact h
      · rw [hc]
        have hahead := hcalm he hconv
        rw [h.wsize] at hahead
        exact windowed_restart h (Nat.mod_lt _ (by decide)) hahead

/-- **A calm event keeps every window.** -/
theorem allWindowed_step {e : BaEvent} (h : AllWindowed a) (hok : e.Calm a)
    (hd : baStep a e = .done a') : AllWindowed a' := by
  cases e with
  | arrive s tid f =>
      obtain rfl := Outcome.done.inj hd
      exact h.updReorder (windowed_arrive f (h s tid) hok)
  | timeout s tid =>
      obtain rfl := Outcome.done.inj hd
      exact h.updReorder (windowed_timeout (h s tid))
  | addba addr param accept =>
      obtain rfl := Outcome.done.inj hd
      unfold processAddbaReq
      split
      · exact h
      · rename_i s hs
        -- with nothing pending the window may start anywhere
        exact h.updReorder ⟨(h s (addbaTid param)).wsize, Or.inl ⟨rfl, hok s hs⟩⟩
  | delba addr param =>
      obtain rfl := Outcome.done.inj hd
      unfold onDelba
      split
      · exact h
      · rename_i s hs
        split
        · exact h
        · exact h.updReorder ((h s (delbaTid param)).congr rfl rfl rfl)
  | sendDelba s tid force =>
      obtain rfl := Outcome.done.inj hd
      unfold sendDelbaStaTid
      dsimp only
      split
      · exact h.updReorder ((h s tid).congr rfl rfl rfl)
      · exact h

/-- **The reorder window under renegotiation.** In every run from fresh controls whose events move
`indicate_seq` away from no pending frame. -/
theorem reorder_window_kept {a₀ : Adapter} (h0 : FreshCtrls a₀)
    (h : Reach baStep (fun a e => e.Calm a) a₀ a) (s : StaSlot) (tid : Tid) :
    WindowKept ((a.sta s).recvreorderCtrl tid) := by
  have hall : AllWindowed a := by
    refine h.invariant AllWindowed ?_ ?_
    · intro s tid
      rw [h0 s tid]
      exact ⟨rfl, Or.inl ⟨rfl, rfl⟩⟩
    · intro b b' e hb hok hd
      exact allWindowed_step hb hok hd
  exact (hall s tid).kept

end

/-! ## A second request -/

/-- The station that asks. -/
def askingSta : MacAddr := ⟨2, 0, 0, 0, 0, 1⟩

/-- A driver with that station. -/
def askedDriver : Adapter where
  staHash := [0]
  sta := fun _ => { hwaddr := askingSta, recvreorderCtrl := fun _ => { enable := false } }

theorem askedDriver_fresh : FreshCtrls askedDriver := fun _ _ => rfl

/-- An A-MSDU with sequence number `n`. -/
def qosFrameOf (n : Fin 4096) : QosFrame where
  frame := { id := 0, attrib := { qos := true, amsdu := true, seqNum := n } }
  qos := rfl
  seq := n.isLt

/-- An agreement, and a frame that waits for the one before it. -/
def sampleGap : List BaEvent :=
  [.addba askingSta 0 true, .arrive 0 0 (qosFrameOf 0), .arrive 0 0 (qosFrameOf 2)]

/-- `indicate_seq`, and the sequence numbers that wait. -/
def windowSeen (a : Adapter) : Nat × List Nat :=
  (((a.sta 0).recvreorderCtrl 0).indicateSeq,
    seqs ((a.sta 0).recvreorderCtrl 0).pendingRecvframeQueue)

theorem reorder_window_kept_sample :
    ∃ a, runActions baStep askedDriver sampleGap = .done a ∧ windowSeen a = (1, [2])
      ∧ WindowKept ((a.sta 0).recvreorderCtrl 0) := by
  have hview : (runActions baStep askedDriver sampleGap).view windowSeen = some (1, [2]) := by
    decide
  obtain ⟨a, hrun, hseen⟩ := Outcome.of_view hview
  have hok : RunOk baStep (fun a e => e.Calm a) askedDriver sampleGap := by
    refine ⟨fun _ _ => rfl, ?_⟩
    rintro _ ⟨⟩
    refine ⟨fun he => absurd he (by decide), ?_⟩
    rintro _ ⟨⟩
    refine ⟨fun he => absurd he (by decide), ?_⟩
    rintro _ ⟨⟩
    trivial
  exact ⟨a, hrun, hseen, reorder_window_kept askedDriver_fresh (reach_runActions .start hok hrun) 0 0⟩

/-- A second request comes while the frame waits. -/
theorem addba_breaks_window :
    ¬ ∀ (a₀ a : Adapter), FreshCtrls a₀ → Reach baStep (fun _ _ => True) a₀ a →
      ∀ s tid, WindowKept ((a.sta s).recvreorderCtrl tid) := by
  intro h
  have hview : (runActions baStep askedDriver (sampleGap ++ [.addba askingSta 0 true])).view
      windowSeen = some (0xFFFF, [2]) := by decide
  obtain ⟨a, hrun, hseen⟩ := Outcome.of_view hview
  have hreach : Reach baStep (fun _ _ => True) askedDriver a :=
    reach_runActions .start (RunOk.of_all fun _ _ _ => trivial) hrun
  have hkept := h askedDriver a askedDriver_fresh hreach 0 0
  rcases hkept.window with hnil | ⟨hne, -, -⟩
  · have hpending : seqs ((a.sta 0).recvreorderCtrl 0).pendingRecvframeQueue = [2] :=
      congrArg Prod.snd hseen
    rw [hnil] at hpending
    cases hpending
  · exact hne (congrArg Prod.fst hseen)

end Rtl8812au

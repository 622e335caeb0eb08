import Mathlib.Data.Nat.Bitwise
import Mathlib.Data.List.Forall2
import Rtl8812au.Lib.Window
import Rtl8812au.Recv.Reorder

/-!
# The reorder buffer delivers in order and once

The control of `recv_indicatepkt_reorder` refines the unbounded window of
`Lib/Window.lean`: `indicate_seq` and every sequence number are positions taken
modulo 4096, and the window invariant keeps all positions compared by `SN_LESS`
less than 2048 apart, so that the comparison modulo 4096 is the comparison of the
positions.
-/

namespace Rtl8812au

open Window (Win)

/-! ## The modular comparisons -/

theorem snLess_iff {a b : Nat} (ha : a < 4096) (hb : b < 4096) :
    snLess a b = decide (2048 ≤ (a + 4096 - b) % 4096) := by
  have hand : (a + 2 ^ 16 - b) &&& 2 ^ 11 = ((a + 2 ^ 16 - b).testBit 11).toNat * 2 ^ 11 :=
    Nat.and_two_pow _ _
  have hbit : (a + 2 ^ 16 - b).testBit 11 = decide (2048 ≤ (a + 4096 - b) % 4096) := by
    rw [Nat.testBit_eq_decide_div_mod_eq, decide_eq_decide]
    constructor <;> intro h <;> omega
  show ((a + 2 ^ 16 - b) &&& 2 ^ 11 != 0) = _
  rw [hand, hbit]
  cases decide (2048 ≤ (a + 4096 - b) % 4096) <;> rfl

/-- Positions less than half the modulus apart compare as they are. -/
theorem snLess_mod {x y : Nat} (h1 : x < y + 2048) (h2 : y < x + 2048) :
    snLess (x % 4096) (y % 4096) = decide (x < y) := by
  rw [snLess_iff (Nat.mod_lt _ (by omega)) (Nat.mod_lt _ (by omega)), decide_eq_decide]
  constructor <;> intro h <;> omega

theorem snEqual_mod {x y : Nat} (h1 : x < y + 2048) (h2 : y < x + 2048) :
    snEqual (x % 4096) (y % 4096) = decide (x = y) := by
  unfold snEqual
  rw [Bool.eq_iff_iff, beq_iff_eq, decide_eq_true_eq]
  omega

theorem and_fff (n : Nat) : n &&& 0xFFF = n % 4096 := Nat.and_two_pow_sub_one_eq_mod n 12

/-! ## Each piece of the control against its counterpart on positions -/

/-- The sequence numbers of a queue. -/
def seqs (q : List RecvFrame) : List Nat := q.map (·.attrib.seqNum)

/-- Positions seen modulo the sequence number space. -/
def wrap (ps : List Nat) : List Nat := ps.map (· % 4096)

/-- The walk of `enqueue_reorder_recvframe` is ordered insertion. -/
theorem enqueue_refines {f : RecvFrame} {x : Nat} (hf : f.attrib.seqNum = x % 4096) :
    ∀ {q : List RecvFrame} {ps : List Nat}, seqs q = wrap ps →
      (∀ p ∈ ps, p < x + 2048 ∧ x < p + 2048) →
      (enqueueReorderRecvframe f q).map seqs = (Window.insert x ps).map wrap
  | [], [], _, _ => by simp [enqueueReorderRecvframe, Window.insert, seqs, wrap, hf]
  | [], _ :: _, h, _ => by simp [seqs, wrap] at h
  | _ :: _, [], h, _ => by simp [seqs, wrap] at h
  | g :: q, p :: ps, h, hb => by
      have hg : g.attrib.seqNum = p % 4096 := (List.cons.inj h).1
      have hq : seqs q = wrap ps := (List.cons.inj h).2
      have hp := hb p (List.mem_cons_self ..)
      have ih := enqueue_refines hf hq (fun y hy => hb y (List.mem_cons_of_mem _ hy))
      rw [enqueueReorderRecvframe, Window.insert, hf, hg, snLess_mod hp.1 hp.2,
        snEqual_mod hp.1 hp.2]
      simp only [decide_eq_true_eq]
      split
      · rw [Option.map_map, Option.map_map]
        have hcons : ∀ o : Option (List RecvFrame), o.map (seqs ∘ (g :: ·))
            = (o.map seqs).map ((p % 4096) :: ·) := by
          intro o
          cases o with
          | none => rfl
          | some l => simp [seqs, hg]
        rw [hcons, ih, Option.map_map]
        rfl
      · split
        · rfl
        · simp only [Option.map_some, Option.some.injEq]
          show f.attrib.seqNum :: seqs (g :: q) = x % 4096 :: wrap (p :: ps)
          rw [hf, h]

/-- The loop of `recv_indicatepkts_in_order` is the release from the front. -/
theorem indicateLoop_refines : ∀ {q : List RecvFrame} {ps : List Nat} {n : Nat},
    seqs q = wrap ps → ps.Pairwise (· < ·) → (∀ p ∈ ps, p < n + 2048 ∧ n < p + 2048) →
      seqs (indicateLoop (n % 4096) q).1 = wrap (Window.flush n ps).1
        ∧ (indicateLoop (n % 4096) q).2.1 = (Window.flush n ps).2.1 % 4096
        ∧ seqs (indicateLoop (n % 4096) q).2.2 = wrap (Window.flush n ps).2.2
  | [], [], _, _, _, _ => by simp [indicateLoop, Window.flush, seqs, wrap]
  | [], _ :: _, _, h, _, _ => by simp [seqs, wrap] at h
  | _ :: _, [], _, h, _, _ => by simp [seqs, wrap] at h
  | f :: q, p :: ps, n, h, hs, hb => by
      have hf : f.attrib.seqNum = p % 4096 := (List.cons.inj h).1
      have hq : seqs q = wrap ps := (List.cons.inj h).2
      obtain ⟨hlt, hs'⟩ := List.pairwise_cons.mp hs
      have hp := hb p (List.mem_cons_self ..)
      have hb' := fun y hy => hb y (List.mem_cons_of_mem p hy)
      rw [indicateLoop, Window.flush, hf, snLess_mod hp.2 hp.1, snEqual_mod hp.2 hp.1]
      by_cases hle : p ≤ n
      · have hstart : (if decide (n = p) = true then (n % 4096 + 1) &&& 0xFFF else n % 4096)
            = (if p = n then n + 1 else n) % 4096 := by
          by_cases hpn : p = n
          · subst hpn
            simp only [decide_true, if_true]
            rw [and_fff]
            omega
          · rw [if_neg hpn, if_neg (by simp; omega)]
        -- the start moves only past `p`, and everything behind `p` is past that
        have hb'' : ∀ y ∈ ps, y < (if p = n then n + 1 else n) + 2048
            ∧ (if p = n then n + 1 else n) < y + 2048 := by
          intro y hy
          have h1 := hb' y hy
          have h2 := hlt y hy
          split <;> omega
        have ih := indicateLoop_refines hq hs' hb''
        rw [if_pos (by simp; omega), if_pos hle, hstart]
        refine ⟨?_, ih.2.1, ih.2.2⟩
        show f.attrib.seqNum :: seqs _ = p % 4096 :: wrap _
        rw [hf, ih.1]
      · rw [if_neg (by simp; omega), if_neg hle]
        exact ⟨rfl, rfl, h⟩

/-- The position of the next occurrence of sequence number `s` from `n` on. -/
def unwrap (n s : Nat) : Nat := n + (s + 4096 - n % 4096) % 4096

theorem unwrap_mod {n s : Nat} (hs : s < 4096) : unwrap n s % 4096 = s := by
  unfold unwrap; omega

/-- A sequence number from the half behind the window start is refused. -/
theorem checkIndicateSeq_old {c : RecvReorderCtrl} {n s : Nat} (hs : s < 4096)
    (hc : c.indicateSeq = n % 4096) (h : n + 2048 ≤ unwrap n s) :
    checkIndicateSeq c s = (c, false) := by
  have hne : (n % 4096 == 0xFFFF) = false := by
    rw [beq_eq_false_iff_ne]; omega
  have hless : snLess s (n % 4096) = true := by
    rw [snLess_iff hs (Nat.mod_lt _ (by omega)), decide_eq_true_eq]
    unfold unwrap at h
    omega
  unfold checkIndicateSeq
  simp only [hne, hc, hless, Bool.false_eq_true, if_false, if_true]

/-- One from the half ahead is let in, and `indicate_seq` slides as the window
start does. -/
theorem checkIndicateSeq_new {c : RecvReorderCtrl} {W n s : Nat} (hs : s < 4096)
    (hW : 1 ≤ W) (hW' : W ≤ 255) (hcW : c.wsizeB = W)
    (hc : c.indicateSeq = n % 4096) (h : unwrap n s < n + 2048) :
    checkIndicateSeq c s
      = ({ c with indicateSeq := Window.slide W n (unwrap n s) % 4096 }, true) := by
  have hge : n ≤ unwrap n s := by unfold unwrap; omega
  have hmod := @unwrap_mod n s hs
  generalize hx : unwrap n s = x at h hge hmod ⊢
  have hne : (n % 4096 == 0xFFFF) = false := by
    rw [beq_eq_false_iff_ne]; omega
  have hless : snLess s (n % 4096) = false := by
    rw [← hmod, snLess_mod h (by omega), decide_eq_false_iff_not]; omega
  have heq : snEqual s (n % 4096) = decide (x = n) := by
    rw [← hmod, snEqual_mod h (by omega)]
  have hwend : (n % 4096 + W + 0xFFF) &&& 0xFFF = (n + W - 1) % 4096 := by
    rw [and_fff]; omega
  have hend : snLess ((n + W - 1) % 4096) s = decide (n + W - 1 < x) := by
    rw [← hmod, snLess_mod (by omega) (by omega)]
  unfold checkIndicateSeq
  simp only [hne, hc, hcW, hless, heq, hwend, hend, Bool.false_eq_true, if_false,
    decide_eq_true_eq]
  unfold Window.slide
  by_cases h1 : x = n
  · rw [if_pos h1, if_pos h1, and_fff]
    simp only [Prod.mk.injEq, and_true, RecvReorderCtrl.mk.injEq, true_and]
    omega
  · rw [if_neg h1, if_neg h1]
    by_cases h2 : n + W ≤ x
    · rw [if_pos (by omega : n + W - 1 < x), if_pos h2]
      by_cases h3 : W ≤ s + 1
      · rw [if_pos h3]
        simp only [Prod.mk.injEq, and_true, RecvReorderCtrl.mk.injEq, true_and]
        omega
      · rw [if_neg h3]
        simp only [Prod.mk.injEq, and_true, RecvReorderCtrl.mk.injEq, true_and]
        omega
    · rw [if_neg (by omega : ¬ n + W - 1 < x), if_neg h2, ← hc, ← hcW]

/-- The initial `0xFFFF` stands for whatever sequence number comes first. -/
theorem checkIndicateSeq_fresh {c : RecvReorderCtrl} {s : Nat} (hs : s < 4096)
    (hc : c.indicateSeq = 0xFFFF) :
    checkIndicateSeq c s = ({ c with indicateSeq := (s + 1) % 4096 }, true) := by
  have hless : snLess s s = false := by
    rw [snLess_iff hs hs, decide_eq_false_iff_not]; omega
  unfold checkIndicateSeq
  simp only [hc, hless, snEqual, beq_self_eq_true, if_true, Bool.false_eq_true, if_false, and_fff]

/-! ## Runs -/

/-- What can happen to a reorder control: a frame is passed to
`recv_indicatepkt_reorder` (in MP state or not), or its timer expires. -/
inductive ReorderEvent where
  | arrive (mpState : Bool) (f : RecvFrame)
  | timeout

/-- The arrivals the control is for: QoS frames with a 12-bit sequence number. -/
def ReorderEvent.Ok : ReorderEvent → Prop
  | .arrive _ f => f.attrib.qos = true ∧ f.attrib.seqNum < 4096
  | .timeout => True

/-- The arrivals of a run, by frame. -/
def arrivals : List ReorderEvent → List Nat
  | [] => []
  | .arrive _ f :: evs => f.id :: arrivals evs
  | .timeout :: evs => arrivals evs

/-- A delivered frame with the total advance of `indicate_seq` before and after
the event that delivered it, and how far `indicate_seq` was past the frame then. -/
structure Delivery where
  frame : RecvFrame
  start : Nat
  stop : Nat
  past : Nat

/-- A reorder control with the record of what happened to it. -/
structure ReorderRun where
  ctrl : RecvReorderCtrl
  adv : Nat := 0
  delivered : List Delivery := []
  rejected : List (Bool × RecvReorderCtrl × RecvFrame) := []

/-- How far `indicate_seq` moves forward, modulo 4096; the first value it takes
is no move. -/
def advance (ind ind' : Nat) : Nat :=
  if ind = 0xFFFF then 0 else (ind' + 4096 - ind) % 4096

namespace ReorderRun

/-- Record a control step that delivered the frames `out`. -/
def deliver (r : ReorderRun) (c : RecvReorderCtrl) (out : List RecvFrame) : ReorderRun :=
  let adv := r.adv + advance r.ctrl.indicateSeq c.indicateSeq
  { r with
    ctrl := c
    adv := adv
    delivered := r.delivered ++ out.map fun f =>
      ⟨f, r.adv, adv, (c.indicateSeq + 4096 - f.attrib.seqNum) % 4096⟩ }

def step (r : ReorderRun) : ReorderEvent → ReorderRun
  | .arrive mp f =>
    let res := recvIndicatepktReorder true mp r.ctrl f
    let r' := r.deliver res.ctrl res.indicated
    if res.ret then r' else { r' with rejected := r.rejected ++ [(mp, r.ctrl, f)] }
  | .timeout =>
    let res := rtwReorderingCtrlTimeoutHandler true r.ctrl
    r.deliver res.1 res.2

def run (r : ReorderRun) (evs : List ReorderEvent) : ReorderRun := evs.foldl step r

end ReorderRun

/-- The form in which a frame enters the pending queue. -/
def queuedForm (mp : Bool) (f : RecvFrame) : RecvFrame :=
  if f.attrib.amsdu then f else (wlanhdrToEthhdr mp f).1

/-- The three ways a frame is turned away: it has no room for an Ethernet header,
its sequence number is behind the window, or that number is already waiting. -/
def Refused (mp : Bool) (c : RecvReorderCtrl) (f : RecvFrame) : Prop :=
  (f.attrib.amsdu = false ∧ (wlanhdrToEthhdr mp f).2 = false)
    ∨ (checkIndicateSeq c f.attrib.seqNum).2 = false
    ∨ enqueueReorderRecvframe (queuedForm mp f)
        (checkIndicateSeq c f.attrib.seqNum).1.pendingRecvframeQueue = none

@[simp] theorem queuedForm_id (mp : Bool) (f : RecvFrame) : (queuedForm mp f).id = f.id := by
  unfold queuedForm; split <;> simp

@[simp] theorem queuedForm_seqNum (mp : Bool) (f : RecvFrame) :
    (queuedForm mp f).attrib.seqNum = f.attrib.seqNum := by
  unfold queuedForm; split <;> simp

theorem wlanhdrToEthhdr_qos (mp : Bool) (f : RecvFrame) :
    (wlanhdrToEthhdr mp f).1.attrib.qos = f.attrib.qos := by
  rw [(wlanhdrToEthhdr_same mp f).2]

/-- **What an enabled control does with a QoS frame**: turn it away at the header,
or take it through steps `s2` to `s4`. -/
theorem recvIndicatepktReorder_cases (mp : Bool) {c : RecvReorderCtrl} {f : RecvFrame}
    (he : c.enable = true) (hq : f.attrib.qos = true) :
    (∃ g, f.attrib.amsdu = false ∧ (wlanhdrToEthhdr mp f).2 = false
        ∧ recvIndicatepktReorder true mp c f = ⟨false, c, g, []⟩)
      ∨ recvIndicatepktReorder true mp c f = reorderInsert c (queuedForm mp f) := by
  unfold recvIndicatepktReorder queuedForm
  cases ha : f.attrib.amsdu with
  | true => right; simp [he]
  | false =>
      cases ho : (wlanhdrToEthhdr mp f).2 with
      | false => left; exact ⟨(wlanhdrToEthhdr mp f).1, rfl, rfl, by simp [ho]⟩
      | true => right; simp [ho, he, wlanhdrToEthhdr_qos, hq]

/-- Only `indicate_seq` is changed by the window check. -/
theorem checkIndicateSeq_frame (c : RecvReorderCtrl) (s : Nat) :
    (checkIndicateSeq c s).1 = { c with indicateSeq := (checkIndicateSeq c s).1.indicateSeq } := by
  unfold checkIndicateSeq
  dsimp only
  split_ifs <;> rfl

/-- **Steps `s2` to `s4`, unfolded once**: refused by the window check, refused as
a duplicate, or let in and the front of the queue indicated. -/
theorem reorderInsert_cases (c : RecvReorderCtrl) (f : RecvFrame) :
    ((checkIndicateSeq c f.attrib.seqNum).2 = false
        ∧ reorderInsert c f = ⟨false, (checkIndicateSeq c f.attrib.seqNum).1, f, []⟩)
      ∨ ((checkIndicateSeq c f.attrib.seqNum).2 = true
        ∧ enqueueReorderRecvframe f c.pendingRecvframeQueue = none
        ∧ reorderInsert c f = ⟨false, (checkIndicateSeq c f.attrib.seqNum).1, f, []⟩)
      ∨ ∃ q b, (checkIndicateSeq c f.attrib.seqNum).2 = true
        ∧ enqueueReorderRecvframe f c.pendingRecvframeQueue = some q
        ∧ reorderInsert c f = ⟨true,
            { c with
              indicateSeq := (indicateLoop (checkIndicateSeq c f.attrib.seqNum).1.indicateSeq q).2.1
              pendingRecvframeQueue :=
                (indicateLoop (checkIndicateSeq c f.attrib.seqNum).1.indicateSeq q).2.2
              reorderingCtrlTimer := b }, f,
            (indicateLoop (checkIndicateSeq c f.attrib.seqNum).1.indicateSeq q).1⟩ := by
  have hfr := checkIndicateSeq_frame c f.attrib.seqNum
  have hpend : (checkIndicateSeq c f.attrib.seqNum).1.pendingRecvframeQueue
      = c.pendingRecvframeQueue := by rw [hfr]
  unfold reorderInsert
  cases hok : (checkIndicateSeq c f.attrib.seqNum).2 with
  | false => left; exact ⟨rfl, by simp [hok]⟩
  | true =>
      right
      cases hen : enqueueReorderRecvframe f c.pendingRecvframeQueue with
      | none => left; exact ⟨rfl, rfl, by simp [hok, hpend, hen]⟩
      | some q =>
          right
          refine ⟨q, !(indicateLoop (checkIndicateSeq c f.attrib.seqNum).1.indicateSeq q).2.2.isEmpty,
            rfl, rfl, ?_⟩
          simp only [hok, hpend, hen, Bool.not_true, Bool.false_eq_true, if_false,
            recvIndicatepktsInOrder]
          rw [hfr]

/-- A timer expiry, unfolded once. -/
theorem timeoutHandler_cases (c : RecvReorderCtrl) :
    (∃ b, c.pendingRecvframeQueue = []
        ∧ rtwReorderingCtrlTimeoutHandler true c = ({ c with reorderingCtrlTimer := b }, []))
      ∨ ∃ f q b, c.pendingRecvframeQueue = f :: q
        ∧ rtwReorderingCtrlTimeoutHandler true c
          = ({ c with
                indicateSeq := (indicateLoop f.attrib.seqNum (f :: q)).2.1
                pendingRecvframeQueue := (indicateLoop f.attrib.seqNum (f :: q)).2.2
                reorderingCtrlTimer := b },
              (indicateLoop f.attrib.seqNum (f :: q)).1) := by
  unfold rtwReorderingCtrlTimeoutHandler recvIndicatepktsInOrder
  cases hp : c.pendingRecvframeQueue with
  | nil => left; exact ⟨true, rfl, by simp⟩
  | cons f q =>
      right
      exact ⟨f, q, !(indicateLoop f.attrib.seqNum (f :: q)).2.2.isEmpty, rfl, by simp⟩

/-! ## Every arrival is in exactly one place -/

theorem enqueue_perm {f : RecvFrame} : ∀ {q q' : List RecvFrame},
    enqueueReorderRecvframe f q = some q' → q'.Perm (f :: q)
  | [], q', h => by
      rw [enqueueReorderRecvframe] at h
      rw [← Option.some.inj h]
  | g :: q, q', h => by
      rw [enqueueReorderRecvframe] at h
      split at h
      · obtain ⟨q1, hq1, rfl⟩ := Option.map_eq_some_iff.mp h
        exact ((enqueue_perm hq1).cons g).trans (List.Perm.swap f g q)
      · split at h
        · exact absurd h (by simp)
        · rw [← Option.some.inj h]

theorem indicateLoop_append : ∀ (q : List RecvFrame) (n : Nat),
    (indicateLoop n q).1 ++ (indicateLoop n q).2.2 = q
  | [], _ => rfl
  | f :: q, n => by
      rw [indicateLoop]
      split
      · simp only [List.cons_append, indicateLoop_append q]
      · rfl

namespace ReorderRun

/-- The frames that were delivered, were turned away, or are still waiting. -/
def placed (r : ReorderRun) : List Nat :=
  r.delivered.map (·.frame.id) ++ r.rejected.map (·.2.2.id)
    ++ r.ctrl.pendingRecvframeQueue.map (·.id)

/-- The parts of a control that no step changes. -/
structure Config (W : Nat) (r : ReorderRun) : Prop where
  enable : r.ctrl.enable = true
  wsize : r.ctrl.wsizeB = W

variable {W : Nat} {r : ReorderRun}

theorem delivered_deliver (c : RecvReorderCtrl) (out : List RecvFrame) :
    (r.deliver c out).delivered.map (·.frame.id)
      = r.delivered.map (·.frame.id) ++ out.map (·.id) := by
  simp [deliver, Function.comp_def]

theorem config_step (h : Config W r) (ev : ReorderEvent) (hev : ev.Ok) : Config W (r.step ev) := by
  obtain ⟨he, hw⟩ := h
  cases ev with
  | timeout =>
      rcases timeoutHandler_cases r.ctrl with ⟨b, -, heq⟩ | ⟨f, q, b, -, heq⟩
      · rw [step, heq]; exact ⟨he, hw⟩
      · rw [step, heq]; exact ⟨he, hw⟩
  | arrive mp f =>
      have hfr := checkIndicateSeq_frame r.ctrl (queuedForm mp f).attrib.seqNum
      rw [step]
      rcases recvIndicatepktReorder_cases mp he hev.1 with ⟨g, -, -, heq⟩ | heq
      · rw [heq]; exact ⟨he, hw⟩
      · rw [heq]
        rcases reorderInsert_cases r.ctrl (queuedForm mp f) with
          ⟨-, h1⟩ | ⟨-, -, h1⟩ | ⟨q, b, -, -, h1⟩
        · rw [h1, hfr]; exact ⟨he, hw⟩
        · rw [h1, hfr]; exact ⟨he, hw⟩
        · rw [h1]; exact ⟨he, hw⟩

/-- **One event moves one frame**: the arrival, if it is one, joins those placed. -/
theorem placed_step (h : Config W r) (ev : ReorderEvent) (hev : ev.Ok) :
    (r.step ev).placed.Perm (r.placed ++ arrivals [ev]) := by
  obtain ⟨he, -⟩ := h
  refine List.perm_iff_count.mpr fun a => ?_
  cases ev with
  | timeout =>
      rcases timeoutHandler_cases r.ctrl with ⟨b, -, heq⟩ | ⟨f, q, b, hp, heq⟩
      · rw [step, heq]
        simp [placed, arrivals, deliver]
      · have happ := congrArg (fun l => (l.map (·.id)).count a)
          (indicateLoop_append (f :: q) f.attrib.seqNum)
        rw [step, heq]
        simp only [placed, delivered_deliver, arrivals, hp, List.count_append,
          List.map_append, List.count_nil] at happ ⊢
        simp only [deliver]
        omega
  | arrive mp f =>
      have hfr := checkIndicateSeq_frame r.ctrl (queuedForm mp f).attrib.seqNum
      rw [step]
      -- a frame that is turned away changes nothing but the record
      have hrej : ∀ c : RecvReorderCtrl, c.pendingRecvframeQueue = r.ctrl.pendingRecvframeQueue →
          ({ r.deliver c [] with rejected := r.rejected ++ [(mp, r.ctrl, f)] }
              : ReorderRun).placed.count a = (r.placed ++ arrivals [.arrive mp f]).count a := by
        intro c hc
        simp only [placed, delivered_deliver, arrivals, List.count_append, List.map_append,
          List.map_nil, List.map_cons, List.append_nil]
        simp only [deliver, hc]
        omega
      rcases recvIndicatepktReorder_cases mp he hev.1 with ⟨g, -, -, heq⟩ | heq
      · rw [heq]
        exact hrej r.ctrl rfl
      · rw [heq]
        rcases reorderInsert_cases r.ctrl (queuedForm mp f) with
          ⟨-, h1⟩ | ⟨-, -, h1⟩ | ⟨q, b, -, hen, h1⟩
        · rw [h1]; exact hrej _ (by rw [hfr])
        · rw [h1]; exact hrej _ (by rw [hfr])
        · have happ := congrArg (fun l => (l.map (·.id)).count a) (indicateLoop_append q
            (checkIndicateSeq r.ctrl (queuedForm mp f).attrib.seqNum).1.indicateSeq)
          have hperm := ((enqueue_perm hen).map (·.id)).count_eq a
          rw [h1]
          simp only [placed, delivered_deliver, arrivals, List.count_append, List.map_append,
            List.map_cons, List.count_cons, List.count_nil, queuedForm_id, if_true] at happ hperm ⊢
          simp only [deliver]
          omega

/-- Whoever is on the record of rejections was refused for one of the three reasons. -/
def RejectedRefused (r : ReorderRun) : Prop := ∀ x ∈ r.rejected, Refused x.1 x.2.1 x.2.2

theorem rejectedRefused_step (h : Config W r) (hr : r.RejectedRefused) (ev : ReorderEvent)
    (hev : ev.Ok) : (r.step ev).RejectedRefused := by
  obtain ⟨he, -⟩ := h
  cases ev with
  | timeout => exact hr
  | arrive mp f =>
      have hfr := checkIndicateSeq_frame r.ctrl (queuedForm mp f).attrib.seqNum
      have hseq := queuedForm_seqNum mp f
      have hadd : Refused mp r.ctrl f → ∀ x ∈ r.rejected ++ [(mp, r.ctrl, f)],
          Refused x.1 x.2.1 x.2.2 := by
        intro hf x hx
        rcases List.mem_append.mp hx with hx | hx
        · exact hr x hx
        · rw [List.mem_singleton.mp hx]; exact hf
      rw [step]
      rcases recvIndicatepktReorder_cases mp he hev.1 with ⟨g, ha, hw, heq⟩ | heq
      · rw [heq]
        exact hadd (Or.inl ⟨ha, hw⟩)
      · rw [heq]
        rcases reorderInsert_cases r.ctrl (queuedForm mp f) with
          ⟨hk, h1⟩ | ⟨-, hen, h1⟩ | ⟨q, b, -, -, h1⟩
        · rw [h1]
          exact hadd (Or.inr (Or.inl (by rw [← hseq]; exact hk)))
        · rw [h1]
          exact hadd (Or.inr (Or.inr (by rw [← hseq, hfr]; exact hen)))
        · rw [h1]; exact hr

/-! ## The control refines the window -/

/-- A recorded delivery is the one of position `p`, with positions counted from `b`
plus the total advance. -/
structure DeliveredAt (b : Nat) (d : Delivery) (p : Nat) : Prop where
  seq : d.frame.attrib.seqNum = p % 4096
  /-- Its event began with the window start less than half the space behind `p`. -/
  ahead : p < b + d.start + 2048
  /-- And ended with it `d.past` beyond. -/
  past : b + d.stop = p + d.past
  near : d.past ≤ 2048

/-- The simulation relation between a run of the control and the window. -/
structure Sim (W b : Nat) (r : ReorderRun) (w : Win) : Prop where
  inv : w.Inv W 2048
  next : r.ctrl.indicateSeq = w.next % 4096
  pos : w.next = b + r.adv
  held : seqs r.ctrl.pendingRecvframeQueue = wrap w.held
  out : List.Forall₂ (DeliveredAt b) r.delivered w.out

theorem deliveredAt_map {b n start adv : Nat} (hn : n = b + adv) (h2048 : n ≤ b + start + 2048) :
    ∀ {out : List RecvFrame} {ps : List Nat}, seqs out = wrap ps →
      (∀ p ∈ ps, b + start ≤ p ∧ p < n) →
      List.Forall₂ (DeliveredAt b)
        (out.map fun f => ⟨f, start, adv, (n % 4096 + 4096 - f.attrib.seqNum) % 4096⟩) ps
  | [], [], _, _ => List.Forall₂.nil
  | [], _ :: _, h, _ => by simp [seqs, wrap] at h
  | _ :: _, [], h, _ => by simp [seqs, wrap] at h
  | f :: out, p :: ps, h, hp => by
      have hf : f.attrib.seqNum = p % 4096 := (List.cons.inj h).1
      have hb := hp p (List.mem_cons_self ..)
      have ih := deliveredAt_map hn h2048 (List.cons.inj h).2
        (fun y hy => hp y (List.mem_cons_of_mem _ hy))
      refine List.Forall₂.cons ⟨hf, ?_, ?_, ?_⟩ ih <;> dsimp only <;> omega

theorem advance_eq {n n' : Nat} (h : n ≤ n') (h' : n' ≤ n + 2048) :
    advance (n % 4096) (n' % 4096) = n' - n := by
  unfold advance
  rw [if_neg (by omega)]
  omega

/-- **Any control step that matches a window step keeps the simulation.** -/
theorem sim_deliver {b : Nat} {w w' : Win} {c : RecvReorderCtrl} {out : List RecvFrame}
    {ps : List Nat} (h : Sim W b r w) (hi : w'.Inv W 2048) (hst : Win.Step 2048 w w')
    (hn : c.indicateSeq = w'.next % 4096) (hh : seqs c.pendingRecvframeQueue = wrap w'.held)
    (hps : w'.out = w.out ++ ps) (ho : seqs out = wrap ps) : Sim W b (r.deliver c out) w' := by
  obtain ⟨hmono, hreach, ps', hps', hrel⟩ := hst
  have hpp : ps = ps' := List.append_cancel_left (hps.symm.trans hps')
  subst hpp
  have hadv : r.adv + advance r.ctrl.indicateSeq c.indicateSeq = w'.next - b := by
    rw [h.next, hn, advance_eq hmono hreach]
    have := h.pos
    omega
  have hpos : w'.next = b + (r.adv + advance r.ctrl.indicateSeq c.indicateSeq) := by
    have := h.pos
    omega
  refine ⟨hi, hn, hpos, hh, ?_⟩
  show List.Forall₂ (DeliveredAt b) (r.delivered ++ out.map _) w'.out
  rw [hps]
  refine List.rel_append h.out ?_
  rw [hn] at hpos ⊢
  refine deliveredAt_map hpos ?_ ho ?_
  · rw [← h.pos]; exact hreach
  · intro p hp
    rw [← h.pos]
    exact hrel p hp

theorem sim_rejected {b : Nat} {w : Win} (h : Sim W b r w)
    (l : List (Bool × RecvReorderCtrl × RecvFrame)) : Sim W b { r with rejected := l } w :=
  ⟨h.inv, h.next, h.pos, h.held, h.out⟩

/-- A control step that leaves `indicate_seq` and the queue alone. -/
theorem sim_idle {b : Nat} {w : Win} {c : RecvReorderCtrl} (h : Sim W b r w)
    (hc : c.indicateSeq = r.ctrl.indicateSeq)
    (hq : c.pendingRecvframeQueue = r.ctrl.pendingRecvframeQueue) : Sim W b (r.deliver c []) w :=
  sim_deliver h h.inv (Window.Win.Step.refl _ w) (hc.trans h.next)
    (by rw [hq]; exact h.held) (List.append_nil _).symm rfl

/-- Everything in the queue after a window step is in order. -/
theorem sorted_of_flush {H n : Nat} {out q held : List Nat} {m : Nat}
    (h : Win.Inv W H ⟨m, held, out ++ (Window.flush n q).1⟩)
    (hh : held = (Window.flush n q).2.2) : q.Pairwise (· < ·) := by
  have hc := Window.chain_pairwise h.chain
  rw [hh, List.append_assoc, Window.flush_append] at hc
  exact (List.pairwise_append.mp hc).2.1

/-- **A timer expiry is `Win.expire`.** -/
theorem sim_timeout {b : Nat} {w : Win} (hW' : W ≤ 255) (h : Sim W b r w) :
    ∃ w', Sim W b (r.step .timeout) w' := by
  rcases timeoutHandler_cases r.ctrl with ⟨t, -, heq⟩ | ⟨f, q, t, hq, heq⟩
  · rw [step, heq]
    exact ⟨w, sim_idle h rfl rfl⟩
  · rw [step, heq]
    obtain ⟨hi, hst⟩ := Window.expire_inv (by omega) h.inv
    have hheld := h.held
    rw [hq] at hheld
    unfold Window.Win.expire at hi hst
    cases hw : w.held with
    | nil => rw [hw] at hheld; simp [seqs, wrap] at hheld
    | cons p ps =>
        rw [hw] at hheld
        simp only [hw] at hi hst
        have hf : f.attrib.seqNum = p % 4096 := (List.cons.inj hheld).1
        have hsort : (p :: ps).Pairwise (· < ·) := sorted_of_flush hi rfl
        have hahead := h.inv.ahead
        rw [hw] at hahead
        have hp := hahead p (List.mem_cons_self ..)
        have hl := indicateLoop_refines (n := p) hheld hsort (by
          intro y hy
          have := hahead y hy
          omega)
        rw [hf]
        exact ⟨_, sim_deliver h hi hst hl.2.1 hl.2.2 rfl hl.1⟩

/-- **An arrival is `Win.accept`, or is turned away.** -/
theorem sim_arrive {b : Nat} {w : Win} {mp : Bool} {f : RecvFrame} (hW : 1 ≤ W) (hW' : W ≤ 255)
    (hc : Config W r) (hf : (ReorderEvent.arrive mp f).Ok) (h : Sim W b r w) :
    ∃ w', Sim W b (r.step (.arrive mp f)) w' := by
  obtain ⟨hqos, hs⟩ := hf
  rw [step]
  rcases recvIndicatepktReorder_cases mp hc.enable hqos with ⟨g, -, -, heq⟩ | heq
  · rw [heq]
    exact ⟨w, sim_rejected (sim_idle h rfl rfl) _⟩
  · rw [heq]
    have hgs := queuedForm_seqNum mp f
    generalize queuedForm mp f = g at hgs
    rw [← hgs] at hs
    have hge : w.next ≤ unwrap w.next g.attrib.seqNum := by unfold unwrap; omega
    -- less than half of the numbers ahead it is new; otherwise it is taken for an old one
    by_cases hx : unwrap w.next g.attrib.seqNum < w.next + 2048
    · have hck := checkIndicateSeq_new hs hW hW' hc.wsize h.next hx
      have hmod := @unwrap_mod w.next g.attrib.seqNum hs
      generalize unwrap w.next g.attrib.seqNum = x at hge hx hck hmod
      have hens := enqueue_refines hmod.symm h.held (by
        intro p hp
        have := h.inv.ahead p hp
        omega)
      rcases reorderInsert_cases r.ctrl g with ⟨hk, -⟩ | ⟨-, hen, h1⟩ | ⟨q, t, -, hen, h1⟩
      · rw [hck] at hk
        exact absurd hk (by simp)
      · -- a duplicate waits inside the window, so the check moved nothing
        rw [hen] at hens
        have hmem := Window.insert_none (Option.map_eq_none_iff.mp hens.symm)
        have hin := h.inv.ahead x hmem
        rw [h1, hck, Window.slide_of_mem hin.1 hin.2, ← h.next]
        exact ⟨w, sim_rejected (sim_idle h rfl rfl) _⟩
      · rw [hen] at hens
        obtain ⟨ps, hins, hps⟩ := Option.map_eq_some_iff.mp hens.symm
        have hacc : w.accept W x = some ⟨(Window.flush (Window.slide W w.next x) ps).2.1,
            (Window.flush (Window.slide W w.next x) ps).2.2,
            w.out ++ (Window.flush (Window.slide W w.next x) ps).1⟩ := by
          rw [Window.Win.accept, hins]
          rfl
        obtain ⟨hi, hst⟩ := Window.accept_inv (by omega) (by omega) h.inv hge hx hacc
        have hsl : w.next ≤ Window.slide W w.next x ∧ Window.slide W w.next x ≤ x + 1 := by
          unfold Window.slide
          split_ifs <;> omega
        -- the window slides, the frame is put in, and what is in order is let go
        have hl := indicateLoop_refines (n := Window.slide W w.next x) hps.symm
          (sorted_of_flush hi rfl) (by
            intro p hp
            rcases Window.insert_mem hins p hp with rfl | hpw
            · omega
            · have := h.inv.ahead p hpw
              omega)
        rw [h1, hck]
        exact ⟨_, sim_deliver h hi hst hl.2.1 hl.2.2 rfl hl.1⟩
    · have hck := checkIndicateSeq_old hs h.next (by omega)
      rcases reorderInsert_cases r.ctrl g with ⟨-, h1⟩ | ⟨hk, -⟩ | ⟨q, t, hk, -⟩
      · rw [h1, hck]
        exact ⟨w, sim_rejected (sim_idle h rfl rfl) _⟩
      · rw [hck] at hk
        exact absurd hk (by simp)
      · rw [hck] at hk
        exact absurd hk (by simp)

/-- Nothing has come in yet. -/
structure Fresh (r : ReorderRun) : Prop where
  seq : r.ctrl.indicateSeq = 0xFFFF
  pending : r.ctrl.pendingRecvframeQueue = []
  delivered : r.delivered = []
  adv : r.adv = 0

/-- **The first frame let in fixes the window.** -/
theorem fresh_arrive {mp : Bool} {f : RecvFrame} (hW : 1 ≤ W) (hW' : W ≤ 255)
    (hc : Config W r) (hf : (ReorderEvent.arrive mp f).Ok) (h : r.Fresh) :
    (r.step (.arrive mp f)).Fresh ∨ ∃ b w, Sim W b (r.step (.arrive mp f)) w := by
  obtain ⟨hqos, hs⟩ := hf
  have hidle : advance r.ctrl.indicateSeq r.ctrl.indicateSeq = 0 := by
    rw [h.seq]; rfl
  rw [step]
  rcases recvIndicatepktReorder_cases mp hc.enable hqos with ⟨g, -, -, heq⟩ | heq
  -- the frame is dropped before it gets to the window
  · left
    rw [heq]
    refine ⟨h.seq, h.pending, ?_, ?_⟩
    · simp [deliver, h.delivered]
    · simp [deliver, h.adv, hidle]
  · right
    rw [heq]
    -- the first number is where the window starts, and it is let go at once
    have hgs := queuedForm_seqNum mp f
    generalize queuedForm mp f = g at hgs
    rw [← hgs] at hs
    have hck := checkIndicateSeq_fresh hs h.seq
    have hgm : g.attrib.seqNum = g.attrib.seqNum % 4096 := by omega
    generalize hx : g.attrib.seqNum = x at hs hck hgm
    have hacc : Window.Win.accept W ⟨x, [], []⟩ x = some ⟨x + 1, [], [x]⟩ := by
      simp [Window.Win.accept, Window.insert, Window.slide, Window.flush]
    have hi := Window.accept_inv (by omega) (by omega) (Window.init_inv W 2048 x)
      (Nat.le_refl _) (by show x < x + 2048; omega) hacc
    have hfl : Window.flush (x + 1) [x] = ([x], x + 1, []) := by simp [Window.flush]
    have hseq : seqs [g] = wrap [x] := by simp [seqs, wrap, hx, ← hgm]
    have hl := indicateLoop_refines (n := x + 1) hseq (List.pairwise_singleton _ _)
      (by simp; omega)
    rw [hfl] at hl
    have hout := indicateLoop_append [g] ((x + 1) % 4096)
    rw [List.map_eq_nil_iff.mp hl.2.2, List.append_nil] at hout
    -- a window that is fresh takes every number, and an empty queue any frame
    rcases reorderInsert_cases r.ctrl g with ⟨hk, -⟩ | ⟨-, hen, -⟩ | ⟨q, t, -, hen, h1⟩
    · rw [hx, hck] at hk
      exact absurd hk (by simp)
    · rw [h.pending] at hen
      exact absurd hen (by simp [enqueueReorderRecvframe])
    · rw [h.pending, enqueueReorderRecvframe] at hen
      rw [← Option.some.inj hen, hx, hck] at h1
      rw [h1]
      have hadv : advance r.ctrl.indicateSeq ((x + 1) % 4096) = 0 := by rw [h.seq]; rfl
      refine ⟨x + 1, ⟨x + 1, [], [x]⟩, hi.1, hl.2.1, ?_, hl.2.2, ?_⟩
      · simp only [deliver, hl.2.1, h.adv, hadv, if_true]
      · simp only [deliver, hl.2.1, h.adv, hadv, h.delivered, hout, List.nil_append, if_true,
          List.map_cons, List.map_nil]
        refine List.Forall₂.cons ⟨hx.trans hgm, ?_, ?_, ?_⟩ List.Forall₂.nil <;> dsimp only <;> omega

/-- **The run invariant**: nothing has come in yet, or the control simulates a
window. -/
structure Ordered (W : Nat) (r : ReorderRun) : Prop where
  config : Config W r
  sim : r.Fresh ∨ ∃ b w, Sim W b r w

theorem ordered_step (hW : 1 ≤ W) (hW' : W ≤ 255) (h : Ordered W r) (ev : ReorderEvent)
    (hev : ev.Ok) : Ordered W (r.step ev) := by
  refine ⟨config_step h.config ev hev, ?_⟩
  rcases h.sim with hf | ⟨b, w, hs⟩
  · cases ev with
    | arrive mp f => exact fresh_arrive hW hW' h.config hev hf
    | timeout =>
        left
        rcases timeoutHandler_cases r.ctrl with ⟨t, -, heq⟩ | ⟨f, q, t, hq, -⟩
        · rw [step, heq]
          refine ⟨hf.seq, hf.pending, ?_, ?_⟩
          · simp [deliver, hf.delivered]
          · simp [deliver, hf.adv, hf.seq, advance]
        · rw [hf.pending] at hq
          exact absurd hq (by simp)
  · right
    cases ev with
    | arrive mp f =>
        obtain ⟨w', hs'⟩ := sim_arrive hW hW' h.config hev hs
        exact ⟨b, w', hs'⟩
    | timeout =>
        obtain ⟨w', hs'⟩ := sim_timeout hW' hs
        exact ⟨b, w', hs'⟩

/-- **Every run keeps the invariant**, accounts for each arrival, and turns frames
away only for the three reasons. -/
theorem ordered_run (hW : 1 ≤ W) (hW' : W ≤ 255) :
    ∀ (evs : List ReorderEvent) (r : ReorderRun), Ordered W r → r.RejectedRefused →
      (∀ ev ∈ evs, ev.Ok) →
      Ordered W (r.run evs) ∧ (r.run evs).RejectedRefused
        ∧ (r.run evs).placed.Perm (r.placed ++ arrivals evs)
  | [], r, h, hr, _ => ⟨h, hr, by simp [run, arrivals]⟩
  | ev :: evs, r, h, hr, hev => by
      have hok := hev ev (List.mem_cons_self ..)
      obtain ⟨ho, hrej, hp⟩ := ordered_run hW hW' evs (r.step ev) (ordered_step hW hW' h ev hok)
        (rejectedRefused_step h.config hr ev hok) (fun e he => hev e (List.mem_cons_of_mem _ he))
      refine ⟨ho, hrej, hp.trans ?_⟩
      have hsplit : arrivals (ev :: evs) = arrivals [ev] ++ arrivals evs := by
        cases ev <;> rfl
      rw [hsplit, ← List.append_assoc]
      exact (placed_step h.config ev hok).append_right _

/-! ## What the invariant says about the deliveries -/

theorem seqs_delivered {b : Nat} {l : List Delivery} {ps : List Nat}
    (h : List.Forall₂ (DeliveredAt b) l ps) : l.map (·.frame.attrib.seqNum) = wrap ps := by
  induction h with
  | nil => rfl
  | cons h _ ih => rw [List.map_cons, ih, h.seq]; rfl

theorem position_of_mem {b : Nat} {l : List Delivery} {ps : List Nat} {d : Delivery}
    (h : List.Forall₂ (DeliveredAt b) l ps) (hd : d ∈ l) : ∃ p ∈ ps, DeliveredAt b d p := by
  induction h with
  | nil => simp at hd
  | cons h _ ih =>
      rcases List.mem_cons.mp hd with rfl | hd'
      · exact ⟨_, List.mem_cons_self .., h⟩
      · obtain ⟨p, hp, hdp⟩ := ih hd'
        exact ⟨p, List.mem_cons_of_mem _ hp, hdp⟩

/-- Later deliveries are of later positions. -/
theorem pairwise_delivered {b : Nat} {l : List Delivery} {ps : List Nat}
    (h : List.Forall₂ (DeliveredAt b) l ps) (hp : ps.Pairwise (· < ·)) :
    l.Pairwise fun d e => ∃ p q, DeliveredAt b d p ∧ DeliveredAt b e q ∧ p < q := by
  induction h with
  | nil => exact List.Pairwise.nil
  | cons h hs ih =>
      obtain ⟨hlt, hp'⟩ := List.pairwise_cons.mp hp
      refine List.pairwise_cons.mpr ⟨?_, ih hp'⟩
      intro e he
      obtain ⟨q, hq, heq⟩ := position_of_mem hs he
      exact ⟨_, q, h, heq, hlt q hq⟩

end ReorderRun

/-- `t` is between `1` and `n` ahead of `s`, modulo 4096. -/
def WithinAhead (n s t : Nat) : Prop :=
  1 ≤ (t + 4096 - s) % 4096 ∧ (t + 4096 - s) % 4096 ≤ n

instance (n s t : Nat) : Decidable (WithinAhead n s t) :=
  inferInstanceAs (Decidable (_ ∧ _))

/-- If the later delivery repeats the sequence number of the earlier one, then
`indicate_seq` had moved a full half-window past that number before the event of
the later one began. -/
def RepeatFar (d e : Delivery) : Prop :=
  d.frame.attrib.seqNum = e.frame.attrib.seqNum →
    d.stop ≤ e.start ∧ 2048 ≤ d.past + (e.start - d.stop)

/-- **Reordering delivers each accepted frame exactly once and in order.** From an
enabled control that has seen nothing, over any interleaving of arrivals and timer
expiries: every arrival is delivered, waits or was refused, in exactly one of
these; each delivery is `1..2048` ahead of the one before it; and no sequence
number comes again before `indicate_seq` is a half-window past it. -/
theorem reorder_delivers_once_in_order {c : RecvReorderCtrl} {evs : List ReorderEvent}
    (he : c.enable = true) (hind : c.indicateSeq = 0xFFFF)
    (hpend : c.pendingRecvframeQueue = []) (hW : 1 ≤ c.wsizeB) (hW' : c.wsizeB ≤ 255)
    (hev : ∀ ev ∈ evs, ev.Ok) :
    let r := ReorderRun.run { ctrl := c } evs
    r.placed.Perm (arrivals evs)
      ∧ (∀ x ∈ r.rejected, Refused x.1 x.2.1 x.2.2)
      ∧ (r.delivered.map (·.frame.attrib.seqNum)).IsChain (WithinAhead 2048)
      ∧ r.delivered.Pairwise RepeatFar := by
  obtain ⟨ho, hrej, hperm⟩ := ReorderRun.ordered_run hW hW' evs { ctrl := c }
    ⟨⟨he, rfl⟩, Or.inl ⟨hind, hpend, rfl, rfl⟩⟩ (by intro x hx; simp at hx) hev
  have hplaced : ({ ctrl := c } : ReorderRun).placed = [] := by simp [ReorderRun.placed, hpend]
  rw [hplaced, List.nil_append] at hperm
  refine ⟨hperm, hrej, ?_⟩
  rcases ho.sim with hf | ⟨b, w, hs⟩
  · rw [hf.delivered]
    exact ⟨List.isChain_nil, List.Pairwise.nil⟩
  · have hchain := (List.isChain_append.mp hs.inv.chain).1
    constructor
    · rw [ReorderRun.seqs_delivered hs.out, wrap, List.isChain_map]
      refine hchain.imp ?_
      rintro p q ⟨h1, h2⟩
      constructor <;> omega
    · refine (ReorderRun.pairwise_delivered hs.out (Window.chain_pairwise hchain)).imp ?_
      rintro d e ⟨p, q, hd, heq, hpq⟩ hseq
      -- equal numbers at different positions are a whole turn apart
      have hturn : p + 4096 ≤ q := by
        rw [hd.seq, heq.seq] at hseq
        omega
      have h1 := hd.past
      have h2 := hd.near
      have h3 := heq.ahead
      constructor <;> omega

/-- A QoS data frame of 74 bytes behind its 26-byte header. -/
def sampleFrame (id seq : Nat) : RecvFrame :=
  { id := id, len := 100, rxHead := 64, rxData := 72, rxTail := 172, rxEnd := 178,
    attrib := { hdrlen := 26, qos := true, seqNum := seq } }

/-- Frames 5, 7, 6 and the timer: all delivered in order. -/
theorem reorder_delivers_once_in_order_sample :
    let r := ReorderRun.run { ctrl := { wsizeB := 64 } }
      [.arrive false (sampleFrame 0 5), .arrive false (sampleFrame 1 7),
        .arrive false (sampleFrame 2 6), .timeout]
    r.delivered.map (·.frame.id) = [0, 2, 1] ∧ r.placed.Perm [0, 1, 2] := by
  refine ⟨by decide, ?_⟩
  exact (reorder_delivers_once_in_order rfl rfl rfl (by decide) (by decide)
    (by simp [ReorderEvent.Ok, sampleFrame])).1

/-- With a window of one, sequence number 2048 is delivered right after 0: the
step of 2048 is not within a half-window of 2047. -/
theorem reorder_step_of_2048 :
    ¬ ∀ (c : RecvReorderCtrl) (evs : List ReorderEvent), c.enable = true →
      c.indicateSeq = 0xFFFF → c.pendingRecvframeQueue = [] → 1 ≤ c.wsizeB → c.wsizeB ≤ 255 →
      (∀ ev ∈ evs, ev.Ok) →
      ((ReorderRun.run { ctrl := c } evs).delivered.map
        (·.frame.attrib.seqNum)).IsChain (WithinAhead 2047) := by
  intro h
  have h2 := h { wsizeB := 1 }
    [.arrive false (sampleFrame 0 0), .arrive false (sampleFrame 1 2048)] rfl rfl rfl
    (by decide) (by decide) (by simp [ReorderEvent.Ok, sampleFrame])
  revert h2
  decide

end Rtl8812au

import Rtl8812au.Ap.Acl
import Mathlib.Data.Finset.Card
import Mathlib.Data.Fintype.Card

/-!
# The list is a set of addresses

The abstract list is a mode and a finite set of addresses. The one that is kept says three times what is
in the set: by the valid nodes, by the queue and by the count. They agree after every operation, so a full
list is a set of `NUM_ACL` addresses, and nothing can be added to it, not even what it has.
-/

namespace Rtl8812au.Acl

/-- The abstract list. -/
structure AclSet where
  mode : Int
  members : Finset MacAddr

namespace AclSet

/-- Where there is room the address is added. -/
def add (t : AclSet) (addr : MacAddr) : AclSet :=
  if t.members.card < numAcl then { t with members := insert addr t.members } else t

/-- One address is taken out, or all. -/
def remove (t : AclSet) (addr : MacAddr) : AclSet :=
  { t with members := if addr = .bcast then ∅ else t.members.erase addr }

def apply (t : AclSet) : AclOp → AclSet
  | .add addr => t.add addr
  | .remove addr => t.remove addr
  | .setMode mode => { t with mode := mode }
  | .stop => { t with members := ∅ }

end AclSet

/-- The addresses in the queue. -/
def AclPool.queued (s : AclPool) : List MacAddr := s.aclNodeQ.map fun i => (s.aclnode i).addr

/-- **The list is the set**: the queue has each member once, its nodes are the valid ones, and the count
is theirs. -/
structure Refines (s : AclPool) (t : AclSet) : Prop where
  mode : s.mode = t.mode
  once : s.queued.Nodup
  members : ∀ a, a ∈ s.queued ↔ a ∈ t.members
  valid : ∀ i, i ∈ s.aclNodeQ ↔ (s.aclnode i).valid = true
  num : s.num = t.members.card

section

variable {s : AclPool} {t : AclSet}

theorem Refines.nodup (h : Refines s t) : s.aclNodeQ.Nodup := List.Nodup.of_map _ h.once

theorem Refines.length_eq (h : Refines s t) : s.aclNodeQ.length = t.members.card := by
  have hset : s.queued.toFinset = t.members := by
    ext a
    rw [List.mem_toFinset]
    exact h.members a
  rw [← hset, List.toFinset_card_of_nodup h.once]
  exact (List.length_map _).symm

/-- There are no more members than nodes. -/
theorem Refines.card_le (h : Refines s t) : t.members.card ≤ numAcl := by
  rw [← h.length_eq]
  have hle := h.nodup.length_le_card
  rwa [Fintype.card_fin] at hle

/-- As many nodes are valid as there are members. -/
theorem Refines.valid_count (h : Refines s t) :
    (List.finRange numAcl).countP (fun i => (s.aclnode i).valid) = t.members.card := by
  rw [← h.length_eq, List.countP_eq_length_filter]
  refine List.Perm.length_eq ?_
  refine (List.perm_ext_iff_of_nodup ((List.nodup_finRange _).filter _) h.nodup).mpr fun i => ?_
  rw [List.mem_filter, h.valid]
  simp

/-- A node of the queue is the only one with its address. -/
theorem Refines.addr_inj (h : Refines s t) {i j : Fin numAcl} (hi : i ∈ s.aclNodeQ)
    (hj : j ∈ s.aclNodeQ) (heq : (s.aclnode i).addr = (s.aclnode j).addr) : i = j :=
  List.inj_on_of_nodup_map h.once hi hj heq

theorem Refines.search_iff (h : Refines s t) (a : MacAddr) : s.search a = true ↔ a ∈ t.members := by
  rw [← h.members]
  unfold AclPool.search AclPool.queued
  rw [List.any_eq_true, List.mem_map]
  constructor
  · rintro ⟨i, hi, hc⟩
    simp only [Bool.and_eq_true, decide_eq_true_eq] at hc
    exact ⟨i, hi, hc.1⟩
  · rintro ⟨i, hi, ha⟩
    exact ⟨i, hi, by simp [ha, (h.valid i).mp hi]⟩

/-- Below the limit a node is free. -/
theorem Refines.exists_free (h : Refines s t) (hlt : t.members.card < numAcl) :
    ∃ i, (List.finRange numAcl).find? (fun i => !(s.aclnode i).valid) = some i
      ∧ (s.aclnode i).valid = false := by
  cases hfind : (List.finRange numAcl).find? fun i => !(s.aclnode i).valid with
  | some i =>
      have hi := List.find?_some hfind
      exact ⟨i, rfl, by simpa using hi⟩
  | none =>
      -- all nodes would be valid
      have hall : (List.finRange numAcl).countP (fun i => (s.aclnode i).valid) = numAcl := by
        have hlen : (List.finRange numAcl).length = numAcl := List.length_finRange
        refine (List.countP_eq_length.mpr fun i hi => ?_).trans hlen
        simpa using List.find?_eq_none.mp hfind i hi
      rw [h.valid_count] at hall
      omega

/-! ## What is added -/

theorem Refines.link (h : Refines s t) {i : Fin numAcl} (hi : (s.aclnode i).valid = false)
    {a : MacAddr} (ha : a ∉ t.members) :
    Refines (s.link i a) { t with members := insert a t.members } := by
  have hnot : i ∉ s.aclNodeQ := by
    intro hc
    have hv := (h.valid i).mp hc
    rw [hi] at hv
    cases hv
  have hqueue : (s.link i a).queued = s.queued ++ [a] := by
    unfold AclPool.queued AclPool.link
    dsimp only
    rw [List.map_append, List.map_singleton, Function.update_self]
    congr 1
    refine List.map_congr_left fun j hj => ?_
    have hne : j ≠ i := by
      rintro rfl
      exact hnot hj
    rw [Function.update_of_ne hne]
  refine ⟨h.mode, ?_, fun b => ?_, fun j => ?_, ?_⟩
  · rw [hqueue]
    refine List.nodup_append.mpr ⟨h.once, List.nodup_singleton a, ?_⟩
    intro b hb c hc heq
    rw [List.mem_singleton.mp hc] at heq
    exact ha ((h.members a).mp (heq ▸ hb))
  · rw [hqueue, List.mem_append, List.mem_singleton, h.members, Finset.mem_insert]
    exact or_comm
  · unfold AclPool.link
    dsimp only
    rw [List.mem_append, List.mem_singleton]
    by_cases hj : j = i
    · subst hj
      rw [Function.update_self]
      exact ⟨fun _ => rfl, fun _ => Or.inr rfl⟩
    · rw [Function.update_of_ne hj, ← h.valid]
      exact ⟨fun hc => hc.resolve_right hj, Or.inl⟩
  · have hnum := h.num
    unfold AclPool.link
    dsimp only
    rw [Finset.card_insert_of_notMem ha, hnum]
    rfl

/-- **Adding**: the set takes the address where it has room, and only a full one is refused. -/
theorem Refines.add (h : Refines s t) (a : MacAddr) :
    Refines (rtwAclAddSta a s).1 (t.add a)
      ∧ (rtwAclAddSta a s).2 = if t.members.card < numAcl then 0 else -1 := by
  have hnum := h.num
  unfold rtwAclAddSta AclSet.add
  by_cases hfull : (numAcl : Int) - 1 < s.num
  · have hge : ¬ t.members.card < numAcl := by omega
    rw [if_pos hfull, if_neg hge, if_neg hge]
    exact ⟨h, rfl⟩
  · have hlt : t.members.card < numAcl := by omega
    rw [if_neg hfull, if_pos hlt]
    by_cases hsearch : s.search a = true
    · rw [if_pos hsearch, Finset.insert_eq_self.mpr ((h.search_iff a).mp hsearch), if_pos hlt]
      exact ⟨h, rfl⟩
    · rw [if_neg hsearch, if_pos hlt]
      obtain ⟨i, hfind, hfree⟩ := h.exists_free hlt
      rw [hfind]
      exact ⟨h.link hfree fun ha => hsearch ((h.search_iff a).mpr ha), rfl⟩

/-! ## What is removed -/

/-- An unlinked node keeps its address. -/
theorem unlink_addr (s : AclPool) (i j : Fin numAcl) :
    ((s.unlink i).aclnode j).addr = (s.aclnode j).addr := by
  unfold AclPool.unlink
  dsimp only
  by_cases hj : j = i
  · subst hj
    rw [Function.update_self]
  · rw [Function.update_of_ne hj]

theorem Refines.unlink (h : Refines s t) {i : Fin numAcl} (hi : i ∈ s.aclNodeQ) :
    Refines (s.unlink i) { t with members := t.members.erase (s.aclnode i).addr } := by
  have hqueue : (s.unlink i).queued = (s.aclNodeQ.erase i).map fun j => (s.aclnode j).addr :=
    List.map_congr_left fun j _ => unlink_addr s i j
  have hmem : (s.aclnode i).addr ∈ t.members := (h.members _).mp (List.mem_map_of_mem hi)
  refine ⟨h.mode, ?_, fun a => ?_, fun j => ?_, ?_⟩
  · rw [hqueue]
    exact (List.Sublist.map _ List.erase_sublist).nodup h.once
  · rw [hqueue, List.mem_map, Finset.mem_erase, ← h.members]
    unfold AclPool.queued
    rw [List.mem_map]
    constructor
    · rintro ⟨j, hj, rfl⟩
      obtain ⟨hne, hjq⟩ := h.nodup.mem_erase_iff.mp hj
      exact ⟨fun heq => hne (h.addr_inj hjq hi heq), j, hjq, rfl⟩
    · rintro ⟨hne, j, hjq, rfl⟩
      exact ⟨j, h.nodup.mem_erase_iff.mpr ⟨fun heq => hne (by rw [heq]), hjq⟩, rfl⟩
  · unfold AclPool.unlink
    dsimp only
    rw [h.nodup.mem_erase_iff]
    by_cases hj : j = i
    · subst hj
      rw [Function.update_self]
      exact ⟨fun hc => absurd rfl hc.1, fun hc => by cases hc⟩
    · rw [Function.update_of_ne hj, ← h.valid]
      exact ⟨fun hc => hc.2, fun hc => ⟨hj, hc⟩⟩
  · have hnum := h.num
    have hpos : 0 < t.members.card := Finset.card_pos.mpr ⟨_, hmem⟩
    unfold AclPool.unlink
    dsimp only
    rw [Finset.card_erase_of_mem hmem, hnum]
    omega

/-- **The walk** takes the addresses of `p` out, of the nodes that it comes to. -/
theorem Refines.purge_from {p : MacAddr → Bool} : ∀ {l : List (Fin numAcl)} {s : AclPool} {t : AclSet},
    Refines s t → l.Nodup → (∀ i ∈ l, i ∈ s.aclNodeQ) →
    Refines (l.foldl (AclPool.purgeTurn p) s)
      { t with members := t.members.filter fun a =>
          ¬ (p a = true ∧ a ∈ l.map fun i => (s.aclnode i).addr) } := by
  intro l
  induction l with
  | nil =>
      intro s t h _ _
      simpa using h
  | cons i l ih =>
      intro s t h hnd hin
      obtain ⟨hi, hnd'⟩ := List.nodup_cons.mp hnd
      have hiq := hin i (List.mem_cons_self ..)
      rw [List.foldl_cons]
      by_cases hp : p (s.aclnode i).addr = true
      · have hturn : AclPool.purgeTurn p s i = s.unlink i := by
          unfold AclPool.purgeTurn
          rw [if_pos ⟨hp, (h.valid i).mp hiq⟩]
        have hrest := ih (h.unlink hiq) hnd' fun j hj => h.nodup.mem_erase_iff.mpr
          ⟨fun heq => hi (heq ▸ hj), hin j (List.mem_cons_of_mem _ hj)⟩
        have haddr : (l.map fun j => ((s.unlink i).aclnode j).addr) = l.map fun j => (s.aclnode j).addr :=
          List.map_congr_left fun j _ => unlink_addr s i j
        rw [haddr] at hrest
        rw [hturn]
        convert hrest using 2
        ext a
        simp only [Finset.mem_filter, Finset.mem_erase, List.map_cons, List.mem_cons]
        by_cases ha : a = (s.aclnode i).addr
        · simp [ha, hp]
        · simp [ha]
      · have hturn : AclPool.purgeTurn p s i = s := by
          unfold AclPool.purgeTurn
          rw [if_neg (fun hc => hp hc.1)]
        have hrest := ih h hnd' fun j hj => hin j (List.mem_cons_of_mem _ hj)
        rw [hturn]
        convert hrest using 2
        ext a
        simp only [Finset.mem_filter, List.map_cons, List.mem_cons]
        by_cases ha : a = (s.aclnode i).addr
        · simp [ha, hp]
        · simp [ha]

/-- The walk over the whole queue. -/
theorem Refines.purge (h : Refines s t) (p : MacAddr → Bool) :
    Refines (s.purge p) { t with members := t.members.filter fun a => ¬ p a = true } := by
  have hall := Refines.purge_from (p := p) h h.nodup fun i hi => hi
  unfold AclPool.purge
  convert hall using 2
  refine Finset.filter_congr fun a ha => ?_
  have hmem : a ∈ s.aclNodeQ.map fun i => (s.aclnode i).addr := (h.members a).mpr ha
  simp [hmem]

/-- **Removing** takes one address out, or all. -/
theorem Refines.remove (h : Refines s t) (a : MacAddr) :
    Refines (rtwAclRemoveSta a s) (t.remove a) := by
  have hpurge := h.purge fun b => decide (b = a) || decide (a = .bcast)
  unfold rtwAclRemoveSta AclSet.remove
  convert hpurge using 2
  ext b
  rw [Finset.mem_filter]
  by_cases ha : a = .bcast
  · simp [ha]
  · simp [ha, and_comm]

theorem Refines.stop (h : Refines s t) : Refines (stopApMode s) { t with members := ∅ } := by
  have hpurge := h.purge fun _ => true
  simpa [stopApMode] using hpurge

/-- **Access** is refused to what is in a deny list, and to what is not in an accept list. -/
theorem Refines.access_iff (h : Refines s t) (a : MacAddr) :
    rtwAccessCtrl a s = false ↔ (t.mode = 1 ∧ a ∈ t.members) ∨ (t.mode = 2 ∧ a ∉ t.members) := by
  unfold rtwAccessCtrl
  rw [← h.search_iff, ← h.mode]
  by_cases h1 : s.mode = 1
  · simp [h1]
  · by_cases h2 : s.mode = 2
    · simp [h2]
    · simp [h1, h2]

/-! ## Runs -/

/-- **One operation** is one of the set. -/
theorem Refines.step (h : Refines s t) (op : AclOp) : Refines (op.run s) (t.apply op) := by
  cases op with
  | add a => exact (h.add a).1
  | remove a => exact h.remove a
  | setMode mode => exact ⟨rfl, h.once, h.members, h.valid, h.num⟩
  | stop => exact h.stop

theorem Refines.run (ops : List AclOp) : ∀ {s : AclPool} {t : AclSet}, Refines s t →
    Refines (ops.foldl AclOp.run s) (ops.foldl AclSet.apply t) := by
  induction ops with
  | nil => intro s t h; exact h
  | cons op ops ih => intro s t h; exact ih (h.step op)

theorem refines_start (s : AclPool) : Refines (startApMode s) ⟨0, ∅⟩ := by
  refine ⟨rfl, List.nodup_nil, fun a => ?_, fun i => ?_, rfl⟩
  · simp [AclPool.queued, startApMode]
  · simp [startApMode]

end

/-- What a list that is a set does. -/
structure IsSet (s : AclPool) (t : AclSet) : Prop where
  refines : Refines s t
  bounded : t.members.card ≤ numAcl
  valid_nodes : (List.finRange numAcl).countP (fun i => (s.aclnode i).valid) = t.members.card
  /-- An address is added where there is room; a full list is left as it is, whatever it has. -/
  add : ∀ a, (rtwAclAddSta a s).2 = (if t.members.card < numAcl then 0 else -1)
    ∧ Refines (rtwAclAddSta a s).1
      { t with members := if t.members.card < numAcl then insert a t.members else t.members }
  remove : ∀ a, Refines (rtwAclRemoveSta a s)
    { t with members := if a = .bcast then ∅ else t.members.erase a }
  access : ∀ a, rtwAccessCtrl a s = false
    ↔ (t.mode = 1 ∧ a ∈ t.members) ∨ (t.mode = 2 ∧ a ∉ t.members)

/-- **The access control list is a set** after every sequence of operations. -/
theorem acl_is_a_set (s₀ : AclPool) (ops : List AclOp) :
    IsSet (ops.foldl AclOp.run (startApMode s₀)) (ops.foldl AclSet.apply ⟨0, ∅⟩) := by
  have h := Refines.run ops (refines_start s₀)
  refine ⟨h, h.card_le, h.valid_count, fun a => ?_, h.remove, h.access_iff⟩
  obtain ⟨hadd, hret⟩ := h.add a
  refine ⟨hret, ?_⟩
  unfold AclSet.add at hadd
  split at hadd
  case isTrue hlt => rwa [if_pos hlt]
  case isFalse hge => rwa [if_neg hge]

/-- Sixteen addresses. -/
def sixteen : List MacAddr := (List.range numAcl).map fun k => ⟨2, 0, 0, 0, 0, UInt8.ofNat k⟩

/-- The list with all of them. -/
def fullAcl : AclPool :=
  (sixteen.map AclOp.add).foldl AclOp.run (startApMode ⟨0, 0, fun _ => ⟨.zero, false⟩, []⟩)

/-- A full list refuses an address that it has. -/
theorem full_acl_refuses_member :
    ¬ ((rtwAclAddSta ⟨2, 0, 0, 0, 0, 0⟩ fullAcl).2 = 0
      ↔ ⟨2, 0, 0, 0, 0, 0⟩ ∈ fullAcl.queued ∨ fullAcl.queued.length < numAcl) := by
  decide

end Rtl8812au.Acl

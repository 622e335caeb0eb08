import Rtl8812au.Ies.P2pRemove
import Rtl8812au.Ies.P2pAttribute
import Rtl8812au.Ies.RemoveProof
import Rtl8812au.Ies.P2pMergeProof

/-!
# What removing an attribute leaves

The bytes are followed as one list of pieces: what is in front of the element, its header, its attributes,
what was cleared so far, what is behind. A turn of the loop takes one attribute out and moves its size
into the cleared piece; closing the gap moves what is behind over that piece. The one way to miss the
element is a shorter vendor element in front of it that passes for a P2P element.
-/

namespace Rtl8812au.Ies

/-! ## The search for the element -/

section

variable {m : Mem} {b n : Nat}

/-- No element passes for a P2P element. -/
def NonePass (m : Mem) (p : Nat) (xs : List Tlv) : Prop :=
  ∀ us x vs, xs = us ++ x :: vs → isP2p m (p + Tlv.total us) = false

theorem nonePass_cons {p : Nat} {e : Tlv} {xs : List Tlv} :
    NonePass m p (e :: xs) ↔ isP2p m p = false ∧ NonePass m (p + e.size) xs := by
  unfold NonePass
  rw [Tlv.forall_split_cons (P := fun us _ _ => isP2p m (p + Tlv.total us) = false)]
  simp only [Tlv.total_nil, Tlv.total_cons, Nat.add_zero, Nat.add_assoc]

/-- No element passes, or there is a first that does. -/
theorem first_pass (m : Mem) (xs : List Tlv) : ∀ p : Nat, NonePass m p xs
    ∨ ∃ us x vs, xs = us ++ x :: vs ∧ NonePass m p us ∧ isP2p m (p + Tlv.total us) = true := by
  induction xs with
  | nil =>
      intro p
      exact Or.inl fun us x vs hs => absurd hs (by simp)
  | cons e xs ih =>
      intro p
      cases hp : isP2p m p with
      | true => exact Or.inr ⟨[], e, xs, rfl, fun us x vs hs => absurd hs (by simp), hp⟩
      | false =>
          rcases ih (p + e.size) with hnone | ⟨us, x, vs, rfl, hnone, hx⟩
          · exact Or.inl (nonePass_cons.mpr ⟨hp, hnone⟩)
          · refine Or.inr ⟨e :: us, x, vs, rfl, nonePass_cons.mpr ⟨hp, hnone⟩, ?_⟩
            rw [Tlv.total_cons, ← Nat.add_assoc]
            exact hx

/-- An element in the memory, in what is read of it. -/
theorem drop_read_element {c : Nat} {e : Tlv} (h : Holds m (b + c) [e]) (hin : c + e.size ≤ n) :
    (m.read b n).drop c = e.bytes ++ m.read (b + c + e.size) (n - c - e.size) := by
  have hbytes : m.read (b + c) e.size = e.bytes := by
    have hone := h
    unfold Holds at hone
    simpa using hone
  have hsplit : n - c = e.size + (n - c - e.size) := by omega
  rw [Mem.drop_read m (by omega), hsplit, Mem.read_add, hbytes]
  congr 2
  omega

/-- The comparison with the OUI. -/
theorem oui_prefix_iff {c : Nat} (hin : c + 6 ≤ n) :
    p2pOui <+: (m.read b n).drop (c + 2) ↔ m.read (b + c + 2) 4 = p2pOui := by
  have hlen : p2pOui.length = 4 := rfl
  rw [List.prefix_iff_eq_take, hlen, Mem.drop_read m (by omega), Mem.take_read m (by omega),
    Nat.add_assoc b c 2]
  exact eq_comm

theorem isP2p_split {q : Nat} : isP2p m q = true ↔ m q = vendorIe ∧ m.read (q + 2) 4 = p2pOui := by
  unfold isP2p
  rw [Bool.and_eq_true, decide_eq_true_iff, decide_eq_true_iff]

variable {inLen : Nat} {giveUp : Nat → Bool} {r : Option Found}

/-- Elements that do not pass are gone over. -/
theorem p2p_skip {xs : List Tlv} (hbig : inLen < 2 ^ 32) (hg : ∀ c, c < inLen → giveUp c = false) :
    ∀ {c : Nat}, Holds m (b + c) xs → NonePass m (b + c) xs → c + Tlv.total xs + 6 ≤ n →
    c + Tlv.total xs ≤ inLen →
    (Loop.Ends (searchTurn (m.read b n) inLen giveUp vendorIe p2pOui ⟨true, false⟩) c r
      ↔ Loop.Ends (searchTurn (m.read b n) inLen giveUp vendorIe p2pOui ⟨true, false⟩)
          (c + Tlv.total xs) r) := by
  induction xs with
  | nil => intro c _ _ _ _; rfl
  | cons e xs ih =>
      intro c h hnone hn hin
      obtain ⟨hhead, htail⟩ := Holds.cons.mp h
      obtain ⟨hp, hnone⟩ := nonePass_cons.mp hnone
      rw [Nat.add_assoc] at htail hnone
      rw [Tlv.total_cons] at hn hin ⊢
      have hsize := e.two_le_size
      obtain ⟨hid, hl, -, -, -⟩ := get_of_drop (drop_read_element hhead (n := n) (by omega))
      have hmiss : e.id = vendorIe → c + 2 + p2pOui.length ≤ (m.read b n).length
          ∧ ¬ p2pOui <+: (m.read b n).drop (c + 2) := by
        intro he
        have hlen : p2pOui.length = 4 := rfl
        refine ⟨by rw [Mem.length_read]; omega, fun hpre => ?_⟩
        have houi := (oui_prefix_iff (by omega)).mp hpre
        have hyes := isP2p_split.mpr ⟨hhead.head.1.trans he, houi⟩
        rw [hp] at hyes
        cases hyes
      have hnext : (c + (e.body.length + 2)) % 2 ^ 32 = c + e.size := Nat.mod_eq_of_lt (by
        unfold Tlv.size at hin
        omega)
      rw [Loop.ends_next (searchTurn_miss (by omega) (hg c (by omega)) hid hl hmiss),
        Tlv.toNat_length, hnext, ih htail hnone (by omega) (by omega), Nat.add_assoc]

/-- **The first that passes is what `rtw_get_p2p_ie` finds.** -/
theorem p2p_first {us vs : List Tlv} {x : Tlv} (h : Holds m fixedIeLength (us ++ x :: vs))
    (hnone : NonePass m fixedIeLength us) (hp : isP2p m (fixedIeLength + Tlv.total us) = true)
    (hroom : Tlv.total us + 6 ≤ Tlv.total (us ++ x :: vs))
    (hfit : fixedIeLength + Tlv.total (us ++ x :: vs) ≤ maxIe) :
    RtwGetP2pIe (m.read fixedIeLength (maxIe - fixedIeLength))
      ((((fixedIeLength + Tlv.total (us ++ x :: vs) : Nat) : Int) - fixedIeLength).bmod (2 ^ 32))
      ⟨true, false⟩ r ↔ r = some ⟨Tlv.total us, some x.size, none⟩ := by
  obtain ⟨hfront, hrest⟩ := Holds.append.mp h
  have hhead := (Holds.cons.mp hrest).1
  have hsize := x.two_le_size
  have hlen : ((((fixedIeLength + Tlv.total (us ++ x :: vs) : Nat) : Int) - fixedIeLength).bmod (2 ^ 32))
      = (Tlv.total (us ++ x :: vs) : Nat) := by
    have hsub : ((fixedIeLength + Tlv.total (us ++ x :: vs) : Nat) : Int) - fixedIeLength
        = (Tlv.total (us ++ x :: vs) : Nat) := by omega
    rw [hsub]
    exact bmod_of_lt (by
      unfold maxIe at hfit
      omega)
  have htotal : Tlv.total us + x.size ≤ Tlv.total (us ++ x :: vs) := by
    rw [Tlv.total_append, Tlv.total_cons]
    omega
  generalize hN : Tlv.total (us ++ x :: vs) = N at *
  have hval : ((N : Int) % 2 ^ 32).toNat = N := by
    unfold maxIe at hfit
    omega
  have hgive : ∀ c, c < N → (decide ((N : Int) < 0) || decide (maxIe < c)) = false := by
    intro c hc
    rw [decide_eq_false (by omega), decide_eq_false (by omega)]
    rfl
  unfold RtwGetP2pIe
  rw [hlen, hval, p2p_skip (c := 0) (by unfold maxIe at hfit; omega) hgive hfront hnone (by omega)
    (by omega), Nat.zero_add]
  refine search_found (m.read _ _) (drop_read_element hhead (by omega)) (by omega) (hgive _ (by omega))
    ?_ ((oui_prefix_iff (by omega)).mpr (isP2p_split.mp hp).2)
  exact hhead.head.1.symm.trans (isP2p_split.mp hp).1

end

/-! ## One attribute -/

/-- A P2P element's header with attributes of `n` bytes behind it. -/
def p2pHeader (n : Nat) : List UInt8 := vendorIe :: UInt8.ofNat (4 + n) :: p2pOui

@[simp] theorem length_p2pHeader (n : Nat) : (p2pHeader n).length = 6 := rfl

/-- The first `n` bytes: what is in front of the element, the element with the attributes `as`, what was
cleared behind it, what is behind that. -/
def LaidOut (m : Mem) (n : Nat) (front : List UInt8) (as : List P2pAttribute)
    (cleared behind : List UInt8) : Prop :=
  m.read 0 n = front ++ (p2pHeader (P2pAttribute.encode as).length
    ++ (P2pAttribute.encode as ++ (cleared ++ behind)))

section

variable {m : Mem} {n : Nat} {front cleared behind : List UInt8} {id : UInt8}

/-- The element as the search for an attribute sees it. -/
theorem LaidOut.shifted {as : List P2pAttribute} (h : LaidOut m n front as cleared behind) :
    m.shift front.length 0 = vendorIe ∧ (m.shift front.length).read 2 4 = p2pOui
      ∧ ∃ k, (m.shift front.length).read 6 k = P2pAttribute.encode as ++ (cleared ++ behind) := by
  unfold LaidOut at h
  have hhead := Mem.read_middle h
  rw [Nat.zero_add, length_p2pHeader] at hhead
  have htwo : m.read front.length 2 ++ m.read (front.length + 2) 4
      = [vendorIe, UInt8.ofNat (4 + (P2pAttribute.encode as).length)] ++ p2pOui := by
    rw [← Mem.read_add]
    exact hhead
  obtain ⟨hfirst, houi⟩ := List.append_inj htwo (Mem.length_read m _ _)
  refine ⟨(List.cons.inj hfirst).1, by rw [Mem.read_shift]; exact houi, ?_⟩
  have hassoc : m.read 0 n = (front ++ p2pHeader (P2pAttribute.encode as).length)
      ++ ((P2pAttribute.encode as ++ (cleared ++ behind)) ++ []) := by
    rw [h, List.append_nil, List.append_assoc]
  have hrest := Mem.read_middle hassoc
  rw [Nat.zero_add, List.length_append, length_p2pHeader] at hrest
  exact ⟨_, (Mem.read_shift m _ 6 _).trans hrest⟩

/-- **Taking an attribute out** takes it out of the list, and its size goes to what is cleared. -/
theorem removeAttr_laidOut {us vs : List P2pAttribute} {a : P2pAttribute}
    (h : LaidOut m n front (us ++ a :: vs) cleared behind)
    (hlen : (P2pAttribute.encode (us ++ a :: vs)).length < 252) :
    ∃ m', removeAttr m front.length (6 + (P2pAttribute.encode (us ++ a :: vs)).length)
        (6 + (P2pAttribute.encode us).length) a.size
          = (m', 6 + (P2pAttribute.encode (us ++ vs)).length)
      ∧ LaidOut m' n front (us ++ vs) (List.replicate a.size 0 ++ cleared) behind := by
  have htotal : (P2pAttribute.encode (us ++ a :: vs)).length
      = (P2pAttribute.encode us).length + (a.size + (P2pAttribute.encode vs).length) := by
    simp
  have hkept : (P2pAttribute.encode (us ++ vs)).length
      = (P2pAttribute.encode us).length + (P2pAttribute.encode vs).length := by
    simp
  have hremain : sub32 (6 + (P2pAttribute.encode (us ++ a :: vs)).length)
      (6 + (P2pAttribute.encode us).length + a.size) = (P2pAttribute.encode vs).length := by
    rw [sub32_of_le (by omega) (by omega)]
    omega
  have hielen : sub32 (6 + (P2pAttribute.encode (us ++ a :: vs)).length) a.size
      = 6 + (P2pAttribute.encode (us ++ vs)).length := by
    rw [sub32_of_le (by omega) (by omega)]
    omega
  -- the pieces around the attribute
  let pre := front ++ (p2pHeader (P2pAttribute.encode (us ++ a :: vs)).length
    ++ P2pAttribute.encode us)
  have hpre : pre.length = front.length + (6 + (P2pAttribute.encode us).length) := by
    simp [pre]
  have hpieces : m.read 0 n
      = pre ++ (a.bytes ++ (P2pAttribute.encode vs ++ (cleared ++ behind))) := by
    unfold LaidOut at h
    rw [h]
    simp [pre]
  have hzero : (List.replicate a.size (0 : UInt8)).length = a.bytes.length := by
    rw [List.length_replicate, P2pAttribute.length_bytes]
  have hfilled := Mem.read_write_splice hpieces hzero
  rw [Nat.zero_add, hpre] at hfilled
  have hslid := Mem.read_slide hfilled
  rw [Nat.zero_add, hpre, List.length_replicate] at hslid
  unfold removeAttr
  dsimp only
  rw [hremain, hielen]
  generalize hmoved : ((m.fill (front.length + (6 + (P2pAttribute.encode us).length)) a.size 0).copyForward
    (front.length + (6 + (P2pAttribute.encode us).length))
    (front.length + (6 + (P2pAttribute.encode us).length) + a.size)
    (P2pAttribute.encode vs).length).fill
    (front.length + (6 + (P2pAttribute.encode us).length) + (P2pAttribute.encode vs).length) a.size 0
      = moved
  have hread : moved.read 0 n = pre ++ (P2pAttribute.encode vs
      ++ (List.replicate a.size 0 ++ (cleared ++ behind))) := by
    rw [← hmoved]
    exact hslid
  -- the length byte
  have hlead : moved.read 0 n = (front ++ [vendorIe])
      ++ ([UInt8.ofNat (4 + (P2pAttribute.encode (us ++ a :: vs)).length)]
        ++ (p2pOui ++ (P2pAttribute.encode us ++ (P2pAttribute.encode vs
          ++ (List.replicate a.size 0 ++ (cleared ++ behind)))))) := by
    rw [hread]
    simp [pre, p2pHeader]
  have hbyte : moved (front.length + 1)
      = UInt8.ofNat (4 + (P2pAttribute.encode (us ++ a :: vs)).length) := by
    have hmid := Mem.read_middle hlead
    rw [Nat.zero_add, List.length_append] at hmid
    exact (List.cons.inj hmid).1
  have hless : UInt8.ofNat (4 + (P2pAttribute.encode (us ++ a :: vs)).length) - UInt8.ofNat a.size
      = UInt8.ofNat (4 + (P2pAttribute.encode (us ++ vs)).length) := by
    rw [← UInt8.ofNat_sub (by omega)]
    congr 1
    omega
  have hwritten := @Mem.read_write_splice moved 0 n _ _ _
    [UInt8.ofNat (4 + (P2pAttribute.encode (us ++ vs)).length)] hlead rfl
  rw [Nat.zero_add, List.length_append] at hwritten
  refine ⟨moved.write (front.length + 1)
    [UInt8.ofNat (4 + (P2pAttribute.encode (us ++ vs)).length)], ?_, ?_⟩
  · rw [hbyte, hless]
  · unfold LaidOut
    refine hwritten.trans ?_
    simp [p2pHeader]

/-! ## All of them -/

/-- The attributes that stay. -/
def staying (id : UInt8) (as : List P2pAttribute) : List P2pAttribute := as.filter fun a => a.id ≠ id

theorem staying_eq_self {as : List P2pAttribute} (h : ∀ a ∈ as, a.id ≠ id) : staying id as = as := by
  refine List.filter_eq_self.mpr fun a ha => ?_
  exact decide_eq_true (h a ha)

theorem staying_removed (us vs : List P2pAttribute) {a : P2pAttribute} (h : a.id = id) :
    staying id (us ++ a :: vs) = staying id (us ++ vs) := by
  unfold staying
  rw [List.filter_append, List.filter_append, List.filter_cons_of_neg (by simpa using h)]

/-- The first attribute with an id, if there is one. -/
theorem first_with (id : UInt8) (as : List P2pAttribute) : (∀ a ∈ as, a.id ≠ id)
    ∨ ∃ us a vs, as = us ++ a :: vs ∧ a.id = id ∧ ∀ u ∈ us, u.id ≠ id := by
  induction as with
  | nil => exact Or.inl nofun
  | cons a as ih =>
      by_cases ha : a.id = id
      · exact Or.inr ⟨[], a, as, rfl, ha, nofun⟩
      · rcases ih with hno | ⟨us, x, vs, rfl, hx, hus⟩
        · refine Or.inl fun y hy => ?_
          rcases List.mem_cons.mp hy with rfl | hy
          · exact ha
          · exact hno y hy
        · refine Or.inr ⟨a :: us, x, vs, rfl, hx, fun u hu => ?_⟩
          rcases List.mem_cons.mp hu with rfl | hu
          · exact ha
          · exact hus u hu

theorem toNat_ne {as : List P2pAttribute} (h : ∀ a ∈ as, a.id ≠ id) :
    ∀ a ∈ as, a.id.toNat ≠ id.toNat :=
  fun a ha he => h a ha (UInt8.toNat_inj.mp he)

/-- **The loop takes out all attributes with the id**, one in each turn. -/
theorem attrs_removed (id : UInt8) (as : List P2pAttribute) (hlen : (P2pAttribute.encode as).length < 252) :
    ∀ {m : Mem} {cleared : List UInt8}, LaidOut m n front as cleared behind →
    ∃ m' cleared', AttrRemoveLoop front.length id.toNat
        (m, 6 + (P2pAttribute.encode as).length)
        (m', 6 + (P2pAttribute.encode (staying id as)).length)
      ∧ LaidOut m' n front (staying id as) cleared' behind
      ∧ cleared'.length + (P2pAttribute.encode (staying id as)).length
          = cleared.length + (P2pAttribute.encode as).length := by
  induction hk : as.length using Nat.strongRecOn generalizing as with
  | _ k ih =>
      intro m cleared h
      obtain ⟨h0, houi, c, hattrs⟩ := h.shifted
      rcases first_with id as with hno | ⟨us, a, vs, rfl, ha, hus⟩
      · -- none is left: the search fails
        rw [staying_eq_self hno]
        refine ⟨m, cleared, .done (r := none) ((rtwGetP2pAttr_iff h0 houi).mpr ?_) rfl, h, rfl⟩
        rw [attr_skip hattrs (Nat.le_refl _) (by omega) (toNat_ne hno)]
        exact (attr_past (Nat.le_refl _)).mpr rfl
      -- the first one with the id is taken out, and one fewer is left for the next turns
      · obtain ⟨m₁, hstep, hlaid⟩ := removeAttr_laidOut h hlen
        have hpos : 3 ≤ a.size := Nat.le_add_left 3 _
        have htotal : (P2pAttribute.encode (us ++ a :: vs)).length
            = (P2pAttribute.encode us).length + (a.size + (P2pAttribute.encode vs).length) := by
          simp
        have hkept : (P2pAttribute.encode (us ++ vs)).length
            = (P2pAttribute.encode us).length + (P2pAttribute.encode vs).length := by
          simp
        have hfewer : (us ++ vs).length < k := by
          rw [← hk, List.length_append, List.length_append, List.length_cons]
          omega
        obtain ⟨m', cleared', hloop, hlaid', hsum⟩ :=
          ih _ hfewer (us ++ vs) (by omega) rfl hlaid
        rw [staying_removed us vs ha]
        -- the search passes over what is in front of it
        have hfound : RtwGetP2pAttr (m.shift front.length)
            (6 + (P2pAttribute.encode (us ++ a :: vs)).length) id.toNat ⟨true, false⟩
            (some ⟨6 + (P2pAttribute.encode us).length, some a.size, none⟩) := by
          rw [rtwGetP2pAttr_iff h0 houi]
          rw [P2pAttribute.encode_append, P2pAttribute.encode_cons, List.append_assoc,
            List.append_assoc] at hattrs
          rw [attr_skip hattrs (by omega) (by omega) (toNat_ne hus)]
          rw [← List.append_nil (a.bytes ++ _)] at hattrs
          have hhere := Mem.read_middle hattrs
          exact (attr_found hhere (by omega) (by omega) (congrArg UInt8.toNat ha)).mpr rfl
        refine ⟨m', cleared', .again hfound rfl (hstep ▸ hloop), hlaid', ?_⟩
        rw [hsum, List.length_append, List.length_replicate]
        omega

end

/-! ## The elements behind -/

section

variable {m : Mem} {n : Nat} {front cleared behind : List UInt8}

/-- **The gap is closed**: what is behind follows the element, and `IELength` is less by what was
cleared. -/
theorem closeGap_laidOut {as : List P2pAttribute} {ori : Nat} (hn : n < 2 ^ 32)
    (h : LaidOut m n front as cleared behind)
    (hori : ori = 6 + (P2pAttribute.encode as).length + cleared.length) :
    (closeGap m n front.length ori (6 + (P2pAttribute.encode as).length)).ies.read 0 n
        = front ++ (p2pHeader (P2pAttribute.encode as).length
          ++ (P2pAttribute.encode as ++ (behind ++ List.replicate cleared.length 0)))
      ∧ (closeGap m n front.length ori (6 + (P2pAttribute.encode as).length)).ieLength
          = n - cleared.length := by
  have htotal : n = front.length + (ori + behind.length) := by
    have hlen := congrArg List.length h
    rw [Mem.length_read] at hlen
    simp only [List.length_append, length_p2pHeader] at hlen
    omega
  unfold closeGap
  by_cases hsame : 6 + (P2pAttribute.encode as).length = ori
  · have hnil : cleared = [] := List.eq_nil_of_length_eq_zero (by omega)
    subst hnil
    rw [if_pos hsame]
    refine ⟨?_, rfl⟩
    unfold LaidOut at h
    simpa using h
  · have hgone : sub32 ori (6 + (P2pAttribute.encode as).length) = cleared.length := by
      rw [sub32_of_le (by omega) (by omega)]
      omega
    have hremain : sub32 n (front.length + ori) = behind.length := by
      rw [sub32_of_le (by omega) hn]
      omega
    have hless : sub32 n cleared.length = n - cleared.length := sub32_of_le (by omega) hn
    have hlead : m.read 0 n = (front ++ (p2pHeader (P2pAttribute.encode as).length
        ++ P2pAttribute.encode as)) ++ (cleared ++ (behind ++ [])) := by
      unfold LaidOut at h
      rw [h]
      simp
    have hslid := Mem.read_slide hlead
    have hpre : (front ++ (p2pHeader (P2pAttribute.encode as).length ++ P2pAttribute.encode as)).length
        = front.length + (6 + (P2pAttribute.encode as).length) := by
      simp
    have hat : front.length + (6 + (P2pAttribute.encode as).length) + cleared.length
        = front.length + ori := by omega
    rw [Nat.zero_add, hpre, hat] at hslid
    rw [if_neg hsame, hgone, hremain, hless]
    refine ⟨hslid.trans ?_, rfl⟩
    simp

end

/-! ## The function -/

section

variable {b b' b'' : BssidEx} {xs ys : List Tlv} {e : Tlv} {as : List P2pAttribute} {id : UInt8}

theorem AttrRemoveLoop.unique {ie attrId : Nat} {s t t' : Mem × Nat} (h : AttrRemoveLoop ie attrId s t)
    (h' : AttrRemoveLoop ie attrId s t') : t = t' := by
  induction h with
  | done hr ht =>
      cases h' with
      | done _ _ => rfl
      | again hr' ht' _ =>
          rw [hr.unique hr', ht'] at ht
          cases ht
  | again hr ht _ ih =>
      cases h' with
      | done hr' ht' =>
          rw [hr'.unique hr, ht] at ht'
          cases ht'
      | again hr' ht' hrest =>
          rw [hr'.unique hr, ht] at ht'
          cases ht'
          exact ih hrest

theorem RtwBssidExRemoveP2pAttr.unique (h : RtwBssidExRemoveP2pAttr b id b')
    (h' : RtwBssidExRemoveP2pAttr b id b'') : b' = b'' := by
  obtain ⟨r, hr, hb⟩ := h
  obtain ⟨r', hr', hb'⟩ := h'
  have hsame : r = r' := Loop.Ends.unique hr hr'
  subst hsame
  cases r with
  | none => exact hb.trans hb'.symm
  | some f =>
      obtain ⟨m, ielen, hloop, rfl⟩ := hb
      obtain ⟨m', ielen', hloop', rfl⟩ := hb'
      have hst := hloop.unique hloop'
      cases hst
      rfl

/-- A `WLAN_BSSID_EX` with the elements `xs`, then a first P2P element with the attributes `as`, then
`ys`. -/
structure HasP2p (b : BssidEx) (xs : List Tlv) (e : Tlv) (as : List P2pAttribute) (ys : List Tlv) :
    Prop where
  holds : Holds b.ies fixedIeLength (xs ++ e :: ys)
  len : b.ieLength = fixedIeLength + Tlv.total (xs ++ e :: ys)
  fits : b.ieLength ≤ maxIe
  first : ∀ x ∈ xs, ¬ IsP2p x
  isP2p : IsP2p e
  attrs : e.body.drop 4 = P2pAttribute.encode as

/-- The first P2P element has lost its attributes `id` and nothing else; its length byte is right, the
other elements are what they were, and `IELength` is the new total. -/
def AttrRemoved (xs : List Tlv) (as : List P2pAttribute) (ys : List Tlv) (id : UInt8) (b' : BssidEx) :
    Prop :=
  ∃ e' : Tlv, e'.id = vendorIe ∧ e'.body = p2pOui ++ P2pAttribute.encode (staying id as)
    ∧ Holds b'.ies fixedIeLength (xs ++ e' :: ys)
    ∧ b'.ieLength = fixedIeLength + Tlv.total (xs ++ e' :: ys)

theorem HasP2p.body (h : HasP2p b xs e as ys) : e.body = p2pOui ++ P2pAttribute.encode as := by
  rw [← h.isP2p.2, ← h.attrs, List.take_append_drop]

theorem HasP2p.length (h : HasP2p b xs e as ys) :
    e.body.length = 4 + (P2pAttribute.encode as).length := by
  rw [h.body, List.length_append]
  rfl

theorem HasP2p.bytes (h : HasP2p b xs e as ys) :
    e.bytes = p2pHeader (P2pAttribute.encode as).length ++ P2pAttribute.encode as := by
  unfold Tlv.bytes
  rw [h.length, h.isP2p.1, h.body]
  rfl

/-- The pieces before anything is removed. -/
theorem HasP2p.laidOut (h : HasP2p b xs e as ys) :
    LaidOut b.ies b.ieLength (b.ies.read 0 fixedIeLength ++ Tlv.encode xs) as [] (Tlv.encode ys) := by
  have hholds := h.holds
  unfold Holds at hholds
  unfold LaidOut
  rw [h.len, Mem.read_add, Nat.zero_add, hholds, Tlv.encode_append, Tlv.encode_cons, h.bytes]
  simp

theorem length_staying_le (id : UInt8) (as : List P2pAttribute) :
    (P2pAttribute.encode (staying id as)).length ≤ (P2pAttribute.encode as).length := by
  induction as with
  | nil => exact Nat.le_refl _
  | cons a as ih =>
      unfold staying at ih ⊢
      rw [List.filter_cons]
      split
      · rw [P2pAttribute.encode_cons, P2pAttribute.encode_cons, List.length_append, List.length_append]
        omega
      · rw [P2pAttribute.encode_cons, List.length_append]
        omega

/-- Where all of them are still there, none had the id. -/
theorem none_with_of_length (h : (P2pAttribute.encode (staying id as)).length
    = (P2pAttribute.encode as).length) : ∀ a ∈ as, a.id ≠ id := by
  rcases first_with id as with hno | ⟨us, a, vs, rfl, ha, -⟩
  · exact hno
  · have hle := length_staying_le id (us ++ vs)
    have hpos : 3 ≤ a.size := Nat.le_add_left 3 _
    rw [staying_removed us vs ha] at h
    rw [h, P2pAttribute.encode_append, P2pAttribute.encode_append, P2pAttribute.encode_cons,
      List.length_append, List.length_append, List.length_append, P2pAttribute.length_bytes] at hle
    omega

/-- **Where no element in front passes, the attributes are removed.** -/
theorem removed_of_nonePass (id : UInt8) (h : HasP2p b xs e as ys) (hnone : NonePass b.ies fixedIeLength xs) :
    ∃ b', RtwBssidExRemoveP2pAttr b id b' ∧ AttrRemoved xs as ys id b' := by
  have hfits := h.fits
  have hlen := h.len
  have hsize := e.size_le
  have hesize : e.size = 6 + (P2pAttribute.encode as).length := by
    unfold Tlv.size
    rw [h.length]
    omega
  have hpass : isP2p b.ies (fixedIeLength + Tlv.total xs) = true :=
    (isP2p_iff (Holds.split h.holds rfl).1 (fun _ => by rw [h.length]; omega)).mpr h.isP2p
  have htotal : Tlv.total (xs ++ e :: ys) = Tlv.total xs + (e.size + Tlv.total ys) := by simp
  -- the search finds this element, and the loop over its attributes ends
  have hfound := (p2p_first h.holds hnone hpass (by omega) (by omega)
    (r := some ⟨Tlv.total xs, some e.size, none⟩)).mpr rfl
  rw [← hlen] at hfound
  obtain ⟨m, cleared, hloop, hlaid, hsum⟩ := attrs_removed id as (by omega) h.laidOut
  have hfront : (b.ies.read 0 fixedIeLength ++ Tlv.encode xs).length
      = fixedIeLength + Tlv.total xs := by simp
  rw [List.length_nil, Nat.zero_add] at hsum
  have hori : e.size = 6 + (P2pAttribute.encode (staying id as)).length + cleared.length := by omega
  unfold maxIe at hfits
  -- what is behind the element is moved up by as many bytes as were taken out
  obtain ⟨hread, hless⟩ := closeGap_laidOut (by omega) hlaid hori
  rw [hfront] at hloop hread hless
  have hbody : (p2pOui ++ P2pAttribute.encode (staying id as)).length < 256 := by
    have houi : p2pOui.length = 4 := rfl
    rw [List.length_append, houi]
    omega
  have htotal' : Tlv.total (xs ++ ⟨vendorIe, _, hbody⟩ :: ys)
      = Tlv.total xs + (6 + (P2pAttribute.encode (staying id as)).length + Tlv.total ys) := by
    have houi : p2pOui.length = 4 := rfl
    simp only [Tlv.total_append, Tlv.total_cons, Tlv.size, List.length_append, houi]
    omega
  rw [← hesize] at hloop
  have hrun : RtwBssidExRemoveP2pAttr b id (closeGap m b.ieLength (fixedIeLength + Tlv.total xs) e.size
      (6 + (P2pAttribute.encode (staying id as)).length)) := ⟨_, hfound, m, _, hloop, rfl⟩
  refine ⟨_, hrun, ⟨vendorIe, _, hbody⟩, rfl, rfl, ?_, ?_⟩
  · -- what is between the fixed fields and the cleared bytes
    have hpieces : (closeGap m b.ieLength (fixedIeLength + Tlv.total xs) e.size
        (6 + (P2pAttribute.encode (staying id as)).length)).ies.read 0 b.ieLength
          = b.ies.read 0 fixedIeLength ++ (Tlv.encode (xs ++ ⟨vendorIe, _, hbody⟩ :: ys)
            ++ List.replicate cleared.length 0) := by
      rw [hread]
      have houi : (p2pOui ++ P2pAttribute.encode (staying id as)).length
          = 4 + (P2pAttribute.encode (staying id as)).length := by
        rw [List.length_append]
        rfl
      simp only [Tlv.encode_append, Tlv.encode_cons, Tlv.bytes, houi, p2pHeader, List.append_assoc,
        List.cons_append]
    have hmid := Mem.read_middle hpieces
    rw [Mem.length_read, Nat.zero_add, Tlv.length_encode] at hmid
    exact hmid
  · rw [hless, htotal']
    omega

/-- **Where a shorter element passes, nothing is removed.** -/
theorem unchanged_of_spill (id : UInt8) (h : HasP2p b xs e as ys) {us vs : List Tlv} {x : Tlv}
    (hs : xs = us ++ x :: vs) (hnone : NonePass b.ies fixedIeLength us)
    (hx : isP2p b.ies (fixedIeLength + Tlv.total us) = true) (hshort : x.body.length < 4) :
    RtwBssidExRemoveP2pAttr b id b := by
  have hfits := h.fits
  have hlen := h.len
  have hes : xs ++ e :: ys = us ++ x :: (vs ++ e :: ys) := by
    rw [hs, List.append_assoc, List.cons_append]
  have hesize : 6 ≤ e.size := by
    unfold Tlv.size
    rw [h.length]
    omega
  have htotal : Tlv.total (us ++ x :: (vs ++ e :: ys))
      = Tlv.total us + (x.size + (Tlv.total vs + (e.size + Tlv.total ys))) := by simp
  have hfound := (p2p_first (hes ▸ h.holds) hnone hx (by omega) (by rw [← hes]; omega)
    (r := some ⟨Tlv.total us, some x.size, none⟩)).mpr rfl
  rw [← hes, ← hlen] at hfound
  obtain ⟨hid, houi⟩ := isP2p_split.mp hx
  have hshift : (b.ies.shift (fixedIeLength + Tlv.total us)).read 2 4 = p2pOui := by
    rw [Mem.read_shift]
    exact houi
  -- the first attribute would be behind its end
  have hsearch : RtwGetP2pAttr (b.ies.shift (fixedIeLength + Tlv.total us)) x.size id.toNat
      ⟨true, false⟩ none := by
    refine (rtwGetP2pAttr_iff hid hshift).mpr ((attr_past ?_).mpr rfl)
    unfold Tlv.size
    omega
  have hgap : b = closeGap b.ies b.ieLength (fixedIeLength + Tlv.total us) x.size x.size := by
    unfold closeGap
    rw [if_pos rfl]
  exact ⟨_, hfound, b.ies, x.size, .done hsearch rfl, hgap⟩

/-- The function ends, and with the attributes removed. -/
def RemovesAttr (b : BssidEx) (xs : List Tlv) (as : List P2pAttribute) (ys : List Tlv) (id : UInt8) :
    Prop :=
  (∃ b', RtwBssidExRemoveP2pAttr b id b')
    ∧ ∀ b', RtwBssidExRemoveP2pAttr b id b' → AttrRemoved xs as ys id b'

/-- Then what is there is right if there was nothing to remove. -/
theorem removesAttr_of_spill (h : HasP2p b xs e as ys) {us vs : List Tlv} {x : Tlv}
    (hs : xs = us ++ x :: vs) (hnone : NonePass b.ies fixedIeLength us)
    (hx : isP2p b.ies (fixedIeLength + Tlv.total us) = true) (hshort : x.body.length < 4) :
    RemovesAttr b xs as ys id ↔ ∀ a ∈ as, a.id ≠ id := by
  have hsame := unchanged_of_spill id h hs hnone hx hshort
  constructor
  · rintro ⟨-, hall⟩
    obtain ⟨e', -, hbody, -, hlen⟩ := hall b hsame
    have htotals := h.len.symm.trans hlen
    simp only [Tlv.total_append, Tlv.total_cons, Tlv.size, h.body, hbody, List.length_append]
      at htotals
    exact none_with_of_length (by omega)
  · intro hno
    refine ⟨⟨b, hsame⟩, fun c hc => ?_⟩
    rw [← hsame.unique hc]
    refine ⟨e, h.isP2p.1, ?_, h.holds, h.len⟩
    rw [staying_eq_self hno, h.body]

/-- **Removing an attribute leaves the elements well-formed without it** exactly when no shorter element
in front passes for a P2P element, or there is no such attribute. -/
theorem p2p_attr_removed_iff (b : BssidEx) (xs : List Tlv) (e : Tlv) (as : List P2pAttribute)
    (ys : List Tlv) (id : UInt8) (h : HasP2p b xs e as ys) :
    RemovesAttr b xs as ys id ↔ NoSpill b.ies fixedIeLength xs ∨ ∀ a ∈ as, a.id ≠ id := by
  have hfront := (Holds.append.mp h.holds).1
  rcases first_pass b.ies xs fixedIeLength with hnone | ⟨us, x, vs, hs, hnone, hx⟩
  · obtain ⟨b', hb', hgood⟩ := removed_of_nonePass id h hnone
    refine iff_of_true ⟨⟨b', hb'⟩, fun c hc => hb'.unique hc ▸ hgood⟩ (Or.inl ?_)
    intro us x vs hs hp
    rw [hnone us x vs hs] at hp
    cases hp
  · have hhead := (Holds.split hfront hs).1
    have hshort : x.body.length < 4 := by
      by_contra hge
      have hyes := (isP2p_iff hhead (fun _ => by omega)).mp hx
      exact h.first x (hs ▸ List.mem_append_right _ (List.mem_cons_self ..)) hyes
    have hspill : ¬ NoSpill b.ies fixedIeLength xs := by
      intro hno
      have hge := hno us x vs hs hx
      omega
    rw [or_iff_right hspill]
    exact removesAttr_of_spill h hs hnone hx hshort

end

/-! ## Two beacons -/

/-- The capability, a group info and a notice of absence. -/
def sampleAttrs : List P2pAttribute :=
  [⟨2, [0x25, 0x01], by decide⟩, ⟨12, [], by decide⟩, ⟨2, [0, 0], by decide⟩]

def sampleP2p : Tlv := ⟨221, p2pOui ++ P2pAttribute.encode sampleAttrs, by decide⟩

/-- The elements behind cleared fixed fields. -/
def bssOf (es : List Tlv) : BssidEx := ⟨behindFixed es, fixedIeLength + Tlv.total es⟩

theorem hasP2p_bssOf {xs ys : List Tlv} (hfit : fixedIeLength + Tlv.total (xs ++ sampleP2p :: ys) ≤ maxIe)
    (hfirst : ∀ x ∈ xs, ¬ IsP2p x) :
    HasP2p (bssOf (xs ++ sampleP2p :: ys)) xs sampleP2p sampleAttrs ys where
  holds := holds_behindFixed _
  len := rfl
  fits := hfit
  first := hfirst
  isP2p := by decide
  attrs := rfl

theorem p2p_attr_removed_sample :
    RemovesAttr (bssOf ([⟨0, [0x61], by decide⟩] ++ sampleP2p :: [⟨3, [6], by decide⟩]))
      [⟨0, [0x61], by decide⟩] sampleAttrs [⟨3, [6], by decide⟩] 2 :=
  (p2p_attr_removed_iff _ _ _ _ _ 2 (hasP2p_bssOf (by decide) (by decide))).mpr
    (Or.inl (noSpill_of_lengths (by decide) (Holds.append.mp (holds_behindFixed _)).1))

/-- A vendor element of three bytes, and the id of the next element: together they are the OUI. -/
def spillFront : List Tlv := [⟨221, [0x50, 0x6f, 0x9a], by decide⟩, ⟨9, [], Tlv.empty_short⟩]

/-- **The wrong element is searched**, and both attributes stay. -/
theorem p2p_attr_not_removed :
    ¬ RemovesAttr (bssOf (spillFront ++ sampleP2p :: [])) spillFront sampleAttrs [] 2 := by
  have h : HasP2p (bssOf (spillFront ++ sampleP2p :: [])) spillFront sampleP2p sampleAttrs [] :=
    hasP2p_bssOf (by decide) (by decide)
  have hnone : NonePass (bssOf (spillFront ++ sampleP2p :: [])).ies fixedIeLength [] :=
    fun us x vs hs => absurd hs (by simp)
  have hs : spillFront = [] ++ ⟨221, [0x50, 0x6f, 0x9a], by decide⟩ :: [⟨9, [], by decide⟩] := rfl
  rw [removesAttr_of_spill h hs hnone (by decide) (by decide)]
  decide

end Rtl8812au.Ies

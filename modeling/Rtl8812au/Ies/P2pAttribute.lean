import Rtl8812au.Ies.Attr

/-!
# P2P attributes

What the body of a P2P element is made of: attributes with a header of three bytes, one behind the other.
Over complete attributes the search goes from one to the next and finds the first of its id.
-/

namespace Rtl8812au.Ies

/-- An attribute. The length of its body is a `u16`. -/
@[ext] structure P2pAttribute where
  id : UInt8
  body : List UInt8
  short : body.length < 2 ^ 16

namespace P2pAttribute

/-- What it takes up. -/
def size (a : P2pAttribute) : Nat := a.body.length + 3

/-- The attribute as it is written. -/
def bytes (a : P2pAttribute) : List UInt8 :=
  a.id :: UInt8.ofNat a.body.length :: UInt8.ofNat (a.body.length / 256) :: a.body

/-- Attributes, one behind the other. -/
def encode (as : List P2pAttribute) : List UInt8 := as.flatMap bytes

@[simp] theorem length_bytes (a : P2pAttribute) : a.bytes.length = a.size := rfl

@[simp] theorem encode_nil : encode [] = [] := rfl

@[simp] theorem encode_cons (a : P2pAttribute) (as : List P2pAttribute) :
    encode (a :: as) = a.bytes ++ encode as := rfl

@[simp] theorem encode_append (as bs : List P2pAttribute) :
    encode (as ++ bs) = encode as ++ encode bs := List.flatMap_append

/-- What the bytes of an attribute in memory are. -/
theorem at_memory {m : Mem} {c n : Nat} {a : P2pAttribute} {rest : List UInt8}
    (h : m.read c n = a.bytes ++ rest) :
    m c = a.id ∧ m.le16 (c + 1) = a.body.length ∧ m.read (c + 3) a.body.length = a.body
      ∧ m.read (c + a.size) rest.length = rest := by
  have hn : n = 3 + (a.body.length + rest.length) := by
    have hlen := congrArg List.length h
    rw [Mem.length_read, List.length_append, length_bytes, size] at hlen
    omega
  have hhead : m.read c 3 ++ m.read (c + 3) (a.body.length + rest.length)
      = [a.id, UInt8.ofNat a.body.length, UInt8.ofNat (a.body.length / 256)] ++ (a.body ++ rest) := by
    rw [← Mem.read_add, ← hn, h]
    rfl
  obtain ⟨h3, hbody⟩ := List.append_inj hhead rfl
  rw [Mem.read_add] at hbody
  obtain ⟨hbody, hrest⟩ := List.append_inj hbody (Mem.length_read m _ _)
  have hbytes : [m c, m (c + 1), m (c + 2)]
      = [a.id, UInt8.ofNat a.body.length, UInt8.ofNat (a.body.length / 256)] := h3
  obtain ⟨hid, htail⟩ := List.cons.inj hbytes
  obtain ⟨hlo, htail⟩ := List.cons.inj htail
  obtain ⟨hhi, -⟩ := List.cons.inj htail
  refine ⟨hid, ?_, hbody, ?_⟩
  · have hshort := a.short
    unfold Mem.le16
    rw [hlo, hhi, UInt8.toNat_ofNat', UInt8.toNat_ofNat']
    omega
  · have hat : c + a.size = c + 3 + a.body.length := by
      unfold size
      omega
    rw [hat]
    exact hrest

end P2pAttribute

/-! ## The search over complete attributes -/

section

variable {m : Mem} {ielen target : Nat} {w : Wants} {r : Option Found}

/-- **Attributes with another id are passed.** -/
theorem attr_skip {as : List P2pAttribute} : ∀ {c n : Nat} {rest : List UInt8},
    m.read c n = P2pAttribute.encode as ++ rest → c + (P2pAttribute.encode as).length ≤ ielen →
    ielen < 2 ^ 16 → (∀ a ∈ as, a.id.toNat ≠ target) →
    (Loop.Ends (attrTurn p2pLayout m ielen target w) c r
      ↔ Loop.Ends (attrTurn p2pLayout m ielen target w) (c + (P2pAttribute.encode as).length) r) := by
  induction as with
  | nil => intro c n rest _ _ _ _; rfl
  | cons a as ih =>
      intro c n rest h hin hbig hno
      rw [P2pAttribute.encode_cons, List.append_assoc] at h
      rw [P2pAttribute.encode_cons, List.length_append, P2pAttribute.length_bytes] at hin ⊢
      obtain ⟨hid, hlen, -, hrest⟩ := P2pAttribute.at_memory h
      have hpos : 3 ≤ a.size := Nat.le_add_left 3 _
      have hother : p2pLayout.idAt m c ≠ target := by
        intro he
        refine hno a (List.mem_cons_self ..) ?_
        rw [← hid]
        exact he
      have hstep : attrLen p2pLayout m c = a.size := by
        have hmod : (m.le16 (c + 1) + 3) % 2 ^ 16 = a.size := by
          rw [hlen]
          exact Nat.mod_eq_of_lt (by
            unfold P2pAttribute.size at hin
            omega)
        exact hmod
      have hturn : attrTurn p2pLayout m ielen target w c = .done (.next (c + a.size)) := by
        unfold attrTurn
        rw [if_pos (by omega), if_neg hother, hstep]
        rfl
      rw [Loop.ends_next hturn, ih hrest (by omega) hbig (fun x hx => hno x (List.mem_cons_of_mem _ hx)),
        Nat.add_assoc]

/-- **The first with the id is found.** -/
theorem attr_found {a : P2pAttribute} {c n : Nat} {rest : List UInt8}
    (h : m.read c n = a.bytes ++ rest) (hin : c < ielen) (hsize : a.size < 2 ^ 16)
    (hid : a.id.toNat = target) :
    Loop.Ends (attrTurn p2pLayout m ielen target ⟨true, false⟩) c r
      ↔ r = some ⟨c, some a.size, none⟩ := by
  obtain ⟨hmid, hlen, -⟩ := P2pAttribute.at_memory h
  have hit : p2pLayout.idAt m c = target := by
    rw [← hid, ← hmid]
    rfl
  have hattr : attrLen p2pLayout m c = a.size := by
    have hmod : (m.le16 (c + 1) + 3) % 2 ^ 16 = a.size := by
      rw [hlen]
      exact Nat.mod_eq_of_lt hsize
    exact hmod
  refine Loop.ends_stop ?_
  unfold attrTurn
  rw [if_pos hin, if_pos hit, hattr]
  rfl

/-- Behind the last one nothing is found. -/
theorem attr_past {c : Nat} (h : ielen ≤ c) :
    Loop.Ends (attrTurn p2pLayout m ielen target w) c r ↔ r = none :=
  Loop.ends_stop (by
    unfold attrTurn
    rw [if_neg (by omega)]
    rfl)

/-- Of a P2P element the attributes are searched. -/
theorem rtwGetP2pAttr_iff (h0 : m 0 = vendorIe) (houi : m.read 2 4 = p2pOui) :
    RtwGetP2pAttr m ielen target w r ↔ Loop.Ends (attrTurn p2pLayout m ielen target w) 6 r := by
  unfold RtwGetP2pAttr attrSearch
  rw [if_neg (fun hc => hc.elim (fun hne => hne h0) (fun hne => hne houi))]

/-- The search has one result. -/
theorem RtwGetP2pAttr.unique {r' : Option Found} (h : RtwGetP2pAttr m ielen target w r)
    (h' : RtwGetP2pAttr m ielen target w r') : r = r' := by
  unfold RtwGetP2pAttr attrSearch at h h'
  split at h
  case isTrue hc =>
    rw [if_pos hc] at h'
    rw [h, h']
  case isFalse hc =>
    rw [if_neg hc] at h'
    exact h.unique h'

end

end Rtl8812au.Ies

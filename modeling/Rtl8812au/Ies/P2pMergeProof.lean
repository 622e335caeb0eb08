import Rtl8812au.Ies.P2pMerge
import Rtl8812au.Ies.WalkProof
import Rtl8812au.Ies.SecIeProof

/-!
# What the two merges agree on

Both walks come to the same elements, so what they add up is the same sum, once as an `int` and once as
a byte. The byte is the sum while that is at most 255. An offset of 2^31 is negative, and the four bytes
that tell a P2P element are compared before its length is known.
-/

namespace Rtl8812au.Ies

/-! ## The common walk -/

section

variable {α : Type} {m : Mem} {inLen : Nat} {take : Nat → α → Outcome α}

/-- What is accumulated over the elements from `p` on. -/
def walked (m : Mem) (take : Nat → α → Outcome α) : Nat → List Tlv → α → Outcome α
  | _, [], a => .done a
  | p, e :: es, a => do
    let a ← takeOut m take p a
    walked m take (p + e.size) es a

/-- Every element begins where an `int` gets to. -/
def Reached (p : Nat) (es : List Tlv) : Prop :=
  ∀ xs e ys, es = xs ++ e :: ys → p + Tlv.total xs < 2 ^ 31

theorem reached_cons {p : Nat} {e : Tlv} {es : List Tlv} :
    Reached p (e :: es) ↔ p < 2 ^ 31 ∧ Reached (p + e.size) es := by
  unfold Reached
  rw [Tlv.forall_split_cons (P := fun xs _ _ => p + Tlv.total xs < 2 ^ 31)]
  simp only [Tlv.total_nil, Tlv.total_cons, Nat.add_zero, Nat.add_assoc]

/-- The offset is compared as what it would be without a sign. -/
theorem offset_toNat {p : Nat} (h : p < 2 ^ 32) : ((p : Int).bmod (2 ^ 32) % 2 ^ 32).toNat = p := by
  have hmod : (p : Int).bmod (2 ^ 32) % 2 ^ 32 = (p : Int) % 2 ^ 32 := Int.bmod_emod
  rw [hmod]
  omega

theorem mergeTurn_eq (i : Int) (a : α) : mergeTurn m inLen take (i, a) =
    if inLen ≤ (i % 2 ^ 32).toNat then .done (.stop a)
    else if i < 0 then .overrun
    else (do
      let a ← takeOut m take i.toNat a
      pure (.next ((i + ((m (i.toNat + 1)).toNat + 2 : Nat)).bmod (2 ^ 32), a))) := rfl

theorem mergeTurn_end {p : Nat} {a : α} (h : inLen ≤ p) (hbig : p < 2 ^ 32) :
    mergeTurn m inLen take ((p : Int).bmod (2 ^ 32), a) = .done (.stop a) := by
  rw [mergeTurn_eq, offset_toNat hbig, if_pos h]

theorem mergeTurn_negative {p : Nat} {a : α} (hlt : p < inLen) (hbig : inLen < 2 ^ 32)
    (h : 2 ^ 31 ≤ p) : mergeTurn m inLen take ((p : Int).bmod (2 ^ 32), a) = .overrun := by
  have hneg := bmod_of_ge h (Nat.lt_trans hlt hbig)
  rw [mergeTurn_eq, offset_toNat (by omega), if_neg (by omega), if_pos hneg]

/-- A turn at an element takes what there is to take and goes behind it. -/
theorem mergeTurn_element {p : Nat} {e : Tlv} {es : List Tlv} {a : α} (h : Holds m p (e :: es))
    (hlt : p < inLen) (hp : p < 2 ^ 31) :
    mergeTurn m inLen take ((p : Int).bmod (2 ^ 32), a) = (do
      let a ← takeOut m take p a
      pure (.next (((p + e.size : Nat) : Int).bmod (2 ^ 32), a))) := by
  have hsize : (m (p + 1)).toNat + 2 = e.size := sizeAt_eq h
  rw [mergeTurn_eq, offset_toNat (by omega), if_neg (by omega), bmod_of_lt hp, if_neg (by omega),
    Int.toNat_natCast, hsize, ← Int.natCast_add]

/-- **The walk ends exactly when no element begins at 2^31 or behind it**, with what is
accumulated. -/
theorem merge_ends_iff {es : List Tlv} : ∀ {p : Nat} {a b : α}, Holds m p es →
    p + Tlv.total es = inLen → inLen < 2 ^ 32 →
    (Loop.Ends (mergeTurn m inLen take) ((p : Int).bmod (2 ^ 32), a) b
      ↔ Reached p es ∧ walked m take p es a = .done b) := by
  induction es with
  | nil =>
      intro p a b _ hp hbig
      rw [Tlv.total_nil, Nat.add_zero] at hp
      rw [Loop.ends_stop (mergeTurn_end (Nat.le_of_eq hp.symm) (by omega))]
      constructor
      · rintro rfl
        exact ⟨fun xs e ys hs => absurd hs (by simp), rfl⟩
      · rintro ⟨-, hw⟩
        cases hw
        rfl
  | cons e es ih =>
      intro p a b h hp hbig
      have hsize := e.two_le_size
      rw [Tlv.total_cons] at hp
      have hlt : p < inLen := by omega
      have htail := (Holds.cons.mp h).2
      rw [reached_cons]
      by_cases h31 : p < 2 ^ 31
      · have hturn := @mergeTurn_element α m inLen take p e es a h hlt h31
        rw [walked]
        cases hstep : takeOut m take p a with
        | overrun =>
            rw [hstep] at hturn
            refine iff_of_false (Loop.not_ends_overrun hturn) ?_
            rintro ⟨-, hw⟩
            cases hw
        | hangs =>
            rw [hstep] at hturn
            refine iff_of_false (Loop.not_ends_hangs hturn) ?_
            rintro ⟨-, hw⟩
            cases hw
        | done a' =>
            rw [hstep] at hturn
            rw [Loop.ends_next hturn, ih htail (by omega) hbig, Outcome.done_bind]
            exact ⟨fun hr => ⟨⟨h31, hr.1⟩, hr.2⟩, fun hr => ⟨hr.1.2, hr.2⟩⟩
      · refine iff_of_false (Loop.not_ends_overrun (mergeTurn_negative hlt hbig (by omega))) ?_
        rintro ⟨⟨hp31, -⟩, -⟩
        exact h31 hp31

end

/-! ## What is taken out -/

/-- A P2P element. -/
def IsP2p (e : Tlv) : Prop := e.id = vendorIe ∧ e.body.take 4 = p2pOui

instance : DecidablePred IsP2p := fun _ => inferInstanceAs (Decidable (_ ∧ _))

/-- What the P2P elements have behind their OUI, one behind the other. -/
def p2pBodies (es : List Tlv) : List UInt8 :=
  es.flatMap fun e => if IsP2p e then e.body.drop 4 else []

/-- What passes for a P2P element has the four bytes that are compared. -/
def NoSpill (m : Mem) (p : Nat) (es : List Tlv) : Prop :=
  ∀ xs e ys, es = xs ++ e :: ys → isP2p m (p + Tlv.total xs) = true → 4 ≤ e.body.length

section

variable {m : Mem} {p : Nat} {e : Tlv} {es : List Tlv}

theorem noSpill_cons : NoSpill m p (e :: es) ↔
    (isP2p m p = true → 4 ≤ e.body.length) ∧ NoSpill m (p + e.size) es := by
  unfold NoSpill
  rw [Tlv.forall_split_cons (P := fun xs x _ => isP2p m (p + Tlv.total xs) = true → 4 ≤ x.body.length)]
  simp only [Tlv.total_nil, Tlv.total_cons, Nat.add_zero, Nat.add_assoc]

/-- Where the four bytes are the element's, the test is right. -/
theorem isP2p_iff (h : Holds m p [e]) (h4 : isP2p m p = true → 4 ≤ e.body.length) :
    isP2p m p = true ↔ IsP2p e := by
  have htest : isP2p m p = true ↔ m p = vendorIe ∧ m.read (p + 2) 4 = p2pOui := by
    unfold isP2p
    rw [Bool.and_eq_true, decide_eq_true_iff, decide_eq_true_iff]
  constructor
  · intro hp
    have hread := read_body (o := 0) h (h4 hp)
    obtain ⟨hid, hbytes⟩ := htest.mp hp
    exact ⟨h.head.1.symm.trans hid, hread.symm.trans hbytes⟩
  · rintro ⟨hid, hbody⟩
    have hread := read_body (o := 0) h (four_of_take (o := 0) rfl hbody)
    exact htest.mpr ⟨h.head.1.trans hid, hread.trans hbody⟩

/-- What is copied from a P2P element is what is behind its OUI. -/
theorem read_behind_oui (h : Holds m p [e]) :
    m.read (p + 6) (e.body.length - 4) = e.body.drop 4 := by
  obtain ⟨-, -, hbody⟩ := h.head
  by_cases h4 : 4 ≤ e.body.length
  · conv => rhs; rw [← hbody]
    rw [Mem.drop_read m h4]
  · have hz : e.body.length - 4 = 0 := by omega
    rw [hz, List.drop_eq_nil_of_le (by omega)]
    rfl

/-- The length byte of an element. -/
theorem length_byte (h : Holds m p [e]) : m (p + 1) = UInt8.ofNat e.body.length := by
  rw [← h.head.2.1, UInt8.ofNat_toNat]

theorem p2pBodies_cons : p2pBodies (e :: es) =
    (if IsP2p e then e.body.drop 4 else []) ++ p2pBodies es := List.flatMap_cons

end

/-! ## The two sums -/

section

variable {m : Mem}

/-- **The length adds up**, in 32 bits. -/
theorem walked_addLength {es : List Tlv} : ∀ {p k : Nat}, Holds m p es → NoSpill m p es →
    walked m (addLength m) p es ((k : Int).bmod (2 ^ 32))
      = .done (((k + (p2pBodies es).length : Nat) : Int).bmod (2 ^ 32)) := by
  induction es with
  | nil =>
      intro p k _ _
      rfl
  | cons e es ih =>
      intro p k h hs
      obtain ⟨hhead, htail⟩ := Holds.cons.mp h
      obtain ⟨h4, hs⟩ := noSpill_cons.mp hs
      have hiff := isP2p_iff hhead h4
      rw [walked, takeOut, p2pBodies_cons]
      by_cases hp : isP2p m p = true
      · have hlen := h4 hp
        have hsum : ((k : Int).bmod (2 ^ 32) + ((m (p + 1)).toNat - 4 : Int)).bmod (2 ^ 32)
            = ((k + (e.body.length - 4) : Nat) : Int).bmod (2 ^ 32) := by
          rw [Int.bmod_add_bmod, hhead.head.2.1]
          congr 1
          omega
        rw [if_pos hp, if_pos (hiff.mp hp), addLength, hsum, Outcome.done_bind, ih htail hs,
          List.length_append, List.length_drop, Nat.add_assoc]
      · rw [if_neg hp, if_neg (fun hi => hp (hiff.mpr hi)), Outcome.done_bind, ih htail hs,
          List.nil_append]

/-- **The bodies are copied** one behind the other, and their length adds up in 8 bits. -/
theorem walked_appendBody {es : List Tlv} : ∀ {p : Nat} {l : UInt8} {o : List UInt8}
    {b : UInt8 × List UInt8}, Holds m p es →
    (walked m (appendBody m) p es (l, o) = .done b
      ↔ NoSpill m p es ∧ b = (l + UInt8.ofNat (p2pBodies es).length, o ++ p2pBodies es)) := by
  induction es with
  | nil =>
      intro p l o b _
      have hnil : NoSpill m p [] := by
        intro xs e ys hs
        exact absurd hs (by simp)
      simp [walked, p2pBodies, hnil, eq_comm]
  | cons e es ih =>
      intro p l o b h
      obtain ⟨hhead, htail⟩ := Holds.cons.mp h
      rw [noSpill_cons, walked, takeOut, p2pBodies_cons]
      by_cases hp : isP2p m p = true
      · rw [if_pos hp, appendBody, hhead.head.2.1]
        by_cases h4 : 4 ≤ e.body.length
        · have hiff := isP2p_iff hhead (fun _ => h4)
          have hbyte : m (p + 1) - 4 = UInt8.ofNat (e.body.length - 4) := by
            rw [length_byte hhead, UInt8.ofNat_sub h4]
            rfl
          rw [if_neg (by omega), if_pos (hiff.mp hp), Outcome.done_bind, ih htail, hbyte,
            read_behind_oui hhead, List.length_append, List.length_drop, UInt8.ofNat_add,
            UInt8.add_assoc, List.append_assoc]
          exact ⟨fun hr => ⟨⟨fun _ => h4, hr.1⟩, hr.2⟩, fun hr => ⟨hr.1.2, hr.2⟩⟩
        · rw [if_pos (by omega), Outcome.overrun_bind]
          refine iff_of_false nofun ?_
          rintro ⟨⟨hlen, -⟩, -⟩
          exact h4 (hlen hp)
      · have hiff := isP2p_iff hhead (fun hc => absurd hc hp)
        rw [if_neg hp, if_neg (fun hi => hp (hiff.mpr hi)), Outcome.done_bind, ih htail,
          List.nil_append]
        exact ⟨fun hr => ⟨⟨fun hc => absurd hc hp, hr.1⟩, hr.2⟩, fun hr => ⟨hr.1.2, hr.2⟩⟩

end

/-! ## The two functions -/

section

variable {m : Mem} {es : List Tlv}

/-- The walk from the first element on. -/
theorem merge_ends_zero {α : Type} {take : Nat → α → Outcome α} {a b : α} (h : Holds m 0 es)
    (hbig : Tlv.total es < 2 ^ 32) :
    Loop.Ends (mergeTurn m (Tlv.total es) take) (0, a) b
      ↔ Reached 0 es ∧ walked m take 0 es a = .done b :=
  merge_ends_iff (p := 0) h (Nat.zero_add _) hbig

/-- `rtw_p2p_merge_ies` writes the header and the bodies, and returns their length as a byte and 4. -/
theorem rtwP2pMergeIes_iff (h : Holds m 0 es) (hbig : Tlv.total es < 2 ^ 32) {out : List UInt8}
    {ret : Nat} : RtwP2pMergeIes m (Tlv.total es) true out ret ↔ (Reached 0 es ∧ NoSpill m 0 es)
      ∧ out = elOui ++ p2pBodies es ∧ ret = (p2pBodies es).length % 256 + 4 := by
  have hbyte : ((0 : UInt8) + UInt8.ofNat (p2pBodies es).length).toNat
      = (p2pBodies es).length % 256 := by
    rw [UInt8.zero_add, UInt8.toNat_ofNat']
  unfold RtwP2pMergeIes
  rw [if_pos rfl]
  constructor
  · rintro ⟨len, hends, rfl⟩
    obtain ⟨hreach, hwalk⟩ := (merge_ends_zero h hbig).mp hends
    obtain ⟨hs, hout⟩ := (walked_appendBody h).mp hwalk
    obtain ⟨rfl, rfl⟩ := Prod.mk.inj hout
    exact ⟨⟨hreach, hs⟩, rfl, by rw [hbyte]⟩
  · rintro ⟨⟨hreach, hs⟩, rfl, rfl⟩
    refine ⟨0 + UInt8.ofNat (p2pBodies es).length, ?_, by rw [hbyte]⟩
    exact (merge_ends_zero h hbig).mpr ⟨hreach, (walked_appendBody h).mpr ⟨hs, rfl⟩⟩

/-- `rtw_get_p2p_merged_ies_len` returns their length and 4. -/
theorem rtwGetP2pMergedIesLen_iff (h : Holds m 0 es) (hbig : Tlv.total es < 2 ^ 32)
    (hreach : Reached 0 es) (hs : NoSpill m 0 es) {ret : Nat} :
    RtwGetP2pMergedIesLen m (Tlv.total es) ret
      ↔ ret = ((p2pBodies es).length + 4) % 2 ^ 32 := by
  have hval : ((((0 + (p2pBodies es).length : Nat) : Int).bmod (2 ^ 32) + 4) % 2 ^ 32).toNat
      = ((p2pBodies es).length + 4) % 2 ^ 32 := by
    have hmod : (((0 + (p2pBodies es).length : Nat) : Int).bmod (2 ^ 32)) % 2 ^ 32
        = ((0 + (p2pBodies es).length : Nat) : Int) % 2 ^ 32 := Int.bmod_emod
    omega
  have hends : ∀ len, Loop.Ends (mergeTurn m (Tlv.total es) (addLength m)) (0, 0) len
      ↔ len = ((0 + (p2pBodies es).length : Nat) : Int).bmod (2 ^ 32) := by
    intro len
    have hwalk := walked_addLength (k := 0) h hs
    rw [merge_ends_zero h hbig]
    constructor
    · rintro ⟨-, hw⟩
      exact Outcome.done.inj (hw.symm.trans hwalk)
    · intro hlen
      rw [hlen]
      exact ⟨hreach, hwalk⟩
  constructor
  · rintro ⟨len, hlen, rfl⟩
    rw [(hends len).mp hlen, hval]
  · rintro rfl
    exact ⟨_, (hends _).mpr rfl, hval.symm⟩

/-- The two return the same, and that many bytes and two more are written: the header and all bodies. -/
def MergeAgrees (m : Mem) (es : List Tlv) : Prop :=
  ∃ n out, RtwGetP2pMergedIesLen m (Tlv.total es) n ∧ RtwP2pMergeIes m (Tlv.total es) true out n
    ∧ out = elOui ++ p2pBodies es ∧ out.length = n + 2

/-- **The merges agree** exactly while the bodies have at most 255 bytes, every element begins below
2^31 and none is told for a P2P element by bytes that are not its own. -/
theorem p2p_merge_agrees_iff (m : Mem) (es : List Tlv) (h : Holds m 0 es)
    (hbig : Tlv.total es < 2 ^ 32) : MergeAgrees m es
      ↔ (p2pBodies es).length ≤ 255 ∧ Reached 0 es ∧ NoSpill m 0 es := by
  constructor
  · rintro ⟨n, out, -, hmerge, -, hlen⟩
    obtain ⟨⟨hreach, hs⟩, rfl, rfl⟩ := (rtwP2pMergeIes_iff h hbig).mp hmerge
    rw [List.length_append] at hlen
    have hhead : elOui.length = 6 := rfl
    exact ⟨by omega, hreach, hs⟩
  · rintro ⟨hlen, hreach, hs⟩
    refine ⟨(p2pBodies es).length + 4, elOui ++ p2pBodies es, ?_, ?_, rfl, ?_⟩
    · rw [rtwGetP2pMergedIesLen_iff h hbig hreach hs]
      omega
    · rw [rtwP2pMergeIes_iff h hbig]
      exact ⟨⟨hreach, hs⟩, rfl, by omega⟩
    · rw [List.length_append, Nat.add_comm]
      rfl

end

/-- Two P2P elements and an SSID between them. -/
def mergeSample : List Tlv :=
  [⟨221, [0x50, 0x6f, 0x9a, 0x09, 2, 2, 0, 0x25, 0], by decide⟩, ⟨0, [0x61], by decide⟩,
    ⟨221, [0x50, 0x6f, 0x9a, 0x09, 6, 1, 0, 7], by decide⟩]

/-- A memory that begins with elements. -/
def atZero (es : List Tlv) : Mem := fun k => (Tlv.encode es).getD k 0

theorem holds_atZero (es : List Tlv) : Holds (atZero es) 0 es := by
  have hread := Mem.read_getD (d := 0) [] (Tlv.encode es) []
  rw [List.append_nil, List.nil_append, Tlv.length_encode] at hread
  exact hread

theorem reached_of_total {es : List Tlv} (h : Tlv.total es < 2 ^ 31) : Reached 0 es := by
  intro xs e ys hs
  rw [hs, Tlv.total_append] at h
  omega

theorem noSpill_of_lengths {m : Mem} {p : Nat} {es : List Tlv}
    (h : ∀ e ∈ es, e.id = vendorIe → 4 ≤ e.body.length) (hm : Holds m p es) : NoSpill m p es := by
  intro xs e ys hs hp
  have hid : e.id = vendorIe := by
    unfold isP2p at hp
    rw [Bool.and_eq_true, decide_eq_true_iff] at hp
    exact (Holds.split hm hs).1.head.1.symm.trans hp.1
  exact h e (hs ▸ List.mem_append_right _ (List.mem_cons_self ..)) hid

theorem p2p_merge_agrees_sample : MergeAgrees (atZero mergeSample) mergeSample :=
  (p2p_merge_agrees_iff _ _ (holds_atZero _) (by decide)).mpr
    ⟨by decide, reached_of_total (by decide),
      noSpill_of_lengths (by decide) (holds_atZero _)⟩

/-- Two P2P elements with 128 bytes of attributes each. -/
def mergeWide : List Tlv :=
  List.replicate 2 ⟨221, p2pOui ++ List.replicate 128 0, by decide +kernel⟩

/-- **The byte is 0**: 260 is to be returned, and 4 is. -/
theorem p2p_merge_disagrees : ¬ MergeAgrees (atZero mergeWide) mergeWide := by
  have h := holds_atZero mergeWide
  have hbig : Tlv.total mergeWide < 2 ^ 32 := by decide +kernel
  have hlen : (p2pBodies mergeWide).length = 256 := by decide +kernel
  rintro ⟨n, out, -, hmerge, hbytes, hout⟩
  obtain ⟨-, -, hret⟩ := (rtwP2pMergeIes_iff h hbig).mp hmerge
  rw [hbytes, List.length_append, hret, hlen] at hout
  exact absurd hout (by decide)

end Rtl8812au.Ies

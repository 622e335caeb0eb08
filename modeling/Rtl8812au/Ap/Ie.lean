import Rtl8812au.Lib.Mem
import Rtl8812au.Lib.Tlv

/-!
# Searching information elements

`rtw_get_ie` of `core/rtw_ieee80211.c` walks the elements at `pbuf` by their lengths until
it meets the one asked for or has gone `limit` bytes. It looks at a type byte before it
looks at how many bytes are left, and never at whether the element it found is complete.
-/

namespace Rtl8812au

/-- The loop of `rtw_get_ie`, at the element `p` with `rest = limit - i` bytes to go. The
result is the element's address and its length byte. -/
def getIeLoop (m : Mem) (index : UInt8) : Nat → Nat → Nat → Option (Nat × Nat)
  | 0, _, _ => none
  | fuel + 1, p, rest =>
    if m p = index then some (p, (m (p + 1)).toNat)
    else if rest ≤ (m (p + 1)).toNat + 2 then none
    else getIeLoop m index fuel (p + ((m (p + 1)).toNat + 2)) (rest - ((m (p + 1)).toNat + 2))

/-- `rtw_get_ie`. Each element takes at least two bytes, so `limit` turns are enough. -/
def rtwGetIe (m : Mem) (pbuf : Nat) (index : UInt8) (limit : Int) : Option (Nat × Nat) :=
  if limit < 1 then none else getIeLoop m index limit.toNat pbuf limit.toNat

/-- The elements `es` stand in the memory from `p` on. -/
def Holds (m : Mem) (p : Nat) (es : List Tlv) : Prop := m.read p (Tlv.total es) = Tlv.encode es

/-! ## What the bytes of an element are -/

theorem Holds.append {m : Mem} {p : Nat} {xs ys : List Tlv} :
    Holds m p (xs ++ ys) ↔ Holds m p xs ∧ Holds m (p + Tlv.total xs) ys := by
  unfold Holds
  rw [Tlv.total_append, Tlv.encode_append, Mem.read_add]
  constructor
  · intro h
    exact List.append_inj h (by simp)
  · rintro ⟨h1, h2⟩
    rw [h1, h2]

theorem Holds.cons {m : Mem} {p : Nat} {e : Tlv} {es : List Tlv} :
    Holds m p (e :: es) ↔ Holds m p [e] ∧ Holds m (p + e.size) es :=
  @Holds.append m p [e] es

theorem Holds.nil (m : Mem) (p : Nat) : Holds m p [] := rfl

/-- An element of a list, where it stands, and what is behind it. -/
theorem Holds.split {m : Mem} {p : Nat} {xs ys es : List Tlv} {e : Tlv} (h : Holds m p es)
    (hs : es = xs ++ e :: ys) :
    Holds m (p + Tlv.total xs) [e] ∧ Holds m (p + Tlv.total xs + e.size) ys := by
  subst hs
  exact Holds.cons.mp (Holds.append.mp h).2

/-- The type byte, the length byte and the body of an element in memory. -/
theorem Holds.head {m : Mem} {p : Nat} {e : Tlv} (h : Holds m p [e]) :
    m p = e.id ∧ (m (p + 1)).toNat = e.body.length ∧ m.read (p + 2) e.body.length = e.body := by
  have hsize : Tlv.total [e] = 2 + e.body.length := by simp [Tlv.size]; omega
  have hbytes : m.read p 2 ++ m.read (p + 2) e.body.length =
      [e.id, UInt8.ofNat e.body.length] ++ e.body := by
    rw [← Mem.read_add, ← hsize]
    simpa [Holds, Tlv.bytes] using h
  obtain ⟨hhead, hbody⟩ := List.append_inj hbytes (by simp)
  have h2 : [m p, m (p + 1)] = [e.id, UInt8.ofNat e.body.length] := hhead
  obtain ⟨hid, hlen⟩ := List.cons.inj h2
  refine ⟨hid, ?_, hbody⟩
  rw [(List.cons.inj hlen).1, Tlv.toNat_length]

/-! ## What the search finds -/

/-- **Elements of another type are skipped.** -/
theorem getIeLoop_skip {m : Mem} {index : UInt8} :
    ∀ {xs ys : List Tlv} {fuel p : Nat},
      Holds m p (xs ++ ys) → (∀ e ∈ xs, e.id ≠ index) → ys ≠ [] → Tlv.total (xs ++ ys) ≤ fuel →
      ∃ fuel', Tlv.total ys ≤ fuel' ∧ getIeLoop m index fuel p (Tlv.total (xs ++ ys)) =
        getIeLoop m index fuel' (p + Tlv.total xs) (Tlv.total ys) := by
  intro xs
  induction xs with
  | nil =>
      intro ys fuel p _ _ _ hfuel
      exact ⟨fuel, hfuel, rfl⟩
  | cons e xs ih =>
      intro ys fuel p h hne hys hfuel
      obtain ⟨hhead, hrest⟩ := Holds.cons.mp h
      obtain ⟨hid, hlen, -⟩ := hhead.head
      obtain ⟨y, ys', rfl⟩ := List.exists_cons_of_ne_nil hys
      have hpos : 2 ≤ Tlv.total (y :: ys') := by simp [Tlv.size]; omega
      simp only [List.cons_append, Tlv.total_cons] at hfuel ⊢
      have hsize : (m (p + 1)).toNat + 2 = e.size := by rw [hlen]; rfl
      have he : m p ≠ index := hid ▸ hne e (List.mem_cons_self ..)
      cases fuel with
      | zero => simp [Tlv.size] at hfuel
      | succ fuel =>
        have hmore : ¬ e.size + Tlv.total (xs ++ y :: ys') ≤ e.size := by
          rw [Tlv.total_append]
          omega
        have hfuel' : Tlv.total (xs ++ y :: ys') ≤ fuel := by
          have : 2 ≤ e.size := by simp [Tlv.size]
          omega
        obtain ⟨fuel', hf, heq⟩ := ih hrest (fun e' h' => hne e' (List.mem_cons_of_mem _ h'))
          hys hfuel'
        refine ⟨fuel', hf, ?_⟩
        rw [getIeLoop, if_neg he, hsize, if_neg hmore, Nat.add_sub_cancel_left, heq, Nat.add_assoc]
        rfl

/-- **The first element of the type asked for is found**, whatever stands before it. -/
theorem rtwGetIe_found {m : Mem} {p : Nat} {index : UInt8} {xs ys : List Tlv} {e : Tlv}
    (h : Holds m p (xs ++ e :: ys)) (hne : ∀ x ∈ xs, x.id ≠ index) (he : e.id = index) :
    rtwGetIe m p index (Tlv.total (xs ++ e :: ys) : Nat) =
      some (p + Tlv.total xs, e.body.length) := by
  have hpos : 0 < Tlv.total (xs ++ e :: ys) := by
    simp only [Tlv.total_append, Tlv.total_cons, Tlv.size]
    omega
  rw [rtwGetIe, if_neg (by omega), Int.toNat_natCast]
  obtain ⟨fuel, hf, heq⟩ := getIeLoop_skip h hne (List.cons_ne_nil _ _) (Nat.le_refl _)
  obtain ⟨hid, hlen, -⟩ := (Holds.cons.mp (Holds.append.mp h).2).1.head
  cases fuel with
  | zero => simp [Tlv.size] at hf
  | succ fuel => rw [heq, getIeLoop, if_pos (hid.trans he), hlen]

/-- **An element that is not there is not found.** -/
theorem rtwGetIe_absent {m : Mem} {p : Nat} {index : UInt8} {xs : List Tlv}
    (h : Holds m p xs) (hne : ∀ x ∈ xs, x.id ≠ index) :
    rtwGetIe m p index (Tlv.total xs : Nat) = none := by
  rw [rtwGetIe]
  split
  · rfl
  · rename_i hlim
    rcases List.eq_nil_or_concat xs with rfl | ⟨ys, y, rfl⟩
    · simp at hlim
    · rw [List.concat_eq_append] at *
      obtain ⟨fuel, hf, heq⟩ := @getIeLoop_skip m index ys [y] (Tlv.total (ys ++ [y])) p h
        (fun e he => hne e (List.mem_append_left _ he)) (List.cons_ne_nil _ _) (Nat.le_refl _)
      obtain ⟨hid, hlen, -⟩ := (Holds.append.mp h).2.head
      rw [Int.toNat_natCast, heq]
      cases fuel with
      | zero => rfl
      | succ fuel =>
        have hy : m (p + Tlv.total ys) ≠ index := hid ▸ hne y (by simp)
        rw [getIeLoop, if_neg hy, hlen, if_pos (by simp [Tlv.size])]

/-! ## What the search reads -/

theorem getIeLoop_le {m : Mem} {index : UInt8} :
    ∀ {fuel q rest p len : Nat}, getIeLoop m index fuel q rest = some (p, len) → q ≤ p := by
  intro fuel
  induction fuel with
  | zero => intro q rest p len h; cases h
  | succ fuel ih =>
      intro q rest p len h
      rw [getIeLoop] at h
      split at h
      · cases h
        exact Nat.le_refl _
      · split at h
        · cases h
        · exact Nat.le_trans (Nat.le_add_right _ _) (ih h)

/-- The search reads nothing behind the length byte of what it finds. -/
theorem getIeLoop_congr {m m' : Mem} {index : UInt8} :
    ∀ {fuel q rest p len : Nat}, getIeLoop m index fuel q rest = some (p, len) →
      (∀ k, k < p + 2 → m' k = m k) → getIeLoop m' index fuel q rest = some (p, len) := by
  intro fuel
  induction fuel with
  | zero => intro q rest p len h; cases h
  | succ fuel ih =>
      intro q rest p len h hm
      have hle := getIeLoop_le h
      rw [getIeLoop] at h ⊢
      rw [hm q (by omega), hm (q + 1) (by omega)]
      split
      · rename_i hq
        rwa [if_pos hq] at h
      · rename_i hq
        rw [if_neg hq] at h
        split
        · rename_i hr
          rwa [if_pos hr] at h
        · rename_i hr
          rw [if_neg hr] at h
          exact ih h hm

/-- **A change to the body of the element that is found does not move it.** -/
theorem rtwGetIe_congr {m m' : Mem} {q : Nat} {index : UInt8} {limit : Int} {p len : Nat}
    (h : rtwGetIe m q index limit = some (p, len)) (hm : ∀ k, k < p + 2 → m' k = m k) :
    rtwGetIe m' q index limit = some (p, len) := by
  rw [rtwGetIe] at h ⊢
  split
  · rename_i hl
    rw [if_pos hl] at h
    cases h
  · rename_i hl
    rw [if_neg hl] at h
    exact getIeLoop_congr h hm

end Rtl8812au

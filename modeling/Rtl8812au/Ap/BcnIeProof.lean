import Rtl8812au.Ap.BcnIe
import Rtl8812au.Ap.TimProof

/-!
# Where a beacon element goes

An ascending list falls into the elements below an identifier, the first of the identifier if there is
one, and those behind it. The walk ends with the element in the middle, or with the last one below; from
that element's length alone it is told whether there is a place at all.
-/

namespace Rtl8812au

/-! ## The three parts of a list -/

/-- Identifiers do not fall. -/
def Ascending (es : List Tlv) : Prop := es.Pairwise fun a b => a.id ≤ b.id

/-- The parts: below the identifier, the first element of it, and what is behind. -/
structure Parts (index : UInt8) (es xs old ys : List Tlv) : Prop where
  eq : es = xs ++ (old ++ ys)
  below : ∀ x ∈ xs, x.id < index
  one : old = [] ∨ ∃ e, old = [e] ∧ e.id = index
  above : old = [] → ∀ y ∈ ys, index < y.id

theorem exists_parts (index : UInt8) {es : List Tlv} (h : Ascending es) :
    ∃ xs old ys, Parts index es xs old ys := by
  induction es with
  | nil => exact ⟨[], [], [], rfl, nofun, Or.inl rfl, fun _ => nofun⟩
  | cons e es ih =>
      obtain ⟨hle, hrest⟩ := List.pairwise_cons.mp h
      by_cases hlt : e.id < index
      · obtain ⟨xs, old, ys, rfl, hb, hone, ha⟩ := ih hrest
        refine ⟨e :: xs, old, ys, rfl, ?_, hone, ha⟩
        intro x hx
        rcases List.mem_cons.mp hx with rfl | hx
        · exact hlt
        · exact hb x hx
      · by_cases heq : e.id = index
        · exact ⟨[], [e], es, rfl, nofun, Or.inr ⟨e, rfl, heq⟩, nofun⟩
        · refine ⟨[], [], e :: es, rfl, nofun, Or.inl rfl, fun _ y hy => ?_⟩
          have hgt : index < e.id := by
            rcases UInt8.lt_or_lt_of_ne heq with h | h
            · exact absurd h hlt
            · exact h
          rcases List.mem_cons.mp hy with rfl | hy
          · exact hgt
          · exact UInt8.lt_of_lt_of_le hgt (hle y hy)

/-- **What an edit should make of a list**: the first element of the identifier is replaced, or the new
one is inserted so that identifiers do not fall. -/
def Edited (new : Tlv) (es es' : List Tlv) : Prop :=
  (∃ xs e ys, es = xs ++ e :: ys ∧ e.id = new.id ∧ (∀ x ∈ xs, x.id ≠ new.id) ∧ es' = xs ++ new :: ys)
    ∨ (∀ e ∈ es, e.id ≠ new.id) ∧ Ascending es' ∧ ∃ xs ys, es = xs ++ ys ∧ es' = xs ++ new :: ys

section

variable {index : UInt8} {es xs old ys : List Tlv} {new : Tlv}

/-- Two splits of a list where the front is below and what follows is not are one. -/
theorem split_unique {xs' zs zs' : List Tlv} (h : xs ++ zs = xs' ++ zs') (hx : ∀ x ∈ xs, x.id < index)
    (hx' : ∀ x ∈ xs', x.id < index) (hz : ∀ z, zs.head? = some z → ¬ z.id < index)
    (hz' : ∀ z, zs'.head? = some z → ¬ z.id < index) : xs = xs' ∧ zs = zs' := by
  have hlen : ∀ {as bs cs ds : List Tlv}, as ++ bs = cs ++ ds → (∀ x ∈ cs, x.id < index) →
      (∀ z, bs.head? = some z → ¬ z.id < index) → cs.length ≤ as.length := by
    intro as bs cs ds heq hcs hbs
    by_contra hlt
    have hfront : (cs ++ ds)[as.length]? = cs[as.length]? := List.getElem?_append_left (by omega)
    have hget : cs[as.length]? = bs.head? := by
      rw [← hfront, ← heq, List.getElem?_append_right (Nat.le_refl _), Nat.sub_self,
        List.head?_eq_getElem?]
    obtain ⟨z, hz⟩ : ∃ z, cs[as.length]? = some z := ⟨_, List.getElem?_eq_getElem (by omega)⟩
    exact hbs z (hget.symm.trans hz) (hcs z (List.mem_of_getElem? hz))
  exact List.append_inj h (Nat.le_antisymm (hlen h.symm hx hz') (hlen h hx' hz))

theorem Parts.head_not_below (h : Parts index es xs old ys) :
    ∀ z, (old ++ ys).head? = some z → ¬ z.id < index := by
  intro z hz
  rcases h.one with rfl | ⟨e, rfl, he⟩
  · have hgt := h.above rfl z (List.mem_of_head? hz)
    exact UInt8.lt_asymm hgt
  · cases hz
    rw [he]
    exact UInt8.lt_irrefl _

/-- In front of an identifier in an ascending list there are lower ones, if not the same. -/
theorem below_of_ascending {e : Tlv} (h : Ascending (xs ++ e :: ys)) (hne : ∀ x ∈ xs, x.id ≠ e.id) :
    ∀ x ∈ xs, x.id < e.id := by
  intro x hx
  exact UInt8.lt_of_le_of_ne ((List.pairwise_append.mp h).2.2 x hx e (List.mem_cons_self ..)) (hne x hx)

/-- **The edited list** in terms of the parts. -/
theorem edited_iff (h : Parts new.id es xs old ys) (hasc : Ascending es) {es' : List Tlv} :
    Edited new es es' ↔ es' = xs ++ new :: ys := by
  constructor
  · rintro (⟨xs', e, ys', hs, he, hne, rfl⟩ | ⟨hno, hasc', xs', ys', hs, rfl⟩)
    -- what is in front of the old element is below it, so that both cuts are the same
    · have hbelow : ∀ x ∈ xs', x.id < new.id := by
        rw [hs] at hasc
        rw [← he] at hne ⊢
        exact below_of_ascending hasc hne
      have hhead : ∀ z, (e :: ys').head? = some z → ¬ z.id < new.id := by
        intro z hz
        cases hz
        rw [he]
        exact UInt8.lt_irrefl _
      obtain ⟨rfl, hrest⟩ := split_unique (h.eq.symm.trans hs) h.below hbelow h.head_not_below hhead
      rcases h.one with rfl | ⟨e', rfl, -⟩
      · -- all behind would be higher
        have hgt := h.above rfl e (by rw [List.nil_append] at hrest; rw [hrest]; simp)
        rw [he] at hgt
        exact absurd hgt (UInt8.lt_irrefl _)
      · have hys : ys = ys' := (List.cons.inj hrest).2
        rw [hys]
    · obtain ⟨-, hhigh, hlow⟩ := List.pairwise_append.mp hasc'
      have hbelow : ∀ x ∈ xs', x.id < new.id := by
        intro x hx
        exact UInt8.lt_of_le_of_ne (hlow x hx new (List.mem_cons_self ..)) (hno x (by rw [hs]; simp [hx]))
      have hhead : ∀ z, ys'.head? = some z → ¬ z.id < new.id := by
        intro z hz
        exact UInt8.not_lt.mpr ((List.pairwise_cons.mp hhigh).1 z (List.mem_of_head? hz))
      obtain ⟨rfl, hrest⟩ := split_unique (h.eq.symm.trans hs) h.below hbelow h.head_not_below hhead
      rcases h.one with rfl | ⟨e, rfl, he⟩
      · rw [← hrest]
        rfl
      · exact absurd he (hno e (by rw [hs, ← hrest]; simp))
  -- the new list is the one with the element put in, or with the old one replaced
  · rintro rfl
    rcases h.one with rfl | ⟨e, rfl, he⟩
    · have heq := h.eq
      rw [List.nil_append] at heq
      have habove := h.above rfl
      refine Or.inr ⟨fun e he hid => ?_, ?_, xs, ys, heq, rfl⟩
      · rw [heq] at he
        rcases List.mem_append.mp he with hx | hy
        · exact absurd (h.below e hx) (by rw [hid]; exact UInt8.lt_irrefl _)
        · exact absurd (habove e hy) (by rw [hid]; exact UInt8.lt_irrefl _)
      · rw [heq] at hasc
        obtain ⟨hx, hy, hxy⟩ := List.pairwise_append.mp hasc
        refine List.pairwise_append.mpr ⟨hx, List.pairwise_cons.mpr ⟨fun y hy => ?_, hy⟩, ?_⟩
        · exact UInt8.le_of_lt (habove y hy)
        · intro x hx y hy
          rcases List.mem_cons.mp hy with rfl | hy
          · exact UInt8.le_of_lt (h.below x hx)
          · exact hxy x hx y hy
    · refine Or.inl ⟨xs, e, ys, h.eq, he, fun x hx hid => ?_, rfl⟩
      have hlt := h.below x hx
      rw [hid] at hlt
      exact absurd hlt (UInt8.lt_irrefl _)

/-! ## The walk -/

/-- The last of the elements from `i` on. -/
def lastBelow : Nat → List Tlv → Option (Nat × Nat) → Option (Nat × Nat)
  | _, [], last => last
  | i, e :: es, _ => lastBelow (i + e.size) es (some (i, e.body.length))

theorem lastBelow_concat (e : Tlv) (last : Option (Nat × Nat)) : ∀ (xs : List Tlv) (i : Nat),
    lastBelow i (xs ++ [e]) last = some (i + Tlv.total xs, e.body.length) := by
  intro xs
  induction xs generalizing last with
  | nil => intro i; rfl
  | cons x xs ih =>
      intro i
      rw [List.cons_append, lastBelow, ih, Tlv.total_cons, Nat.add_assoc]

/-- What the walk ends with: the element of the identifier, or the last one below. -/
def walkEnd (i : Nat) (xs : List Tlv) (last : Option (Nat × Nat)) : List Tlv → Option (Nat × Nat) × Bool
  | e :: _ => (some (i + Tlv.total xs, e.body.length), true)
  | [] => (lastBelow i xs last, false)

/-- **The walk ends** with the element of the identifier, or with the last one below it. -/
theorem bcnWalk_parts {m : Mem} {n : Nat} (hone : old = [] ∨ ∃ e, old = [e] ∧ e.id = index)
    (habove : old = [] → ∀ y ∈ ys, index < y.id) : ∀ {xs : List Tlv} {fuel i : Nat}
    {last : Option (Nat × Nat)}, Holds m i (xs ++ (old ++ ys)) → (∀ x ∈ xs, x.id < index) →
    n = i + Tlv.total (xs ++ (old ++ ys)) → Tlv.total (xs ++ (old ++ ys)) ≤ fuel →
    bcnWalk m index n fuel i last = walkEnd i xs last old := by
  intro xs
  induction xs with
  -- at the place itself: another element, the end, or the element that is looked for
  | nil =>
      intro fuel i last h _ hn hfuel
      rcases hone with rfl | ⟨e, rfl, he⟩
      · -- nothing of the identifier
        cases fuel with
        | zero => rfl
        | succ fuel =>
            rw [bcnWalk]
            by_cases hend : n ≤ i
            · rw [if_pos hend]
              rfl
            · rw [if_neg hend]
              cases ys with
              | nil =>
                  simp only [List.append_nil, Tlv.total_nil] at hn
                  omega
              | cons y ys =>
                  obtain ⟨hid, -, -⟩ := (Holds.cons.mp h).1.head
                  rw [if_pos (by rw [hid]; exact habove rfl y (List.mem_cons_self ..))]
                  rfl
      · obtain ⟨hid, hlen, -⟩ := (Holds.cons.mp h).1.head
        have hsize := e.two_le_size
        simp only [List.nil_append, List.singleton_append, Tlv.total_cons] at hn hfuel
        cases fuel with
        | zero => omega
        | succ fuel =>
            rw [bcnWalk, if_neg (by omega), hid, he, if_neg (UInt8.lt_irrefl _), if_pos rfl, hlen]
            rfl
  -- an element below the identifier is passed over, and is the last one for now
  | cons x xs ih =>
      intro fuel i last h hbelow hn hfuel
      obtain ⟨hhead, htail⟩ := Holds.cons.mp h
      obtain ⟨hid, hlen, -⟩ := hhead.head
      have hsize := x.two_le_size
      have hx := hbelow x (List.mem_cons_self ..)
      rw [List.cons_append, Tlv.total_cons] at hn hfuel
      cases fuel with
      | zero => omega
      | succ fuel =>
          have hstep : i + ((m (i + 1)).toNat + 2) = i + x.size := by
            rw [hlen]
            rfl
          rw [bcnWalk, if_neg (by omega), hid, if_neg (UInt8.lt_asymm hx),
            if_neg (fun heq => UInt8.lt_irrefl _ (heq ▸ hx)), hstep, hlen,
            ih htail (fun y hy => hbelow y (List.mem_cons_of_mem _ hy)) (by omega) (by omega)]
          cases old with
          | nil => rfl
          | cons e old => rw [walkEnd, walkEnd, Tlv.total_cons, Nat.add_assoc]

end

/-! ## Splicing -/

/-- The element that the walk ends with. -/
def taken (xs old : List Tlv) : Option Tlv := old.head?.or xs.getLast?

theorem Mem.write_nil (m : Mem) (a : Nat) : m.write a [] = m := by
  funext k
  unfold Mem.write
  split
  · rfl
  · rfl

theorem moveRemainder_eq {b : BssidEx} {malloc : Bool} {dst : Nat} {kept : List UInt8}
    (hfit : dst + kept.length ≤ maxIeSz) :
    b.moveRemainder malloc dst kept
      = .done ⟨if malloc then b.ies.write dst kept else b.ies, dst + kept.length⟩ := by
  have h768 : maxIeSz = 768 := rfl
  unfold BssidEx.moveRemainder
  dsimp only
  rw [Nat.mod_eq_of_lt (by omega)]
  by_cases hmove : 0 < kept.length ∧ malloc = true
  · rw [if_pos hmove, if_neg (by omega), if_pos hmove.2]
  · rw [if_neg hmove]
    cases malloc with
    | false => rfl
    | true =>
        have hnil : kept = [] := List.length_eq_zero_iff.mp (by
          by_contra hc
          exact hmove ⟨by omega, rfl⟩)
        rw [hnil, Mem.write_nil]
        rfl

section

variable {b : BssidEx} {fixed : List UInt8} {es xs old ys : List Tlv} {new : Tlv} {malloc : Bool}

/-- **Where the walk ends is where the parts meet**, if there is an element to end with. -/
theorem bcnPlace_eq (hs : Stores b fixed es) (hp : Parts new.id es xs old ys) :
    b.bcnPlace new.id = walkEnd fixedIeLength xs none old := by
  have hh := hs.holds
  have hl := hs.length_eq
  rw [hp.eq] at hh hl
  exact bcnWalk_parts hp.one hp.above hh hp.below hl (by omega)

theorem Stores.kept_eq (hs : Stores b fixed (xs ++ (old ++ ys))) :
    b.ies.read (fixedIeLength + Tlv.total xs + Tlv.total old) (Tlv.total ys) = Tlv.encode ys :=
  (Holds.append.mp (Holds.append.mp hs.holds).2).2

/-- **An edit with a place** writes the element there and moves what is behind it, if that could be
kept. -/
theorem rtwAddBcnIe_eq (malloc : Bool) (hs : Stores b fixed es) (hp : Parts new.id es xs old ys) {e : Tlv}
    (he : taken xs old = some e) (hbody : e.body ≠ [])
    (hfit : fixedIeLength + Tlv.total (xs ++ new :: ys) ≤ maxIeSz) :
    rtwAddBcnIe malloc new.id new.body b = .done
      ⟨if malloc then
          (b.ies.write (fixedIeLength + Tlv.total xs) new.bytes).write
            (fixedIeLength + Tlv.total xs + new.size) (Tlv.encode ys)
        else b.ies.write (fixedIeLength + Tlv.total xs) new.bytes,
        fixedIeLength + Tlv.total (xs ++ new :: ys)⟩ := by
  have h768 : maxIeSz = 768 := rfl
  have hplace := bcnPlace_eq hs hp
  obtain ⟨len, hlen⟩ : ∃ len, e.body.length = len + 1 :=
    Nat.exists_eq_succ_of_ne_zero fun h0 => hbody (List.length_eq_zero_iff.mp h0)
  have hsize : e.size = len + 1 + 2 := by rw [Tlv.size, hlen]
  have hnew : new.size = 2 + new.body.length := by rw [Tlv.size]; omega
  have hmax := hs.fits
  have htot := hs.length_eq
  have hkept := (hp.eq ▸ hs : Stores b fixed (xs ++ (old ++ ys))).kept_eq
  rw [hp.eq, Tlv.total_append, Tlv.total_append] at htot
  rw [Tlv.total_append, Tlv.total_cons] at hfit ⊢
  -- the place, what is behind it and the branch are the same for both kinds of edit
  have hsame : ∃ p bmatch, b.bcnPlace new.id = (some (p, len + 1), bmatch)
      ∧ (if bmatch then p else p + (len + 1 + 2)) = fixedIeLength + Tlv.total xs
      ∧ p + (len + 1 + 2) = fixedIeLength + Tlv.total xs + Tlv.total old := by
    rcases hp.one with rfl | ⟨e', rfl, -⟩
    · rw [taken, List.head?_nil, Option.none_or] at he
      obtain ⟨ws, rfl⟩ := List.getLast?_eq_some_iff.mp he
      refine ⟨fixedIeLength + Tlv.total ws, false, ?_, ?_, ?_⟩
      · rw [hplace, walkEnd, lastBelow_concat, hlen]
      · rw [if_neg Bool.false_ne_true, Tlv.total_append, Tlv.total_cons, Tlv.total_nil, hsize]
        omega
      · rw [Tlv.total_append, Tlv.total_cons, Tlv.total_nil, hsize]
        omega
    · cases he
      refine ⟨fixedIeLength + Tlv.total xs, true, ?_, ?_, ?_⟩
      · rw [hplace, walkEnd, hlen]
      · rw [if_pos rfl]
      · rw [Tlv.total_cons, Tlv.total_nil, hsize]
  obtain ⟨p, bmatch, hp', hdst, hbehind⟩ := hsame
  have hrem : b.remainder p (len + 1 + 2) = Tlv.total ys := by
    have hfirst : sub32 b.ieLength p = b.ieLength - p := sub32_of_le (by omega) (by omega)
    unfold BssidEx.remainder
    rw [hfirst, sub32_of_le (by omega) (by omega)]
    omega
  unfold rtwAddBcnIe
  rw [hp']
  dsimp only
  rw [hdst, hbehind, hrem, hkept, ← hnew, if_neg (by omega)]
  rw [moveRemainder_eq (by rw [Tlv.length_encode]; omega), Tlv.length_encode]
  have hbytes : new.id :: UInt8.ofNat new.body.length :: new.body = new.bytes := rfl
  rw [hbytes, ← Nat.add_assoc, ← Nat.add_assoc]

/-- Without a place nothing is done. -/
theorem rtwAddBcnIe_none (hs : Stores b fixed es) (hp : Parts new.id es xs old ys)
    (hno : ∀ e, taken xs old = some e → e.body = []) :
    rtwAddBcnIe malloc new.id new.body b = .done b := by
  have hplace := bcnPlace_eq hs hp
  have hend : ∀ p len bmatch, b.bcnPlace new.id ≠ (some (p, len + 1), bmatch) := by
    intro p len bmatch hc
    rw [hplace] at hc
    rcases hp.one with rfl | ⟨e', rfl, -⟩
    · rcases List.eq_nil_or_concat xs with rfl | ⟨ws, x, rfl⟩
      · cases hc
      · rw [List.concat_eq_append] at hc hno
        rw [walkEnd, lastBelow_concat, hno x (by simp [taken])] at hc
        cases hc
    · rw [walkEnd, hno e' rfl] at hc
      cases hc
  unfold rtwAddBcnIe
  split
  case h_1 p len bmatch hc => exact absurd hc (hend p len bmatch)
  case h_2 => rfl

/-- A buffer that is unchanged up to a place and has the rest there. -/
theorem Stores.replace {zs zs' : List Tlv} {m : Mem} (hs : Stores b fixed (xs ++ zs))
    (hlow : ∀ k, k < fixedIeLength + Tlv.total xs → m k = b.ies k)
    (hrest : Holds m (fixedIeLength + Tlv.total xs) zs')
    (hfit : fixedIeLength + Tlv.total (xs ++ zs') ≤ maxIeSz) :
    Stores ⟨m, fixedIeLength + Tlv.total (xs ++ zs')⟩ fixed (xs ++ zs') := by
  refine ⟨rfl, hfit, ?_, Holds.append.mpr ⟨?_, hrest⟩⟩
  · rw [← hs.fixed_eq]
    exact Mem.read_congr fun i hi => hlow _ (by omega)
  · have hfront := (Holds.append.mp hs.holds).1
    unfold Holds at hfront ⊢
    rw [← hfront]
    exact Mem.read_congr fun i hi => hlow _ (by omega)

/-- **What is behind the element** is right if it was moved, or stood there already. -/
theorem added_stores_iff (hs : Stores b fixed es) (hp : Parts new.id es xs old ys)
    (hfit : fixedIeLength + Tlv.total (xs ++ new :: ys) ≤ maxIeSz) :
    Stores ⟨if malloc then
          (b.ies.write (fixedIeLength + Tlv.total xs) new.bytes).write
            (fixedIeLength + Tlv.total xs + new.size) (Tlv.encode ys)
        else b.ies.write (fixedIeLength + Tlv.total xs) new.bytes,
        fixedIeLength + Tlv.total (xs ++ new :: ys)⟩ fixed (xs ++ new :: ys)
      ↔ malloc = true ∨ b.ies.read (fixedIeLength + Tlv.total xs + new.size) (Tlv.total ys)
          = Tlv.encode ys := by
  have hs' : Stores b fixed (xs ++ (old ++ ys)) := hp.eq ▸ hs
  have hself : Holds (b.ies.write (fixedIeLength + Tlv.total xs) new.bytes)
      (fixedIeLength + Tlv.total xs) [new] := by
    have hread := Mem.read_write_self b.ies (fixedIeLength + Tlv.total xs) new.bytes
    rw [Tlv.length_bytes] at hread
    simpa [Holds] using hread
  have hbehind : (b.ies.write (fixedIeLength + Tlv.total xs) new.bytes).read
      (fixedIeLength + Tlv.total xs + new.size) (Tlv.total ys)
      = b.ies.read (fixedIeLength + Tlv.total xs + new.size) (Tlv.total ys) :=
    Mem.read_write_disjoint (Or.inr (by rw [Tlv.length_bytes]))
  cases malloc with
  | true =>
      rw [if_pos rfl]
      refine ⟨fun _ => Or.inl rfl, fun _ => hs'.replace (fun k hk => ?_) ?_ hfit⟩
      · rw [Mem.write_of_lt (by omega), Mem.write_of_lt hk]
      · refine Holds.cons.mpr ⟨?_, ?_⟩
        · have hone := hself
          unfold Holds at hone ⊢
          rw [← hone]
          exact Mem.read_congr fun i hi => Mem.write_of_lt (by
            rw [Tlv.total_cons, Tlv.total_nil] at hi
            omega)
        · have hread := Mem.read_write_self (b.ies.write (fixedIeLength + Tlv.total xs) new.bytes)
            (fixedIeLength + Tlv.total xs + new.size) (Tlv.encode ys)
          rwa [Tlv.length_encode] at hread
  | false =>
      rw [if_neg Bool.false_ne_true]
      constructor
      · intro h
        have hys := (Holds.cons.mp (Holds.append.mp h.holds).2).2
        exact Or.inr (hbehind.symm.trans hys)
      · rintro (h | h)
        · cases h
        · exact hs'.replace (fun k hk => Mem.write_of_lt hk)
            (Holds.cons.mpr ⟨hself, hbehind.trans h⟩) hfit

/-- The element goes again, and what is behind it comes back if it could be kept. -/
theorem rtwRemoveBcnIe_eq (malloc : Bool) (hs : Stores b fixed (xs ++ new :: ys)) (hne : ∀ x ∈ xs, x.id ≠ new.id)
    (hbody : new.body ≠ []) :
    rtwRemoveBcnIe malloc new.id b = .done
      ⟨if malloc then b.ies.write (fixedIeLength + Tlv.total xs) (Tlv.encode ys) else b.ies,
        fixedIeLength + Tlv.total (xs ++ ys)⟩ := by
  have h768 : maxIeSz = 768 := rfl
  obtain ⟨len, hlen⟩ : ∃ len, new.body.length = len + 1 :=
    Nat.exists_eq_succ_of_ne_zero fun h0 => hbody (List.length_eq_zero_iff.mp h0)
  have hget := hs.getIe_found hne rfl
  have hsize : new.size = len + 1 + 2 := by rw [Tlv.size, hlen]
  have htot := hs.length_eq
  have hmax := hs.fits
  rw [Tlv.total_append, Tlv.total_cons] at htot
  have hkept : b.ies.read (fixedIeLength + Tlv.total xs + new.size) (Tlv.total ys) = Tlv.encode ys :=
    (Holds.cons.mp (Holds.append.mp hs.holds).2).2
  have hrem : b.remainder (fixedIeLength + Tlv.total xs) (len + 1 + 2) = Tlv.total ys := by
    have hfirst : sub32 b.ieLength (fixedIeLength + Tlv.total xs)
        = b.ieLength - (fixedIeLength + Tlv.total xs) := sub32_of_le (by omega) (by omega)
    unfold BssidEx.remainder
    rw [hfirst, sub32_of_le (by omega) (by omega)]
    omega
  unfold rtwRemoveBcnIe
  rw [hget, hlen]
  dsimp only
  rw [hrem, ← hsize, hkept, moveRemainder_eq (by rw [Tlv.length_encode]; omega), Tlv.length_encode,
    Tlv.total_append, Nat.add_assoc]

theorem removed_stores_iff (malloc : Bool) (hs : Stores b fixed (xs ++ new :: ys)) (habove : ∀ y ∈ ys, new.id < y.id) :
    Stores ⟨if malloc then b.ies.write (fixedIeLength + Tlv.total xs) (Tlv.encode ys) else b.ies,
        fixedIeLength + Tlv.total (xs ++ ys)⟩ fixed (xs ++ ys) ↔ malloc = true ∨ ys = [] := by
  have hfit : fixedIeLength + Tlv.total (xs ++ ys) ≤ maxIeSz := by
    have hmax := hs.fits
    rw [hs.length_eq] at hmax
    rw [Tlv.total_append] at hmax ⊢
    rw [Tlv.total_cons] at hmax
    omega
  cases malloc with
  | true =>
      rw [if_pos rfl]
      refine ⟨fun _ => Or.inl rfl, fun _ => hs.replace (fun k hk => Mem.write_of_lt hk) ?_ hfit⟩
      have hread := Mem.read_write_self b.ies (fixedIeLength + Tlv.total xs) (Tlv.encode ys)
      rwa [Tlv.length_encode] at hread
  | false =>
      rw [if_neg Bool.false_ne_true]
      constructor
      · intro h
        cases ys with
        | nil => exact Or.inr rfl
        | cons y ys =>
            -- the new element still stands where the next one should
            have hy := (Holds.cons.mp (Holds.append.mp h.holds).2).1.head.1
            have hnew := (Holds.cons.mp (Holds.append.mp hs.holds).2).1.head.1
            have hlt := habove y (List.mem_cons_self ..)
            dsimp only at hy
            rw [← hy, hnew] at hlt
            exact absurd hlt (UInt8.lt_irrefl _)
      · rintro (h | rfl)
        · cases h
        · exact hs.replace (fun k _ => rfl) (Holds.nil _ _) hfit

end

/-! ## Editing -/

/-- `rtw_add_bcn_ie` leaves the edited list. -/
def BcnAdded (malloc : Bool) (new : Tlv) (b : BssidEx) (fixed : List UInt8) (es : List Tlv) : Prop :=
  ∃ b' es', rtwAddBcnIe malloc new.id new.body b = .done b' ∧ Stores b' fixed es' ∧ Edited new es es'

/-- `rtw_remove_bcn_ie` behind it brings back the original list, when the identifier is new. -/
def BcnRestored (malloc malloc' : Bool) (new : Tlv) (b : BssidEx) (fixed : List UInt8)
    (es : List Tlv) : Prop :=
  (∀ e ∈ es, e.id ≠ new.id) → ∃ b' b'', rtwAddBcnIe malloc new.id new.body b = .done b'
    ∧ rtwRemoveBcnIe malloc' new.id b' = .done b'' ∧ Stores b'' fixed es

/-- **What it takes**: the element that is replaced, or else the last one below the identifier, is there
and not empty, and what is behind the place could be kept aside each time it had to move. -/
structure BcnEditable (malloc malloc' : Bool) (new : Tlv) (b : BssidEx) (es xs old ys : List Tlv) :
    Prop where
  parts : Parts new.id es xs old ys
  taken : ∃ e, taken xs old = some e ∧ e.body ≠ []
  kept : malloc = true ∨ b.ies.read (fixedIeLength + Tlv.total xs + new.size) (Tlv.total ys)
    = Tlv.encode ys
  kept' : old = [] → malloc' = true ∨ ys = []

section

variable {b : BssidEx} {fixed : List UInt8} {es xs old ys : List Tlv} {new : Tlv}
  {malloc malloc' : Bool}

theorem bcnAdded_iff (hs : Stores b fixed es) (hasc : Ascending es) (hp : Parts new.id es xs old ys)
    (hbody : new.body ≠ []) (hfit : fixedIeLength + Tlv.total (xs ++ new :: ys) ≤ maxIeSz) :
    BcnAdded malloc new b fixed es ↔ (∃ e, taken xs old = some e ∧ e.body ≠ [])
      ∧ (malloc = true ∨ b.ies.read (fixedIeLength + Tlv.total xs + new.size) (Tlv.total ys)
        = Tlv.encode ys) := by
  unfold BcnAdded
  by_cases htaken : ∃ e, taken xs old = some e ∧ e.body ≠ []
  · obtain ⟨e, he, hne⟩ := htaken
    rw [rtwAddBcnIe_eq malloc hs hp he hne hfit, ← added_stores_iff hs hp hfit]
    constructor
    · rintro ⟨b', es', hb, hst, hed⟩
      cases hb
      rw [(edited_iff hp hasc).mp hed] at hst
      exact ⟨⟨e, he, hne⟩, hst⟩
    · rintro ⟨-, hst⟩
      exact ⟨_, _, rfl, hst, (edited_iff hp hasc).mpr rfl⟩
  · refine ⟨fun h => ?_, fun h => absurd h.1 htaken⟩
    exfalso
    obtain ⟨b', es', hb, hst, hed⟩ := h
    rw [rtwAddBcnIe_none hs hp (fun e he => by
      by_contra hne
      exact htaken ⟨e, he, hne⟩)] at hb
    cases hb
    -- nothing was done, but the edited list is longer
    have h1 := hst.length_eq
    have h2 := hs.length_eq
    rw [(edited_iff hp hasc).mp hed, Tlv.total_append, Tlv.total_cons] at h1
    rw [hp.eq, Tlv.total_append, Tlv.total_append] at h2
    have hpos : 0 < new.body.length := List.length_pos_of_ne_nil hbody
    have hnew : new.size = new.body.length + 2 := rfl
    rcases hp.one with rfl | ⟨e, rfl, -⟩
    · rw [Tlv.total_nil] at h2
      omega
    · have hempty : e.body = [] := by
        by_contra hne
        exact htaken ⟨e, rfl, hne⟩
      rw [Tlv.total_cons, Tlv.total_nil, Tlv.size, hempty, List.length_nil] at h2
      omega

theorem bcnRestored_iff (hs : Stores b fixed es) (hp : Parts new.id es xs old ys)
    (hbody : new.body ≠ []) (hfit : fixedIeLength + Tlv.total (xs ++ new :: ys) ≤ maxIeSz) {e : Tlv}
    (he : taken xs old = some e) (hne : e.body ≠ [])
    (hkept : malloc = true ∨ b.ies.read (fixedIeLength + Tlv.total xs + new.size) (Tlv.total ys)
      = Tlv.encode ys) :
    BcnRestored malloc malloc' new b fixed es ↔ (old = [] → malloc' = true ∨ ys = []) := by
  have hadd := rtwAddBcnIe_eq malloc hs hp he hne hfit
  have hst := (added_stores_iff hs hp hfit).mpr hkept
  have hxs : ∀ x ∈ xs, x.id ≠ new.id := by
    intro x hx hid
    have hlt := hp.below x hx
    rw [hid] at hlt
    exact UInt8.lt_irrefl _ hlt
  rcases hp.one with rfl | ⟨e', rfl, he'⟩
  · have hes : es = xs ++ ys := hp.eq
    have hno : ∀ e ∈ es, e.id ≠ new.id := by
      intro x hx hid
      rw [hes] at hx
      rcases List.mem_append.mp hx with hx | hx
      · exact hxs x hx hid
      · have hgt := hp.above rfl x hx
        rw [hid] at hgt
        exact UInt8.lt_irrefl _ hgt
    have hrem := rtwRemoveBcnIe_eq malloc' hst hxs hbody
    have hback := removed_stores_iff malloc' hst (hp.above rfl)
    rw [← hes] at hback hrem
    constructor
    · intro h _
      obtain ⟨b', b'', hb, hb', hst'⟩ := h hno
      rw [hadd] at hb
      cases hb
      rw [hrem] at hb'
      cases hb'
      exact hback.mp hst'
    · intro h _
      exact ⟨_, _, hadd, hrem, hback.mpr (h rfl)⟩
  · -- the identifier is not new
    refine ⟨fun _ => nofun, fun _ hno => ?_⟩
    exact absurd he' (hno e' (by rw [hp.eq]; simp))

end

/-- **Editing the beacon** makes of the list what it should, and takes it back, exactly when the element
the walk ends with is not empty and what is behind could be moved. -/
theorem beacon_edit_iff (b : BssidEx) (fixed : List UInt8) (es : List Tlv) (new : Tlv)
    (malloc malloc' : Bool) (hs : Stores b fixed es) (hasc : Ascending es) (hbody : new.body ≠ [])
    (hfit : ∀ es', Edited new es es' → fixedIeLength + Tlv.total es' ≤ maxIeSz) :
    BcnAdded malloc new b fixed es ∧ BcnRestored malloc malloc' new b fixed es
      ↔ ∃ xs old ys, BcnEditable malloc malloc' new b es xs old ys := by
  have hiff : ∀ {xs old ys}, Parts new.id es xs old ys →
      (BcnAdded malloc new b fixed es ∧ BcnRestored malloc malloc' new b fixed es
        ↔ (∃ e, taken xs old = some e ∧ e.body ≠ [])
          ∧ (malloc = true ∨ b.ies.read (fixedIeLength + Tlv.total xs + new.size) (Tlv.total ys)
            = Tlv.encode ys)
          ∧ (old = [] → malloc' = true ∨ ys = [])) := by
    intro xs old ys hp
    have hf := hfit _ ((edited_iff hp hasc).mpr rfl)
    rw [bcnAdded_iff hs hasc hp hbody hf]
    constructor
    · rintro ⟨⟨⟨e, he, hne⟩, hkept⟩, hr⟩
      exact ⟨⟨e, he, hne⟩, hkept, (bcnRestored_iff hs hp hbody hf he hne hkept).mp hr⟩
    · rintro ⟨⟨e, he, hne⟩, hkept, hk⟩
      exact ⟨⟨⟨e, he, hne⟩, hkept⟩, (bcnRestored_iff hs hp hbody hf he hne hkept).mpr hk⟩
  constructor
  · intro h
    obtain ⟨xs, old, ys, hp⟩ := exists_parts new.id hasc
    obtain ⟨htaken, hkept, hk⟩ := (hiff hp).mp h
    exact ⟨xs, old, ys, hp, htaken, hkept, hk⟩
  · rintro ⟨xs, old, ys, hp, htaken, hkept, hk⟩
    exact (hiff hp).mpr ⟨htaken, hkept, hk⟩

/-- A Country element is put in front of the ERP element and taken out again. -/
theorem beacon_edit_sample :
    BcnAdded true ⟨7, [0x44, 0x45, 0x20], by decide⟩ sampleTemplateBuf sampleTemplate.fixed
        sampleTemplate.elems
      ∧ BcnRestored true true ⟨7, [0x44, 0x45, 0x20], by decide⟩ sampleTemplateBuf sampleTemplate.fixed
        sampleTemplate.elems := by
  have hasc : Ascending sampleTemplate.elems := by
    unfold Ascending
    decide
  -- in front stand the SSID, the rates, the channel and the TIM, behind the ERP element
  have hparts : Parts 7 sampleTemplate.elems (sampleTemplate.elems.take 4) [] (sampleTemplate.elems.drop 4) :=
    ⟨rfl, by decide, Or.inl rfl, fun _ => by decide⟩
  refine (beacon_edit_iff sampleTemplateBuf sampleTemplate.fixed sampleTemplate.elems
    ⟨7, [0x44, 0x45, 0x20], by decide⟩ true true sampleTemplateBuf_stores hasc (by decide)
    (fun es' hed => ?_)).mpr
    ⟨_, [], _, hparts, ⟨⟨timIe, [0, 1, 0, 2], by decide⟩, rfl, by decide⟩, Or.inl rfl, fun _ => Or.inl rfl⟩
  rw [(edited_iff hparts hasc).mp hed]
  decide

/-- A hidden SSID stays hidden. -/
theorem beacon_edit_skips_empty :
    Stores sampleTemplateBuf sampleTemplate.fixed sampleTemplate.elems
      ∧ Ascending sampleTemplate.elems
      ∧ ¬ BcnAdded true ⟨0, [0x61], by decide⟩ sampleTemplateBuf sampleTemplate.fixed
        sampleTemplate.elems := by
  have hasc : Ascending sampleTemplate.elems := by
    unfold Ascending
    decide
  refine ⟨sampleTemplateBuf_stores, hasc, fun hadd => ?_⟩
  have hparts : Parts 0 sampleTemplate.elems [] [sampleTemplate.ssid] (sampleTemplate.elems.drop 1) :=
    ⟨rfl, nofun, Or.inr ⟨_, rfl, rfl⟩, nofun⟩
  obtain ⟨⟨e, he, hne⟩, -⟩ :=
    (bcnAdded_iff sampleTemplateBuf_stores hasc hparts (by decide) (by decide)).mp hadd
  cases he
  exact hne rfl

end Rtl8812au

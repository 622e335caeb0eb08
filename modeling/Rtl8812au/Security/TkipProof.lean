import Rtl8812au.Security.Tkip
import Mathlib.Logic.Function.Basic

/-!
# The key mixing of TKIP is a keyed permutation

Every step of the two phases adds to one word something that is computed from the others, so it is undone
by subtracting the same thing again. With the steps undone from the last to the first, the 96 bits that
come out give back the transmitter address and the 48 bits of the packet number, for every temporal key.
-/

namespace Rtl8812au.Tkip

/-! ## Words and halves -/

theorem lo8_mk16 (hi lo : UInt8) : lo8 (mk16 hi lo) = lo := by
  apply UInt8.toBitVec_inj.mp
  refine BitVec.eq_of_getLsbD_eq fun i hi => ?_
  simp [lo8, mk16, hi]

theorem hi8_mk16 (hi lo : UInt8) : hi8 (mk16 hi lo) = hi := by
  apply UInt8.toBitVec_inj.mp
  refine BitVec.eq_of_getLsbD_eq fun i hi => ?_
  have h16 : 8 + i < 16 := by omega
  have h16' : i < 16 := by omega
  simp [hi8, mk16, hi, h16, h16']

theorem mk16_hi8_lo8 (v : UInt16) : mk16 (hi8 v) (lo8 v) = v := by
  apply UInt16.toBitVec_inj.mp
  refine BitVec.eq_of_getLsbD_eq fun i hi => ?_
  simp only [hi8, lo8, mk16, UInt16.toBitVec_xor, UInt16.toBitVec_shiftLeft, UInt8.toBitVec_toUInt16,
    UInt16.toBitVec_toUInt8, UInt16.toBitVec_shiftRight, UInt16.toBitVec_ofNat]
  by_cases h : i < 8
  · simp [hi, h]
  · have h8 : i - 8 < 8 := by omega
    have hback : 8 + (i - 8) = i := by omega
    simp [hi, h, h8, hback]

/-- The two halves of `iv32` put together. -/
def joinIv (lo hi : UInt16) : UInt32 := hi.toUInt32 <<< 16 ||| lo.toUInt32

theorem joinIv_halves (v : UInt32) : joinIv v.toUInt16 (v >>> 16).toUInt16 = v := by
  apply UInt32.toBitVec_inj.mp
  refine BitVec.eq_of_getLsbD_eq fun i hi => ?_
  simp only [joinIv, UInt32.toBitVec_or, UInt32.toBitVec_shiftLeft, UInt16.toBitVec_toUInt32,
    UInt32.toBitVec_toUInt16, UInt32.toBitVec_shiftRight, UInt32.toBitVec_ofNat]
  by_cases h : i < 16
  · simp [hi, h]
  · have h16 : i - 16 < 16 := by omega
    have hback : 16 + (i - 16) = i := by omega
    simp [hi, h, h16, hback]

theorem joinIv_lo (lo hi : UInt16) : (joinIv lo hi).toUInt16 = lo := by
  apply UInt16.toBitVec_inj.mp
  refine BitVec.eq_of_getLsbD_eq fun i hi => ?_
  simp [joinIv, hi]

theorem joinIv_hi (lo hi : UInt16) : (joinIv lo hi >>> 16).toUInt16 = hi := by
  apply UInt16.toBitVec_inj.mp
  refine BitVec.eq_of_getLsbD_eq fun i hi => ?_
  have h32 : 16 + i < 32 := by omega
  have h32' : i < 32 := by omega
  simp [joinIv, hi, h32, h32']

/-! ## Phase 1 -/

/-- The words that `phase1` starts from. -/
def phase1Start (ta : MacAddr) (iv32 : UInt32) : P1k :=
  ⟨iv32.toUInt16, (iv32 >>> 16).toUInt16, mk16 ta.b1 ta.b0, mk16 ta.b3 ta.b2, mk16 ta.b5 ta.b4⟩

/-- Address and upper packet number, read off these words. -/
def startBack (p : P1k) : MacAddr × UInt32 :=
  (⟨lo8 p.w2, hi8 p.w2, lo8 p.w3, hi8 p.w3, lo8 p.w4, hi8 p.w4⟩, joinIv p.w0 p.w1)

theorem startBack_start (ta : MacAddr) (iv32 : UInt32) :
    startBack (phase1Start ta iv32) = (ta, iv32) := by
  simp only [startBack, phase1Start, lo8_mk16, hi8_mk16, joinIv_halves]

theorem start_startBack (p : P1k) : phase1Start (startBack p).1 (startBack p).2 = p := by
  simp only [startBack, phase1Start, mk16_hi8_lo8, joinIv_lo, joinIv_hi]

theorem odd_lt (i : Nat) : i % 2 < 2 := Nat.mod_lt _ (by omega)

section

variable (odd : Fin 2)

theorem odd_lt_8 : odd.val < 8 := by omega
theorem odd_add_2_lt : odd.val + 2 < 8 := by omega
theorem odd_add_4_lt : odd.val + 4 < 8 := by omega
theorem odd_add_6_lt : odd.val + 6 < 8 := by omega

end

/-- A turn of the loop undone: the words are subtracted from in the opposite order. -/
def phase1Back (tk : Key) (i : Nat) (p : P1k) : P1k :=
  let odd : Fin 2 := ⟨i % 2, odd_lt i⟩
  let w4 := p.w4 - UInt16.ofNat i - sbox (p.w3 ^^^ tk16 tk ⟨odd, odd_lt_8 odd⟩)
  let w3 := p.w3 - sbox (p.w2 ^^^ tk16 tk ⟨odd + 6, odd_add_6_lt odd⟩)
  let w2 := p.w2 - sbox (p.w1 ^^^ tk16 tk ⟨odd + 4, odd_add_4_lt odd⟩)
  let w1 := p.w1 - sbox (p.w0 ^^^ tk16 tk ⟨odd + 2, odd_add_2_lt odd⟩)
  ⟨p.w0 - sbox (w4 ^^^ tk16 tk ⟨odd, odd_lt_8 odd⟩), w1, w2, w3, w4⟩

theorem phase1Back_round (tk : Key) (i : Nat) (p : P1k) : phase1Back tk i (phase1Round tk i p) = p := by
  simp only [phase1Back, phase1Round, UInt16.add_sub_cancel]

theorem phase1Round_back (tk : Key) (i : Nat) (p : P1k) : phase1Round tk i (phase1Back tk i p) = p := by
  simp only [phase1Back, phase1Round, UInt16.sub_add_cancel]

theorem phase1Round_bijective (tk : Key) (i : Nat) : Function.Bijective (phase1Round tk i) :=
  Function.bijective_iff_has_inverse.mpr ⟨phase1Back tk i, phase1Back_round tk i, phase1Round_back tk i⟩

/-- However many turns the loop takes. -/
theorem phase1Rounds_bijective (tk : Key) (turns : List Nat) :
    Function.Bijective fun p => turns.foldl (fun p i => phase1Round tk i p) p := by
  induction turns with
  | nil => exact Function.bijective_id
  | cons i turns ih => exact ih.comp (phase1Round_bijective tk i)

/-! ## Phase 2 -/

/-- The mixing of `phase2` undone: first the sweep, then the six additions. -/
def phase2Back (tk : Key) (q : Ppk) : P1k × UInt16 :=
  let w5 := q.w5 - rotR1 q.w4
  let w4 := q.w4 - rotR1 q.w3
  let w3 := q.w3 - rotR1 q.w2
  let w2 := q.w2 - rotR1 q.w1
  let w1 := q.w1 - rotR1 (q.w0 ^^^ tk16 tk 7)
  let w0 := q.w0 - rotR1 (w5 ^^^ tk16 tk 6)
  let v5 := w5 - sbox (w4 ^^^ tk16 tk 5)
  let v4 := w4 - sbox (w3 ^^^ tk16 tk 4)
  (⟨w0 - sbox (v5 ^^^ tk16 tk 0), w1 - sbox (w0 ^^^ tk16 tk 1), w2 - sbox (w1 ^^^ tk16 tk 2),
    w3 - sbox (w2 ^^^ tk16 tk 3), v4⟩, v5 - v4)

theorem phase2Back_ppk (tk : Key) (p : P1k) (iv16 : UInt16) :
    phase2Back tk (phase2Ppk tk p iv16) = (p, iv16) := by
  have hiv : p.w4 + iv16 - p.w4 = iv16 := by rw [UInt16.add_comm, UInt16.add_sub_cancel]
  simp only [phase2Back, phase2Ppk, UInt16.add_sub_cancel, hiv]

theorem phase2Ppk_back (tk : Key) (q : Ppk) :
    phase2Ppk tk (phase2Back tk q).1 (phase2Back tk q).2 = q := by
  have hiv : ∀ a b : UInt16, a + (b - a) = b := fun a b => by
    rw [UInt16.add_comm, UInt16.sub_add_cancel]
  simp only [phase2Back, phase2Ppk, UInt16.sub_add_cancel, hiv]

theorem phase2Ppk_bijective (tk : Key) :
    Function.Bijective fun x : P1k × UInt16 => phase2Ppk tk x.1 x.2 :=
  Function.bijective_iff_has_inverse.mpr
    ⟨phase2Back tk, fun x => phase2Back_ppk tk x.1 x.2, phase2Ppk_back tk⟩

/-! ## Both phases -/

/-- What goes into the mixing: the transmitter address and the two parts of the packet number. -/
abbrev MixInput := MacAddr × UInt32 × UInt16

/-- `PPK[0..5]` as `phase1` and then `phase2` compute it. -/
def mixed (tk : Key) (x : MixInput) : Ppk := phase2Ppk tk (phase1 tk x.1 x.2.1) x.2.2

/-- The words of phase 1, with the lower part of the packet number beside them. -/
theorem phase1_bijective (tk : Key) :
    Function.Bijective fun x : MixInput => (phase1 tk x.1 x.2.1, x.2.2) := by
  have hrounds := phase1Rounds_bijective tk (List.range 8)
  constructor
  · intro x y h
    obtain ⟨hp, hiv⟩ := Prod.mk.inj h
    -- the loop is injective, and so are the words it starts from
    have hstart : phase1Start x.1 x.2.1 = phase1Start y.1 y.2.1 := hrounds.1 hp
    have hback := congrArg startBack hstart
    rw [startBack_start, startBack_start] at hback
    obtain ⟨hta, hiv32⟩ := Prod.mk.inj hback
    exact Prod.ext hta (Prod.ext hiv32 hiv)
  · intro y
    obtain ⟨p, hp⟩ := hrounds.2 y.1
    refine ⟨((startBack p).1, (startBack p).2, y.2), Prod.ext ?_ rfl⟩
    have hstart := start_startBack p
    rw [← hstart] at hp
    exact hp

theorem mixed_eq_comp (tk : Key) : mixed tk = (fun y : P1k × UInt16 => phase2Ppk tk y.1 y.2)
    ∘ fun x : MixInput => (phase1 tk x.1 x.2.1, x.2.2) := by
  funext x
  rw [Function.comp_apply, mixed]

theorem mixed_bijective (tk : Key) : Function.Bijective (mixed tk) := by
  rw [mixed_eq_comp]
  exact (phase2Ppk_bijective tk).comp (phase1_bijective tk)

/-- The last twelve bytes of the RC4 key are the words of `PPK`. -/
theorem drop_phase2 (tk : Key) (p : P1k) (iv16 : UInt16) :
    (phase2 tk p iv16).drop 4 =
      let q := phase2Ppk tk p iv16
      [lo8 q.w0, hi8 q.w0, lo8 q.w1, hi8 q.w1, lo8 q.w2, hi8 q.w2, lo8 q.w3, hi8 q.w3, lo8 q.w4, hi8 q.w4,
        lo8 q.w5, hi8 q.w5] := rfl

theorem eq_of_halves {v w : UInt16} (hlo : lo8 v = lo8 w) (hhi : hi8 v = hi8 w) : v = w := by
  rw [← mk16_hi8_lo8 v, ← mk16_hi8_lo8 w, hlo, hhi]

/-- Two RC4 keys that are the same come from the same `PPK`. -/
theorem ppk_eq_of_phase2 {tk : Key} {p p' : P1k} {iv16 iv16' : UInt16}
    (h : phase2 tk p iv16 = phase2 tk p' iv16') : phase2Ppk tk p iv16 = phase2Ppk tk p' iv16' := by
  have hdrop := congrArg (List.drop 4) h
  rw [drop_phase2, drop_phase2] at hdrop
  generalize phase2Ppk tk p iv16 = q, phase2Ppk tk p' iv16' = q' at hdrop
  simp only [List.cons.injEq, and_true] at hdrop
  obtain ⟨l0, h0, l1, h1, l2, h2, l3, h3, l4, h4, l5, h5⟩ := hdrop
  cases q
  cases q'
  congr 1
  · exact eq_of_halves l0 h0
  · exact eq_of_halves l1 h1
  · exact eq_of_halves l2 h2
  · exact eq_of_halves l3 h3
  · exact eq_of_halves l4 h4
  · exact eq_of_halves l5 h5

/-- A packet number has 48 bits. -/
theorem getTkipPn_lt (m : Mem) (iv : Nat) : getTkipPn m iv < 2 ^ 48 := by
  have h0 := (m (iv + 2)).toNat_lt
  have h1 := (m iv).toNat_lt
  have h2 := (m (iv + 4)).toNat_lt
  have h3 := (m (iv + 5)).toNat_lt
  have h4 := (m (iv + 6)).toNat_lt
  have h5 := (m (iv + 7)).toNat_lt
  unfold getTkipPn
  omega

/-- A packet number is decided by the two parts it is split into. -/
theorem pn_eq_of_parts {a b : Nat} (ha : a < 2 ^ 48) (hb : b < 2 ^ 48)
    (h32 : UInt32.ofNat (a / 2 ^ 16) = UInt32.ofNat (b / 2 ^ 16)) (h16 : UInt16.ofNat a = UInt16.ofNat b) :
    a = b := by
  have hhi := congrArg UInt32.toNat h32
  have hlo := congrArg UInt16.toNat h16
  rw [UInt32.toNat_ofNat', UInt32.toNat_ofNat'] at hhi
  rw [UInt16.toNat_ofNat', UInt16.toNat_ofNat'] at hlo
  omega

/-- **The key mixing is a keyed permutation.** For every temporal key the map from transmitter address and
packet number to `PPK` is one to one and onto. So the RC4 keys of two packets are different unless both
their transmitter and their packet number are the same. -/
theorem key_mixing_permutes (tk : Key) :
    Function.Bijective (mixed tk)
      ∧ Function.Injective (fun x : MixInput => phase2 tk (phase1 tk x.1 x.2.1) x.2.2)
      ∧ ∀ (ta ta' : MacAddr) (m m' : Mem) (iv iv' : Nat), rc4Key tk ta m iv = rc4Key tk ta' m' iv' →
          ta = ta' ∧ getTkipPn m iv = getTkipPn m' iv' := by
  have hinj : Function.Injective fun x : MixInput => phase2 tk (phase1 tk x.1 x.2.1) x.2.2 :=
    fun x y h => (mixed_bijective tk).1 (ppk_eq_of_phase2 h)
  refine ⟨mixed_bijective tk, hinj, ?_⟩
  intro ta ta' m m' iv iv' h
  have hx := @hinj (ta, UInt32.ofNat (getTkipPn m iv / 2 ^ 16), UInt16.ofNat (getTkipPn m iv))
    (ta', UInt32.ofNat (getTkipPn m' iv' / 2 ^ 16), UInt16.ofNat (getTkipPn m' iv')) h
  obtain ⟨hta, hparts⟩ := Prod.mk.inj hx
  obtain ⟨h32, h16⟩ := Prod.mk.inj hparts
  exact ⟨hta, pn_eq_of_parts (getTkipPn_lt m iv) (getTkipPn_lt m' iv') h32 h16⟩

end Rtl8812au.Tkip

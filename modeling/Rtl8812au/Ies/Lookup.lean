import Rtl8812au.Ies.WalkProof

/-!
# `rtw_get_ie` on complete elements

Where the bytes are complete elements and the limit is what is left of them, the search finds the first
element of the id or nothing. A limit that reaches beyond the last element lets it leave the bytes
instead of finding nothing.
-/

namespace Rtl8812au.Ies

/-- Where the first element of an id is, and its length byte; the elements begin at `c`. -/
def firstIe (index : UInt8) : Nat → List Tlv → Option (Nat × Nat)
  | _, [] => none
  | c, e :: es => if e.id = index then some (c, e.body.length) else firstIe index (c + e.size) es

theorem firstIe_eq_none {index : UInt8} {es : List Tlv} :
    ∀ {c : Nat}, firstIe index c es = none ↔ ∀ e ∈ es, e.id ≠ index := by
  induction es with
  | nil => intro c; simp [firstIe]
  | cons e es ih =>
      intro c
      rw [firstIe]
      by_cases he : e.id = index
      · rw [if_pos he]
        exact ⟨nofun, fun h => absurd he (h e (List.mem_cons_self ..))⟩
      · rw [if_neg he, ih]
        simp [he]

theorem firstIe_eq_some {index : UInt8} {es : List Tlv} {q l : Nat} :
    ∀ {c : Nat}, firstIe index c es = some (q, l) ↔ ∃ xs e ys, es = xs ++ e :: ys ∧ e.id = index
      ∧ (∀ x ∈ xs, x.id ≠ index) ∧ q = c + Tlv.total xs ∧ l = e.body.length := by
  induction es with
  | nil =>
      intro c
      exact ⟨nofun, fun ⟨xs, e, ys, h, _⟩ => absurd h (by simp)⟩
  | cons e es ih =>
      intro c
      rw [firstIe]
      by_cases he : e.id = index
      · rw [if_pos he]
        constructor
        · intro h
          cases h
          exact ⟨[], e, es, rfl, he, nofun, rfl, rfl⟩
        · rintro ⟨xs, e', ys, hs, -, hno, rfl, rfl⟩
          cases xs with
          | nil =>
              cases hs
              rfl
          | cons x xs =>
              -- the head would not be the first
              obtain ⟨rfl, -⟩ := List.cons.inj hs
              exact absurd he (hno e (List.mem_cons_self ..))
      · rw [if_neg he, ih]
        constructor
        · rintro ⟨xs, e', ys, rfl, hid, hno, rfl, rfl⟩
          refine ⟨e :: xs, e', ys, rfl, hid, ?_, by rw [Tlv.total_cons, Nat.add_assoc], rfl⟩
          intro x hx
          rcases List.mem_cons.mp hx with rfl | hx
          · exact he
          · exact hno x hx
        · rintro ⟨xs, e', ys, hs, hid, hno, rfl, rfl⟩
          cases xs with
          | nil =>
              cases hs
              exact absurd hid he
          | cons x xs =>
              obtain ⟨rfl, rfl⟩ := List.cons.inj hs
              refine ⟨xs, e', ys, rfl, hid, fun y hy => hno y (List.mem_cons_of_mem _ hy), ?_, rfl⟩
              rw [Tlv.total_cons, Nat.add_assoc]

section

variable {bs : List UInt8} {index : UInt8} {limit : Nat} {r : Option (Nat × Nat)}

/-- The head has the id: it is found. -/
theorem getIe_head {c : Nat} {i : Int} {e : Tlv} {rest : List UInt8}
    (hdrop : bs.drop c = e.bytes ++ rest) (he : e.id = index) :
    Loop.Ends (getIeTurn bs index limit) (c, i) r ↔ r = some (c, e.body.length) := by
  obtain ⟨hid, hl, -⟩ := get_of_drop hdrop
  refine Loop.ends_stop ?_
  rw [getIeTurn_eq hid hl, if_pos he, Tlv.toNat_length]

/-- It has not, and more is to be searched. -/
theorem getIe_tail {c i : Nat} {e : Tlv} {rest : List UInt8} (hdrop : bs.drop c = e.bytes ++ rest)
    (he : e.id ≠ index) (hbig : limit < 2 ^ 31) (hmore : i + e.size < limit) :
    Loop.Ends (getIeTurn bs index limit) (c, (i : Int)) r
      ↔ Loop.Ends (getIeTurn bs index limit) (c + e.size, ((i + e.size : Nat) : Int)) r := by
  obtain ⟨hid, hl, -⟩ := get_of_drop hdrop
  have hval : ((i : Int) + (e.size : Nat)).bmod (2 ^ 32) = ((i + e.size : Nat) : Int) := by
    rw [← Int.natCast_add]
    exact bmod_of_lt (by omega)
  refine Loop.ends_next ?_
  rw [getIeTurn_eq hid hl, if_neg he, Tlv.toNat_length]
  unfold Tlv.size at hval hmore ⊢
  rw [hval, if_neg (by omega)]

/-- **With elements up to the limit** the first of the id is found, or nothing. -/
theorem getIe_exact (tail : List UInt8) {es : List Tlv} : ∀ {c i : Nat},
    bs.drop c = Tlv.encode es ++ tail → es ≠ [] → i + Tlv.total es = limit → limit < 2 ^ 31 →
    (Loop.Ends (getIeTurn bs index limit) (c, (i : Int)) r ↔ r = firstIe index c es) := by
  induction es with
  | nil => intro c i _ hne; exact absurd rfl hne
  | cons e es ih =>
      intro c i hdrop _ hlim hbig
      rw [Tlv.encode_cons, List.append_assoc] at hdrop
      rw [Tlv.total_cons] at hlim
      obtain ⟨hid, hl, -, hrest, -⟩ := get_of_drop hdrop
      by_cases he : e.id = index
      · rw [getIe_head hdrop he, firstIe, if_pos he]
      · rw [firstIe, if_neg he]
        cases es with
        | nil =>
            -- the limit is reached
            rw [Tlv.total_nil, Nat.add_zero] at hlim
            have hval : ((i : Int) + (e.size : Nat)).bmod (2 ^ 32) = (limit : Int) := by
              rw [← Int.natCast_add, hlim]
              exact bmod_of_lt hbig
            refine Loop.ends_stop ?_
            rw [getIeTurn_eq hid hl, if_neg he, Tlv.toNat_length]
            unfold Tlv.size at hval
            rw [hval, if_pos (Int.le_refl _)]
            rfl
        | cons y ys =>
            have hpos : 0 < Tlv.total (y :: ys) := by
              have hsize := y.two_le_size
              rw [Tlv.total_cons]
              omega
            rw [getIe_tail hdrop he hbig (by omega)]
            exact ih hrest (List.cons_ne_nil _ _) (by omega) hbig

/-- **With a limit beyond the last element** only what is found ends the search. -/
theorem getIe_beyond {es : List Tlv} : ∀ {c i : Nat}, bs.drop c = Tlv.encode es →
    i + Tlv.total es < limit → limit < 2 ^ 31 →
    (Loop.Ends (getIeTurn bs index limit) (c, (i : Int)) r
      ↔ r = firstIe index c es ∧ firstIe index c es ≠ none) := by
  induction es with
  | nil =>
      intro c i hdrop _ _
      have hover : getIeTurn bs index limit (c, (i : Int)) = .overrun := by
        have hnone : bs[c]? = none := by
          rw [← Nat.add_zero c, ← List.getElem?_drop, hdrop]
          rfl
        unfold getIeTurn fetch
        rw [hnone]
        rfl
      constructor
      · intro h
        exact absurd h (Loop.not_ends_overrun hover)
      · rintro ⟨-, h⟩
        exact absurd rfl h
  | cons e es ih =>
      intro c i hdrop hlim hbig
      rw [Tlv.encode_cons] at hdrop
      rw [Tlv.total_cons] at hlim
      by_cases he : e.id = index
      · rw [getIe_head hdrop he, firstIe, if_pos he]
        exact ⟨fun h => ⟨h, nofun⟩, fun h => h.1⟩
      · obtain ⟨-, -, -, hrest, -⟩ := get_of_drop hdrop
        rw [getIe_tail hdrop he hbig (by omega), firstIe, if_neg he]
        exact ih hrest (by omega) hbig

/-- **`rtw_get_ie` over a buffer of complete elements.** -/
theorem rtwGetIe_elements {es : List Tlv} (hbig : Tlv.total es < 2 ^ 31) :
    RtwGetIe (Tlv.encode es) 0 index (Tlv.total es : Nat) r ↔ r = firstIe index 0 es := by
  unfold RtwGetIe
  cases es with
  | nil => rfl
  | cons e es =>
      have hsize := e.two_le_size
      have hpos : ¬ ((Tlv.total (e :: es) : Nat) : Int) < 1 := by
        rw [Tlv.total_cons]
        omega
      rw [if_neg hpos]
      exact getIe_exact [] (c := 0) (i := 0) (by simp) (List.cons_ne_nil _ _)
        (Nat.zero_add _) hbig

end

end Rtl8812au.Ies

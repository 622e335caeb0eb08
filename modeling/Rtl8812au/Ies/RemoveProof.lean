import Rtl8812au.Ies.Remove
import Rtl8812au.Ies.WalkProof

/-!
# What is left after a removal

Every search ends at the first element that matches in what is left to search, or finds none. Taking that
element out leaves the elements before it in front of the place the next search starts from, so by
induction on the elements behind it all that match are gone and the others stand in their order.
-/

namespace Rtl8812au.Ies

/-- The element has the id and its body begins with the OUI, if there is one. -/
def Matches (eid : UInt8) (oui : Option (List UInt8)) (e : Tlv) : Prop :=
  e.id = eid ∧ oui.getD [] <+: e.body

instance (eid : UInt8) (oui : Option (List UInt8)) (e : Tlv) : Decidable (Matches eid oui e) :=
  inferInstanceAs (Decidable (_ ∧ _))

/-! ## The search -/

section

variable {bs : List UInt8} {c inLen : Nat} {eid : UInt8} {oui : Option (List UInt8)}

/-- What lies behind a body is not compared. -/
theorem prefix_body {pat : List UInt8} {e : Tlv} {rest : List UInt8} (hlen : pat.length ≤ e.body.length) :
    pat <+: e.body ++ rest ↔ pat <+: e.body := by
  constructor
  · intro h
    exact List.prefix_of_prefix_length_le h (List.prefix_append _ _) hlen
  · intro h
    exact h.trans (List.prefix_append _ _)

theorem search_past {r : Option Found} {w : Wants} (h : inLen ≤ c) :
    Loop.Ends (searchTurn bs inLen (fun _ => false) eid (oui.getD []) w) c r ↔ r = none :=
  Loop.ends_stop (by
    unfold searchTurn
    rw [if_pos h]
    rfl)

/-- **Elements that do not match are passed.** -/
theorem search_skip (xs : List Tlv) (tail : List UInt8) {r : Option Found} {w : Wants} :
    ∀ {c : Nat}, bs.drop c = Tlv.encode xs ++ tail → c + Tlv.total xs ≤ inLen → inLen < 2 ^ 32 →
    (∀ e ∈ xs, e.id = eid → (oui.getD []).length ≤ e.body.length) → (∀ e ∈ xs, ¬ Matches eid oui e) →
    (Loop.Ends (searchTurn bs inLen (fun _ => false) eid (oui.getD []) w) c r
      ↔ Loop.Ends (searchTurn bs inLen (fun _ => false) eid (oui.getD []) w) (c + Tlv.total xs) r) := by
  induction xs with
  | nil => intro c _ _ _ _ _; rfl
  | cons e xs ih =>
      intro c hdrop hin hbig hlen hno
      rw [Tlv.encode_cons, List.append_assoc] at hdrop
      obtain ⟨hid, hl, hbody, hrest, hfit⟩ := get_of_drop hdrop
      rw [Tlv.total_cons] at hin ⊢
      have hsize := e.two_le_size
      have hmiss : e.id = eid → c + 2 + (oui.getD []).length ≤ bs.length
          ∧ ¬ oui.getD [] <+: bs.drop (c + 2) := by
        intro he
        have hshort := hlen e (List.mem_cons_self ..) he
        refine ⟨by omega, fun hp => ?_⟩
        rw [hbody, prefix_body hshort] at hp
        exact hno e (List.mem_cons_self ..) ⟨he, hp⟩
      rw [Loop.ends_next (searchTurn_miss (by omega) rfl hid hl hmiss), Tlv.toNat_length]
      have hnext : (c + (e.body.length + 2)) % 2 ^ 32 = c + e.size := Nat.mod_eq_of_lt (by
        unfold Tlv.size at hin
        omega)
      have htail : bs.drop (c + e.size) = Tlv.encode xs ++ tail := hrest
      rw [hnext, ih htail (by omega) hbig (fun x hx => hlen x (List.mem_cons_of_mem _ hx))
        (fun x hx => hno x (List.mem_cons_of_mem _ hx)), Nat.add_assoc]

/-- An element with the id is found if the bytes behind its header are the ones compared. -/
theorem search_found {giveUp : Nat → Bool} {pat : List UInt8} {e : Tlv} (tail : List UInt8)
    {r : Option Found} (hdrop : bs.drop c = e.bytes ++ tail) (hin : c < inLen) (hg : giveUp c = false)
    (he : e.id = eid) (hpre : pat <+: bs.drop (c + 2)) :
    Loop.Ends (searchTurn bs inLen giveUp eid pat ⟨true, false⟩) c r
      ↔ r = some ⟨c, some e.size, none⟩ := by
  refine Loop.ends_stop ?_
  obtain ⟨hid, hl, -⟩ := get_of_drop hdrop
  have hcmp : isIt bs eid pat c e.id = .done true := by
    unfold isIt
    rw [if_pos he]
    exact memcmp_done.mpr ⟨prefix_inside hpre, fun _ => hpre, fun _ => rfl⟩
  have htake : take bs ⟨true, false⟩ c = .done ⟨c, some e.size, none⟩ := by
    unfold take copyOut lenOut
    simp only [Bool.false_eq_true, if_false, if_true, fetch_done.mpr hl, Tlv.toNat_length,
      Outcome.done_bind, Outcome.pure_eq_done]
    rfl
  unfold searchTurn
  rw [if_neg (by omega), fetch_done.mpr hid, Outcome.done_bind, hg, if_neg Bool.false_ne_true, hcmp,
    Outcome.done_bind, if_pos rfl, htake]
  rfl

/-- **The first element that matches is found**, with its size. -/
theorem search_first {e : Tlv} (tail : List UInt8) {r : Option Found} (hdrop : bs.drop c = e.bytes ++ tail)
    (hin : c < inLen) (hm : Matches eid oui e) :
    Loop.Ends (searchTurn bs inLen (fun _ => false) eid (oui.getD []) ⟨true, false⟩) c r
      ↔ r = some ⟨c, some e.size, none⟩ := by
  obtain ⟨-, -, hbody, -⟩ := get_of_drop hdrop
  refine search_found tail hdrop hin rfl hm.1 ?_
  rw [hbody]
  exact hm.2.trans (List.prefix_append _ _)

theorem getIeEx_absent {es : List Tlv} {tail : List UInt8} {r : Option Found} (hbig : Tlv.total es < 2 ^ 32)
    (hlen : ∀ e ∈ es, e.id = eid → (oui.getD []).length ≤ e.body.length)
    (hno : ∀ e ∈ es, ¬ Matches eid oui e) :
    RtwGetIeEx (Tlv.encode es ++ tail) (Tlv.total es) eid oui ⟨true, false⟩ r ↔ r = none := by
  unfold RtwGetIeEx
  rw [search_skip es tail rfl (by omega) hbig hlen hno]
  exact search_past (by omega)

theorem getIeEx_first {xs ys : List Tlv} {e : Tlv} {tail : List UInt8} {r : Option Found}
    (hbig : Tlv.total (xs ++ e :: ys) < 2 ^ 32)
    (hlen : ∀ x ∈ xs, x.id = eid → (oui.getD []).length ≤ x.body.length)
    (hno : ∀ x ∈ xs, ¬ Matches eid oui x) (hm : Matches eid oui e) :
    RtwGetIeEx (Tlv.encode (xs ++ e :: ys) ++ tail) (Tlv.total (xs ++ e :: ys)) eid oui ⟨true, false⟩ r
      ↔ r = some ⟨Tlv.total xs, some e.size, none⟩ := by
  have hsize := e.two_le_size
  rw [Tlv.total_append, Tlv.total_cons] at hbig
  have hfront : Tlv.encode (xs ++ e :: ys) ++ tail
      = Tlv.encode xs ++ (e.bytes ++ (Tlv.encode ys ++ tail)) := by simp
  unfold RtwGetIeEx
  rw [Tlv.total_append, Tlv.total_cons, hfront,
    search_skip xs (e.bytes ++ (Tlv.encode ys ++ tail)) rfl (by omega) hbig hlen hno,
    Nat.zero_add]
  refine search_first (Tlv.encode ys ++ tail) ?_ (by omega) hm
  rw [← Tlv.length_encode, List.drop_left]

end

/-! ## The copy over the element -/

/-- What is between `B` and `D` is moved to where `B` begins. -/
theorem move_down (A B C D : List UInt8) (hC : C.length ≤ maxIe) :
    (do
      let buf ← bounce (A ++ (B ++ (C ++ D))) (A.length + B.length) C.length
      overwrite (A ++ (B ++ (C ++ D))) A.length buf)
      = .done (A ++ (C ++ ((B ++ C).drop C.length ++ D))) := by
  have hlen : (A ++ (B ++ (C ++ D))).length = A.length + (B.length + (C.length + D.length)) := by
    simp only [List.length_append]
  have hread : memcpy (A ++ (B ++ (C ++ D))) (A.length + B.length) C.length = .done C := by
    unfold memcpy
    rw [if_pos (by omega), ← List.drop_drop, List.drop_left, List.drop_left, List.take_left]
  have hrest : (A ++ (B ++ (C ++ D))).drop (A.length + C.length) = (B ++ C).drop C.length ++ D := by
    rw [← List.drop_drop, List.drop_left, ← List.append_assoc,
      List.drop_append_of_le_length (by rw [List.length_append]; omega)]
  unfold bounce
  rw [if_pos hC, hread, Outcome.done_bind]
  unfold overwrite
  rw [if_pos (by omega), List.take_left, hrest]

/-! ## The loop -/

section

variable {eid : UInt8} {oui : Option (List UInt8)} {s s' t : RemoveState} {r : Option Found}

theorem removeLoop_stop
    (h : ∀ r', RtwGetIeEx (s.ies.drop s.start) s.searchLen eid oui ⟨true, false⟩ r' ↔ r' = r)
    (ht : target r = none) : RemoveLoop eid oui s t ↔ t = s := by
  constructor
  · intro hl
    cases hl with
    | done => rfl
    | again h' ht' =>
        rw [(h _).mp h', ht] at ht'
        cases ht'
  · rintro rfl
    exact .done ((h r).mpr rfl) ht

theorem removeLoop_next {addr len : Nat}
    (h : ∀ r', RtwGetIeEx (s.ies.drop s.start) s.searchLen eid oui ⟨true, false⟩ r' ↔ r' = r)
    (ht : target r = some (addr, len)) (hr : s.remove addr len = .done s') :
    RemoveLoop eid oui s t ↔ RemoveLoop eid oui s' t := by
  constructor
  · intro hl
    cases hl with
    | done h' ht' =>
        rw [(h _).mp h', ht] at ht'
        cases ht'
    | again h' ht' hr' hrest =>
        rw [(h _).mp h', ht] at ht'
        cases ht'
        rw [hr] at hr'
        cases hr'
        exact hrest
  · exact .again ((h r).mpr rfl) ht hr

/-- The elements that stay. -/
def kept (eid : UInt8) (oui : Option (List UInt8)) (es : List Tlv) : List Tlv :=
  es.filter fun e => decide (¬ Matches eid oui e)

/-- The elements that go. -/
def gone (eid : UInt8) (oui : Option (List UInt8)) (es : List Tlv) : List Tlv :=
  es.filter fun e => decide (Matches eid oui e)

theorem total_kept_gone (eid : UInt8) (oui : Option (List UInt8)) (es : List Tlv) :
    Tlv.total (kept eid oui es) + Tlv.total (gone eid oui es) = Tlv.total es := by
  induction es with
  | nil => rfl
  | cons e es ih =>
      unfold kept gone at ih ⊢
      by_cases hm : Matches eid oui e
      · simp only [List.filter_cons, hm, not_true_eq_false, decide_false, decide_true, if_true,
          Bool.false_eq_true, if_false, Tlv.total_cons]
        omega
      · simp only [List.filter_cons, hm, not_false_eq_true, decide_false, decide_true, if_true,
          Bool.false_eq_true, if_false, Tlv.total_cons]
        omega

/-- Before the first element that matches all are kept. -/
theorem kept_first {xs : List Tlv} (ys : List Tlv) {e : Tlv} (hno : ∀ x ∈ xs, ¬ Matches eid oui x)
    (hm : Matches eid oui e) :
    kept eid oui (xs ++ e :: ys) = xs ++ kept eid oui ys
      ∧ gone eid oui (xs ++ e :: ys) = e :: gone eid oui ys := by
  have hxs : xs.filter (fun e => decide (¬ Matches eid oui e)) = xs :=
    List.filter_eq_self.mpr fun x hx => decide_eq_true (hno x hx)
  have hxs' : xs.filter (fun e => decide (Matches eid oui e)) = [] :=
    List.filter_eq_nil_iff.mpr fun x hx => by simpa using hno x hx
  unfold kept gone
  refine ⟨?_, ?_⟩
  · rw [List.filter_append, hxs, List.filter_cons_of_neg (by simpa using hm)]
  · rw [List.filter_append, hxs', List.filter_cons_of_pos (by simpa using hm), List.nil_append]

/-- One removal: what is behind the element comes to stand over it. -/
theorem remove_step (ok : Bool) (pre tail : List UInt8) (xs : List Tlv) (e : Tlv) (ys : List Tlv)
    (hmax : Tlv.total xs + (e.size + Tlv.total ys) ≤ maxIe)
    (hbig : pre.length + (Tlv.total xs + (e.size + Tlv.total ys)) < 2 ^ 32) :
    RemoveState.remove ⟨⟨pre ++ (Tlv.encode (xs ++ e :: ys) ++ tail),
        pre.length + Tlv.total (xs ++ e :: ys), ok⟩, pre.length, Tlv.total (xs ++ e :: ys)⟩
        (Tlv.total xs) e.size
      = .done ⟨⟨(pre ++ Tlv.encode xs) ++ (Tlv.encode ys
            ++ ((e.bytes ++ Tlv.encode ys).drop (Tlv.total ys) ++ tail)),
          (pre ++ Tlv.encode xs).length + Tlv.total ys, true⟩,
        (pre ++ Tlv.encode xs).length, Tlv.total ys⟩ := by
  have hmove := move_down (pre ++ Tlv.encode xs) e.bytes (Tlv.encode ys) tail
    (by rw [Tlv.length_encode]; omega)
  rw [Tlv.length_encode, Tlv.length_bytes, List.length_append, Tlv.length_encode] at hmove
  have hies : pre ++ (Tlv.encode (xs ++ e :: ys) ++ tail)
      = pre ++ Tlv.encode xs ++ (e.bytes ++ (Tlv.encode ys ++ tail)) := by simp
  have hremain : sub32 (Tlv.total (xs ++ e :: ys)) (Tlv.total xs + e.size) = Tlv.total ys := by
    rw [Tlv.total_append, Tlv.total_cons, sub32_of_le (by omega) (by omega)]
    omega
  have hleft : sub32 (pre.length + Tlv.total (xs ++ e :: ys)) e.size
      = pre.length + Tlv.total xs + Tlv.total ys := by
    rw [Tlv.total_append, Tlv.total_cons, sub32_of_le (by omega) (by omega)]
    omega
  unfold RemoveState.remove
  dsimp only
  rw [hremain, hleft, hies, List.length_append, Tlv.length_encode]
  obtain ⟨buf, hbuf, hover⟩ := Outcome.bind_eq_done.mp hmove
  rw [hbuf, Outcome.done_bind, hover, Outcome.done_bind, Outcome.pure_eq_done]

/-- **The loop takes out all that match.** -/
theorem remove_run : ∀ (n : Nat) (es : List Tlv) (pre tail : List UInt8) (ok : Bool), es.length = n →
    Tlv.total es ≤ maxIe → pre.length + Tlv.total es < 2 ^ 32 →
    (∀ e ∈ es, e.id = eid → (oui.getD []).length ≤ e.body.length) →
    ∃ stale start searchLen, stale.length = Tlv.total (gone eid oui es) ∧
      ∀ t, RemoveLoop eid oui
        ⟨⟨pre ++ (Tlv.encode es ++ tail), pre.length + Tlv.total es, ok⟩, pre.length, Tlv.total es⟩ t
      ↔ t = ⟨⟨pre ++ (Tlv.encode (kept eid oui es) ++ (stale ++ tail)),
          pre.length + Tlv.total (kept eid oui es), ok || decide (gone eid oui es ≠ [])⟩,
          start, searchLen⟩ := by
  intro n
  induction n using Nat.strongRecOn with
  | _ n ih =>
      intro es pre tail ok hn hmax hbig hlen
      cases hfind : es.find? fun e => decide (Matches eid oui e) with
      | none =>
          -- nothing matches: the search finds nothing and the loop is left
          have hno : ∀ e ∈ es, ¬ Matches eid oui e := by
            intro e he hm
            exact absurd (decide_eq_true hm) (List.find?_eq_none.mp hfind e he)
          have hk : kept eid oui es = es :=
            List.filter_eq_self.mpr fun x hx => decide_eq_true (hno x hx)
          have hg : gone eid oui es = [] :=
            List.filter_eq_nil_iff.mpr fun x hx => by simpa using hno x hx
          refine ⟨[], pre.length, Tlv.total es, by rw [hg]; rfl, fun t => ?_⟩
          rw [removeLoop_stop (r := none) (fun r' => ?_) rfl, hk, hg]
          · simp
          · dsimp only
            rw [List.drop_left]
            exact getIeEx_absent (by omega) hlen hno
      | some e =>
          obtain ⟨hm, xs, ys, rfl, hno⟩ := List.find?_eq_some_iff_append.mp hfind
          have hm := of_decide_eq_true hm
          have hno : ∀ x ∈ xs, ¬ Matches eid oui x := fun x hx => by simpa using hno x hx
          have hsize := e.two_le_size
          have htot : Tlv.total (xs ++ e :: ys) = Tlv.total xs + (e.size + Tlv.total ys) := by
            rw [Tlv.total_append, Tlv.total_cons]
          rw [htot] at hmax hbig
          have hstep := remove_step ok pre tail xs e ys hmax hbig
          obtain ⟨stale, start, searchLen, hstale, hrun⟩ := ih ys.length
            (by rw [← hn, List.length_append, List.length_cons]; omega) ys
            (pre ++ Tlv.encode xs)
            ((e.bytes ++ Tlv.encode ys).drop (Tlv.total ys) ++ tail) true rfl
            (by omega) (by rw [List.length_append, Tlv.length_encode]; omega)
            (fun y hy => hlen y (by simp [hy]))
          obtain ⟨hk, hg⟩ := kept_first ys hno hm
          refine ⟨stale ++ (e.bytes ++ Tlv.encode ys).drop (Tlv.total ys), start, searchLen, ?_,
            fun t => ?_⟩
          · rw [hg, Tlv.total_cons, List.length_append, hstale, List.length_drop, List.length_append,
              Tlv.length_encode, Tlv.length_bytes]
            omega
          · rw [removeLoop_next (r := some ⟨Tlv.total xs, some e.size, none⟩) (fun r' => ?_) rfl hstep,
              hrun t, hk, hg]
            · simp [Nat.add_assoc]
            · dsimp only
              rw [List.drop_left]
              exact getIeEx_first (by omega) (fun x hx => hlen x (by simp [hx])) hno hm

end

/-- **Removing elements.** Those that match are gone, the others stand in their order, and nothing
before or behind the elements has changed; the length is less by what is gone, and `_SUCCESS` says that
something is. -/
theorem ies_remove_ie_filters (pre tail : List UInt8) (es : List Tlv) (eid : UInt8)
    (oui : Option (List UInt8)) (hmax : Tlv.total es ≤ maxIe) (hbig : pre.length + Tlv.total es < 2 ^ 32)
    (hlen : ∀ e ∈ es, e.id = eid → (oui.getD []).length ≤ e.body.length) :
    ∃ stale, stale.length = Tlv.total (gone eid oui es) ∧
      ∀ r, RtwIesRemoveIe (pre ++ (Tlv.encode es ++ tail)) (pre.length + Tlv.total es) pre.length eid oui r
        ↔ r = ⟨pre ++ (Tlv.encode (kept eid oui es) ++ (stale ++ tail)),
            pre.length + Tlv.total es - Tlv.total (gone eid oui es), decide (gone eid oui es ≠ [])⟩ := by
  obtain ⟨stale, start, searchLen, hstale, hrun⟩ := remove_run es.length es pre tail
    false rfl hmax hbig hlen
  have htotal := total_kept_gone eid oui es
  have hleft : pre.length + Tlv.total es - Tlv.total (gone eid oui es)
      = pre.length + Tlv.total (kept eid oui es) := by omega
  refine ⟨stale, hstale, fun r => ?_⟩
  unfold RtwIesRemoveIe
  rw [hleft]
  by_cases hle : pre.length + Tlv.total es ≤ pre.length
  · -- there are no elements
    have hnil : es = [] := by
      cases es with
      | nil => rfl
      | cons e es =>
          have hsize := e.two_le_size
          rw [Tlv.total_cons] at hle
          omega
    subst hnil
    have hempty : stale = [] := List.length_eq_zero_iff.mp hstale
    rw [if_pos hle, hempty]
    rfl
  · rw [if_neg hle, sub32_of_le (by omega) (by omega), Nat.add_sub_cancel_left]
    constructor
    · rintro ⟨s, hs, rfl⟩
      rw [(hrun s).mp hs]
      simp
    · rintro rfl
      exact ⟨_, (hrun _).mpr rfl, by simp⟩

/-- Two vendor elements, one with the OUI looked for. -/
def removeSample : List Tlv :=
  [⟨221, [0x50, 0x6f, 0x9a, 0x09, 1], by decide⟩, ⟨221, [0x00, 0x50, 0xf2, 0x04], by decide⟩]

theorem ies_remove_ie_sample :
    ∃ stale : List UInt8, ∀ r, RtwIesRemoveIe (Tlv.encode removeSample) 13 0 221 (some p2pOui) r
      ↔ r = ⟨[221, 4, 0x00, 0x50, 0xf2, 0x04] ++ stale, 6, true⟩ := by
  obtain ⟨stale, -, h⟩ := ies_remove_ie_filters [] [] removeSample 221 (some p2pOui) (by decide)
    (by decide) (by decide)
  have hkept : Tlv.encode (kept 221 (some p2pOui) removeSample) = [221, 4, 0x00, 0x50, 0xf2, 0x04] := by
    decide
  have hgone : Tlv.total (gone 221 (some p2pOui) removeSample) = 7 := by decide
  have hsome : decide (gone 221 (some p2pOui) removeSample ≠ []) = true := by decide
  rw [hkept, hgone, hsome, List.append_nil, List.append_nil] at h
  exact ⟨stale, h⟩

end Rtl8812au.Ies

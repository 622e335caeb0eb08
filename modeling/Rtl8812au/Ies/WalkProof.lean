import Rtl8812au.Ies.Walk

/-!
# Which buffers a walk stays inside

A walk reads both bytes of every header it comes to, and of an element with the id it looks for the
bytes it compares. It never asks whether they are there. `Fits` follows the walk over the offsets;
`Walkable` says of the bytes themselves that they are complete elements up to a match or to a last
element whose body may be cut short.
-/

namespace Rtl8812au.Ies

section

variable {bs : List UInt8} {i : Nat}

theorem fetch_done {b : UInt8} : fetch bs i = .done b ↔ bs[i]? = some b := by
  unfold fetch
  cases bs[i]? with
  | none => exact ⟨nofun, nofun⟩
  | some x =>
      constructor
      · intro h
        cases h
        rfl
      · intro h
        cases h
        rfl

theorem lt_of_get {b : UInt8} (h : bs[i]? = some b) : i < bs.length :=
  (List.getElem?_eq_some_iff.mp h).1

/-- A comparison that stays inside the buffer. -/
theorem memcmp_done {pat : List UInt8} {r : Bool} : memcmp bs i pat = .done r ↔
    (pat = [] ∨ i + pat.length ≤ bs.length) ∧ (r = true ↔ pat <+: bs.drop i) := by
  unfold memcmp
  rw [List.prefix_iff_eq_take]
  split
  case isTrue h =>
    constructor
    · intro hr
      cases hr
      refine ⟨h, ?_⟩
      rw [decide_eq_true_iff]
      exact eq_comm
    · rintro ⟨_, hr⟩
      congr 1
      cases r with
      | true => exact decide_eq_true (hr.mp rfl).symm
      | false => exact decide_eq_false fun hc => Bool.false_ne_true (hr.mpr hc.symm)
  case isFalse h => exact ⟨nofun, fun hr => absurd hr.1 h⟩

/-- A match lies inside the buffer. -/
theorem prefix_inside {pat : List UInt8} (h : pat <+: bs.drop i) :
    pat = [] ∨ i + pat.length ≤ bs.length := by
  cases pat with
  | nil => exact Or.inl rfl
  | cons a pat =>
      have hlen := h.length_le
      rw [List.length_drop, List.length_cons] at hlen
      refine Or.inr ?_
      rw [List.length_cons]
      omega

end

/-! ## Turns -/

section

variable {bs : List UInt8} {inLen c : Nat} {giveUp : Nat → Bool} {eid : UInt8} {oui : List UInt8}
  {w : Wants}

/-- The whole element at `o` is inside the buffer. -/
def Whole (bs : List UInt8) (o : Nat) : Prop := ∃ l, bs[o + 1]? = some l ∧ o + 2 + l.toNat ≤ bs.length

theorem take_addr {f : Found} (h : take bs w c = .done f) : f.addr = c := by
  unfold take at h
  obtain ⟨_, _, h⟩ := Outcome.bind_eq_done.mp h
  obtain ⟨_, _, h⟩ := Outcome.bind_eq_done.mp h
  cases h
  rfl

theorem take_whole (h : Whole bs c) : ∃ f, take bs w c = .done f ∧ f.addr = c := by
  obtain ⟨l, hl, hfit⟩ := h
  have hcopy : memcpy bs c (l.toNat + 2) = .done ((bs.drop c).take (l.toNat + 2)) := by
    unfold memcpy
    rw [if_pos (by omega)]
  obtain ⟨ie, hie⟩ : ∃ ie, copyOut bs w c = .done ie := by
    unfold copyOut
    rw [fetch_done.mpr hl, Outcome.done_bind, hcopy]
    split
    · exact ⟨_, rfl⟩
    · exact ⟨_, rfl⟩
  obtain ⟨ielen, hlen⟩ : ∃ ielen, lenOut bs w c = .done ielen := by
    unfold lenOut
    rw [fetch_done.mpr hl]
    split
    · exact ⟨_, rfl⟩
    · exact ⟨_, rfl⟩
  refine ⟨⟨c, ielen, ie⟩, ?_, rfl⟩
  unfold take
  rw [hie, hlen]
  rfl

/-- A turn that stops is behind the bytes, gives up or has found an element. -/
theorem searchTurn_stop {r : Option Found}
    (h : searchTurn bs inLen giveUp eid oui w c = .done (.stop r)) :
    r = none ∧ (inLen ≤ c ∨ c < inLen ∧ c < bs.length ∧ giveUp c = true)
      ∨ ∃ f, r = some f ∧ f.addr = c ∧ giveUp c = false ∧ bs[c]? = some eid
        ∧ oui <+: bs.drop (c + 2) := by
  unfold searchTurn at h
  split at h
  case isTrue hpast =>
    cases h
    exact Or.inl ⟨rfl, Or.inl hpast⟩
  case isFalse hc =>
    obtain ⟨id, hid, h⟩ := Outcome.bind_eq_done.mp h
    have hget := fetch_done.mp hid
    cases hg : giveUp c with
    | true =>
        rw [hg, if_pos rfl] at h
        cases h
        exact Or.inl ⟨rfl, Or.inr ⟨by omega, lt_of_get hget, rfl⟩⟩
    | false =>
        rw [hg, if_neg Bool.false_ne_true] at h
        obtain ⟨hit, hhit, h⟩ := Outcome.bind_eq_done.mp h
        cases hit with
        | false =>
            rw [if_neg Bool.false_ne_true] at h
            obtain ⟨l, _, h⟩ := Outcome.bind_eq_done.mp h
            cases h
        | true =>
            rw [if_pos rfl] at h
            obtain ⟨f, hf, h⟩ := Outcome.bind_eq_done.mp h
            cases h
            unfold isIt at hhit
            split at hhit
            case isFalse => cases hhit
            case isTrue he =>
              refine Or.inr ⟨f, rfl, take_addr hf, rfl, he ▸ hget, ?_⟩
              exact (memcmp_done.mp hhit).2.mp rfl

/-- A turn that goes on has read the header of an element that is not the one looked for. -/
theorem searchTurn_next {c' : Nat}
    (h : searchTurn bs inLen giveUp eid oui w c = .done (.next c')) :
    c < inLen ∧ giveUp c = false ∧ ∃ id l, bs[c]? = some id ∧ bs[c + 1]? = some l
      ∧ (id = eid → c + 2 + oui.length ≤ bs.length ∧ ¬ oui <+: bs.drop (c + 2))
      ∧ c' = (c + (l.toNat + 2)) % 2 ^ 32 := by
  unfold searchTurn at h
  split at h
  case isTrue => cases h
  case isFalse hc =>
    obtain ⟨id, hid, h⟩ := Outcome.bind_eq_done.mp h
    have hget := fetch_done.mp hid
    cases hg : giveUp c with
    | true =>
        rw [hg, if_pos rfl] at h
        cases h
    | false =>
        rw [hg, if_neg Bool.false_ne_true] at h
        obtain ⟨hit, hhit, h⟩ := Outcome.bind_eq_done.mp h
        cases hit with
        | true =>
            rw [if_pos rfl] at h
            obtain ⟨f, _, h⟩ := Outcome.bind_eq_done.mp h
            cases h
        | false =>
            rw [if_neg Bool.false_ne_true] at h
            obtain ⟨l, hl, h⟩ := Outcome.bind_eq_done.mp h
            cases h
            refine ⟨by omega, rfl, id, l, hget, fetch_done.mp hl, ?_, rfl⟩
            intro he
            unfold isIt at hhit
            rw [if_pos he] at hhit
            obtain ⟨hin, hpre⟩ := memcmp_done.mp hhit
            have hno : ¬ oui <+: bs.drop (c + 2) := fun hp => Bool.false_ne_true (hpre.mpr hp)
            rcases hin with rfl | hin
            · exact absurd List.nil_prefix hno
            · exact ⟨hin, hno⟩

theorem searchTurn_given (hc : c < inLen) {id : UInt8} (hid : bs[c]? = some id)
    (hg : giveUp c = true) : searchTurn bs inLen giveUp eid oui w c = .done (.stop none) := by
  unfold searchTurn
  rw [if_neg (by omega), fetch_done.mpr hid, Outcome.done_bind, if_pos hg]
  rfl

theorem searchTurn_hit (hc : c < inLen) (hg : giveUp c = false) (hid : bs[c]? = some eid)
    (ho : oui <+: bs.drop (c + 2)) (hw : Whole bs c) :
    ∃ f, searchTurn bs inLen giveUp eid oui w c = .done (.stop (some f)) ∧ f.addr = c := by
  obtain ⟨f, hf, haddr⟩ := take_whole (w := w) hw
  refine ⟨f, ?_, haddr⟩
  have hcmp : isIt bs eid oui c eid = .done true := by
    unfold isIt
    rw [if_pos rfl]
    exact memcmp_done.mpr ⟨prefix_inside ho, fun _ => ho, fun _ => rfl⟩
  unfold searchTurn
  rw [if_neg (by omega), fetch_done.mpr hid, Outcome.done_bind, hg, if_neg Bool.false_ne_true,
    hcmp, Outcome.done_bind, if_pos rfl, hf]
  rfl

theorem searchTurn_miss (hc : c < inLen) (hg : giveUp c = false) {id l : UInt8}
    (hid : bs[c]? = some id) (hl : bs[c + 1]? = some l)
    (hm : id = eid → c + 2 + oui.length ≤ bs.length ∧ ¬ oui <+: bs.drop (c + 2)) :
    searchTurn bs inLen giveUp eid oui w c = .done (.next ((c + (l.toNat + 2)) % 2 ^ 32)) := by
  have hcmp : isIt bs eid oui c id = .done false := by
    unfold isIt
    split
    case isTrue he =>
      obtain ⟨hin, hno⟩ := hm he
      exact memcmp_done.mpr ⟨Or.inr hin, nofun, fun hp => absurd hp hno⟩
    case isFalse => rfl
  unfold searchTurn
  rw [if_neg (by omega), fetch_done.mpr hid, Outcome.done_bind, hg, if_neg Bool.false_ne_true,
    hcmp, Outcome.done_bind, if_neg Bool.false_ne_true, fetch_done.mpr hl]
  rfl

end

/-! ## Walks that fit -/

/-- From `c` on, every element the walk comes to has its header inside the buffer, with the bytes that
are compared if it has the id, and the one that is found is whole. `adv` is the counter's arithmetic:
`none` when it runs away from the bytes. -/
inductive Fits (bs : List UInt8) (giveUp : Nat → Bool) (eid : UInt8) (oui : List UInt8)
    (adv : Nat → Option Nat) : Nat → Prop where
  | past {c : Nat} (h : bs.length ≤ c) : Fits bs giveUp eid oui adv c
  | given {c : Nat} (h : c < bs.length) (hg : giveUp c = true) : Fits bs giveUp eid oui adv c
  | hit {c : Nat} (hg : giveUp c = false) (hid : bs[c]? = some eid) (ho : oui <+: bs.drop (c + 2))
      (hw : Whole bs c) : Fits bs giveUp eid oui adv c
  | miss {c c' : Nat} {id l : UInt8} (hg : giveUp c = false) (hid : bs[c]? = some id)
      (hl : bs[c + 1]? = some l)
      (hm : id = eid → c + 2 + oui.length ≤ bs.length ∧ ¬ oui <+: bs.drop (c + 2))
      (ha : adv (c + (l.toNat + 2)) = some c') (h : Fits bs giveUp eid oui adv c') :
      Fits bs giveUp eid oui adv c

/-- A `uint` starts again behind its last value. -/
def wrap32 (x : Nat) : Option Nat := some (x % 2 ^ 32)

/-- An `int` that overflows lets the walk go on for ever behind the bytes. -/
def noOverflow (x : Nat) : Option Nat := if x < 2 ^ 31 then some x else none

section

variable {bs : List UInt8} {c : Nat} {giveUp : Nat → Bool} {eid : UInt8} {oui : List UInt8}
  {w : Wants}

theorem search_iff :
    (∃ r, Loop.Ends (searchTurn bs bs.length giveUp eid oui w) c r
      ∧ ∀ f, r = some f → Whole bs f.addr) ↔ Fits bs giveUp eid oui wrap32 c := by
  constructor
  · rintro ⟨r, hends, hwhole⟩
    refine hends.induct ?_ ?_
    · intro c hstop
      rcases searchTurn_stop hstop with ⟨_, hp | ⟨_, hlt, hg⟩⟩ | ⟨f, hr, haddr, hg, hid, ho⟩
      · exact .past hp
      · exact .given hlt hg
      · exact .hit hg hid ho (haddr ▸ hwhole f hr)
    · intro c c' hnext _ ih
      obtain ⟨_, hg, id, l, hid, hl, hm, rfl⟩ := searchTurn_next hnext
      exact .miss hg hid hl hm rfl ih
  · intro h
    induction h with
    | past hp =>
        refine ⟨none, (Loop.ends_stop ?_).mpr rfl, nofun⟩
        unfold searchTurn
        rw [if_pos hp]
        rfl
    | given hlt hg =>
        refine ⟨none, (Loop.ends_stop ?_).mpr rfl, nofun⟩
        exact searchTurn_given hlt (List.getElem?_eq_getElem hlt) hg
    | hit hg hid ho hw =>
        obtain ⟨f, hf, haddr⟩ := searchTurn_hit (w := w) (lt_of_get hid) hg hid ho hw
        refine ⟨some f, (Loop.ends_stop hf).mpr rfl, ?_⟩
        intro f' hf'
        cases hf'
        rw [haddr]
        exact hw
    | miss hg hid hl hm ha _ ih =>
        cases ha
        obtain ⟨r, hr, hwhole⟩ := ih
        exact ⟨r, (Loop.ends_next (searchTurn_miss (lt_of_get hid) hg hid hl hm)).mpr hr, hwhole⟩

end

/-! ## `rtw_get_ie` -/

section

variable {bs : List UInt8} {index : UInt8} {limit : Int}

theorem bmod_of_lt {x : Nat} (h : x < 2 ^ 31) : (x : Int).bmod (2 ^ 32) = x := by
  rw [Int.bmod_def]
  split
  · omega
  · omega

theorem bmod_of_ge {x : Nat} (h : 2 ^ 31 ≤ x) (h' : x < 2 ^ 32) :
    (x : Int).bmod (2 ^ 32) < 0 := by
  rw [Int.bmod_def]
  split
  · omega
  · omega

theorem getIeTurn_eq {c : Nat} {i : Int} {id tmp : UInt8} (hid : bs[c]? = some id)
    (ht : bs[c + 1]? = some tmp) : getIeTurn bs index limit (c, i) =
      if id = index then .done (.stop (some (c, tmp.toNat)))
      else if limit ≤ (i + (tmp.toNat + 2 : Nat)).bmod (2 ^ 32) then .done (.stop none)
      else .done (.next (c + (tmp.toNat + 2), (i + (tmp.toNat + 2 : Nat)).bmod (2 ^ 32))) := by
  unfold getIeTurn
  rw [fetch_done.mpr hid, Outcome.done_bind, fetch_done.mpr ht]
  rfl

/-- A turn that does anything has both bytes of the header. -/
theorem getIeTurn_done {c : Nat} {i : Int} {t : Turn (Nat × Int) (Option (Nat × Nat))}
    (h : getIeTurn bs index limit (c, i) = .done t) :
    ∃ id tmp, bs[c]? = some id ∧ bs[c + 1]? = some tmp := by
  unfold getIeTurn at h
  obtain ⟨id, hid, h⟩ := Outcome.bind_eq_done.mp h
  obtain ⟨tmp, ht, _⟩ := Outcome.bind_eq_done.mp h
  exact ⟨id, tmp, fetch_done.mp hid, fetch_done.mp ht⟩

theorem miss_index {id : UInt8} {c : Nat} (hne : id ≠ index) : id = index →
    c + 2 + ([] : List UInt8).length ≤ bs.length ∧ ¬ [] <+: bs.drop (c + 2) :=
  fun he => absurd he hne

theorem getIe_fits {c : Nat} {r : Option (Nat × Nat)} (hlen : bs.length < 2 ^ 31)
    (h : Loop.Ends (getIeTurn bs index bs.length) (c, c) r) (hc : c < bs.length)
    (hwhole : ∀ o l, r = some (o, l) → Whole bs o) :
    Fits bs (fun _ => false) index [] noOverflow c := by
  refine h.induct (P := fun s => s.2 = (s.1 : Int) → s.1 < bs.length →
    Fits bs (fun _ => false) index [] noOverflow s.1) ?_ ?_ rfl hc
  · rintro ⟨c, i⟩ hstop (rfl : i = c) (hc : c < bs.length)
    obtain ⟨id, tmp, hid, ht⟩ := getIeTurn_done hstop
    rw [getIeTurn_eq hid ht] at hstop
    have htmp := tmp.toNat_lt
    by_cases he : id = index
    · rw [if_pos he] at hstop
      cases hstop
      exact .hit rfl (he ▸ hid) List.nil_prefix (hwhole c _ rfl)
    · rw [if_neg he] at hstop
      split at hstop
      case isFalse => cases hstop
      case isTrue hle =>
        -- the counter has not overflowed, for it is behind the bytes
        have hlt : c + (tmp.toNat + 2) < 2 ^ 31 := by
          by_contra hge
          have hneg := bmod_of_ge (x := c + (tmp.toNat + 2)) (by omega) (by omega)
          rw [Int.natCast_add] at hneg
          omega
        have hval := bmod_of_lt hlt
        rw [Int.natCast_add] at hval
        rw [hval] at hle
        exact .miss rfl hid ht (miss_index he) (if_pos hlt) (.past (by omega))
  · rintro ⟨c, i⟩ ⟨c', i'⟩ hnext hends ih (rfl : i = c) (hc : c < bs.length)
    obtain ⟨id, tmp, hid, ht⟩ := getIeTurn_done hnext
    rw [getIeTurn_eq hid ht] at hnext
    have htmp := tmp.toNat_lt
    by_cases he : id = index
    · rw [if_pos he] at hnext
      cases hnext
    · rw [if_neg he] at hnext
      split at hnext
      case isTrue => cases hnext
      case isFalse hgt =>
        cases hnext
        by_cases hlt : c + (tmp.toNat + 2) < 2 ^ 31
        · have hval := bmod_of_lt hlt
          rw [Int.natCast_add] at hval
          rw [hval] at hgt ih
          exact .miss rfl hid ht (miss_index he) (if_pos hlt) (ih (by simp) (by dsimp only; omega))
        · -- behind an overflow there is nothing to read
          exfalso
          refine Loop.not_ends_overrun ?_ hends
          unfold getIeTurn fetch
          rw [List.getElem?_eq_none (by dsimp only; omega)]
          rfl

theorem getIe_of_fits {c : Nat} (h : Fits bs (fun _ => false) index [] noOverflow c)
    (hc : c < bs.length) : ∃ r, Loop.Ends (getIeTurn bs index bs.length) (c, c) r
      ∧ ∀ o l, r = some (o, l) → Whole bs o := by
  induction h with
  | past hp => omega
  | given _ hg => exact absurd hg Bool.false_ne_true
  | @hit c hg hid ho hw =>
      obtain ⟨l, hl, hfit⟩ := hw
      refine ⟨some (c, l.toNat), (Loop.ends_stop ?_).mpr rfl, ?_⟩
      · rw [getIeTurn_eq hid hl, if_pos rfl]
      · intro o l' ho'
        cases ho'
        exact ⟨l, hl, hfit⟩
  | @miss c c' id l hg hid hl hm ha _ ih =>
      have hne : id ≠ index := fun he => (hm he).2 List.nil_prefix
      unfold noOverflow at ha
      split at ha
      case isFalse => cases ha
      case isTrue hlt =>
        cases ha
        have hval := bmod_of_lt hlt
        rw [Int.natCast_add] at hval
        by_cases hle : bs.length ≤ c + (l.toNat + 2)
        · refine ⟨none, (Loop.ends_stop ?_).mpr rfl, nofun⟩
          rw [getIeTurn_eq hid hl, if_neg hne, hval, if_pos (by omega)]
        · obtain ⟨r, hr, hwhole⟩ := ih (by omega)
          have hturn : getIeTurn bs index bs.length (c, (c : Int))
              = .done (.next (c + (l.toNat + 2), ((c + (l.toNat + 2) : Nat) : Int))) := by
            rw [getIeTurn_eq hid hl, if_neg hne, hval, if_neg (by omega)]
            rfl
          exact ⟨r, (Loop.ends_next hturn).mpr hr, hwhole⟩

end

/-! ## The same of the bytes -/

/-- Complete elements, none of them the one looked for and each with the compared bytes behind it,
and then nothing, or the element looked for, or a header whose body is cut short. -/
inductive Walkable (eid : UInt8) (oui : List UInt8) : List UInt8 → Prop where
  | nil : Walkable eid oui []
  | hit (e : Tlv) (rest : List UInt8) (hid : e.id = eid) (ho : oui <+: e.body ++ rest) :
      Walkable eid oui (e.bytes ++ rest)
  | skip (e : Tlv) (rest : List UInt8)
      (hm : e.id = eid → oui.length ≤ (e.body ++ rest).length ∧ ¬ oui <+: e.body ++ rest)
      (h : Walkable eid oui rest) : Walkable eid oui (e.bytes ++ rest)
  | cut (id l : UInt8) (rest : List UInt8) (hl : rest.length < l.toNat)
      (hm : id = eid → oui.length ≤ rest.length ∧ ¬ oui <+: rest) :
      Walkable eid oui (id :: l :: rest)

section

variable {bs : List UInt8} {c : Nat} {id l : UInt8}

theorem drop_header (hid : bs[c]? = some id) (hl : bs[c + 1]? = some l) :
    bs.drop c = id :: l :: bs.drop (c + 2) := by
  obtain ⟨h0, hid⟩ := List.getElem?_eq_some_iff.mp hid
  obtain ⟨h1, hl⟩ := List.getElem?_eq_some_iff.mp hl
  rw [List.drop_eq_getElem_cons h0, hid, List.drop_eq_getElem_cons h1, hl]

/-- A header whose body is there is an element. -/
theorem drop_element (hid : bs[c]? = some id) (hl : bs[c + 1]? = some l)
    (hfit : c + 2 + l.toNat ≤ bs.length) :
    ∃ e : Tlv, e.id = id ∧ e.body.length = l.toNat
      ∧ bs.drop (c + 2) = e.body ++ bs.drop (c + (l.toNat + 2))
      ∧ bs.drop c = e.bytes ++ bs.drop (c + (l.toNat + 2)) := by
  have hlen : ((bs.drop (c + 2)).take l.toNat).length = l.toNat := by
    rw [List.length_take, List.length_drop]
    omega
  have hsplit : bs.drop (c + 2) = (bs.drop (c + 2)).take l.toNat ++ bs.drop (c + (l.toNat + 2)) := by
    conv => lhs; rw [← List.take_append_drop l.toNat (bs.drop (c + 2))]
    rw [List.drop_drop]
    congr 2
    omega
  refine ⟨⟨id, (bs.drop (c + 2)).take l.toNat, by rw [hlen]; exact l.toNat_lt⟩, rfl, hlen, hsplit, ?_⟩
  unfold Tlv.bytes
  dsimp only
  rw [hlen, UInt8.ofNat_toNat, drop_header hid hl, List.cons_append, List.cons_append, ← hsplit]

/-- The other way around. -/
theorem get_of_drop {e : Tlv} {rest : List UInt8} (h : bs.drop c = e.bytes ++ rest) :
    bs[c]? = some e.id ∧ bs[c + 1]? = some (UInt8.ofNat e.body.length)
      ∧ bs.drop (c + 2) = e.body ++ rest
      ∧ bs.drop (c + (e.body.length + 2)) = rest
      ∧ c + 2 + e.body.length + rest.length = bs.length := by
  have hget : ∀ i, bs[c + i]? = (e.bytes ++ rest)[i]? := by
    intro i
    rw [← h, List.getElem?_drop]
  have hlen := congrArg List.length h
  rw [List.length_drop, List.length_append, Tlv.length_bytes, Tlv.size] at hlen
  refine ⟨hget 0, hget 1, ?_, ?_, by omega⟩
  · rw [← List.drop_drop, h]
    rfl
  · rw [← List.drop_drop, h, List.drop_left' (by rw [Tlv.length_bytes]; rfl)]

/-- **The walk over the offsets is the walk over the bytes**, where the counter does not come to its
end. -/
theorem fits_iff_walkable {giveUp : Nat → Bool} {eid : UInt8} {oui : List UInt8}
    {adv : Nat → Option Nat} (hadv : ∀ x, x < bs.length + 257 → adv x = some x)
    (hgive : ∀ x, x < bs.length → giveUp x = false) :
    Fits bs giveUp eid oui adv c ↔ Walkable eid oui (bs.drop c) := by
  constructor
  -- each step of the walk over the offsets takes one element off the bytes
  · intro h
    induction h with
    | past hp =>
        rw [List.drop_eq_nil_of_le hp]
        exact .nil
    | given hlt hg =>
        rw [hgive _ hlt] at hg
        cases hg
    | hit hg hid ho hw =>
        obtain ⟨l, hl, hfit⟩ := hw
        obtain ⟨e, he, _, hbody, hdrop⟩ := drop_element hid hl hfit
        rw [hdrop]
        exact .hit e _ he (hbody ▸ ho)
    | @miss c c' id l hg hid hl hm ha _ ih =>
        have hl' := l.toNat_lt
        have hc := lt_of_get hl
        rw [hadv _ (by omega)] at ha
        cases ha
        -- an element that is cut short ends both walks
        by_cases hfit : c + 2 + l.toNat ≤ bs.length
        · obtain ⟨e, he, _, hbody, hdrop⟩ := drop_element hid hl hfit
          rw [hdrop]
          refine .skip e _ (fun heid => ?_) ih
          obtain ⟨hin, hno⟩ := hm (he.symm.trans heid)
          rw [← hbody, List.length_drop]
          exact ⟨by omega, hno⟩
        · rw [drop_header hid hl]
          refine .cut id l _ (by rw [List.length_drop]; omega) (fun heid => ?_)
          obtain ⟨hin, hno⟩ := hm heid
          rw [List.length_drop]
          exact ⟨by omega, hno⟩
  · intro h
    -- back by induction on the bytes; the offset comes from what is left of them
    generalize hb : bs.drop c = tail at h
    induction h generalizing c with
    | nil => exact .past (List.drop_eq_nil_iff.mp hb)
    | hit e rest heid ho =>
        obtain ⟨hid, hl, hbody, _, hlen⟩ := get_of_drop hb
        refine .hit (hgive c (lt_of_get hid)) (heid ▸ hid) (hbody ▸ ho) ⟨_, hl, ?_⟩
        rw [Tlv.toNat_length]
        omega
    | skip e rest hm _ ih =>
        obtain ⟨hid, hl, hbody, hrest, hlen⟩ := get_of_drop hb
        have hshort := e.short
        refine .miss (hgive c (lt_of_get hid)) hid hl ?_ (hadv _ ?_) ?_
        · intro heid
          obtain ⟨hin, hno⟩ := hm heid
          rw [List.length_append] at hin
          rw [hbody]
          exact ⟨by omega, hno⟩
        · rw [Tlv.toNat_length]
          omega
        · rw [Tlv.toNat_length]
          exact ih hrest
    | cut id l rest hshort hm =>
        have hget : ∀ i, bs[c + i]? = (id :: l :: rest)[i]? := by
          intro i
          rw [← hb, List.getElem?_drop]
        have hrest : bs.drop (c + 2) = rest := by
          rw [← List.drop_drop, hb]
          rfl
        have hlen := congrArg List.length hb
        rw [List.length_drop, List.length_cons, List.length_cons] at hlen
        have hl' := l.toNat_lt
        refine .miss (hgive c (lt_of_get (hget 0))) (hget 0) (hget 1) ?_ (hadv _ (by omega)) (.past (by omega))
        intro heid
        obtain ⟨hin, hno⟩ := hm heid
        rw [hrest]
        exact ⟨by omega, hno⟩

end

/-! ## The four walkers -/

/-- A search ends, reads nothing outside the bytes, and what it returns is a whole element in them. -/
def Inside (bs : List UInt8) (ends : Option Found → Prop) : Prop :=
  ∃ r, ends r ∧ ∀ f, r = some f → Whole bs f.addr

/-- The same of `rtw_get_ie`. -/
def GetIeInside (bs : List UInt8) (index : UInt8) (limit : Int) : Prop :=
  ∃ r, RtwGetIe bs 0 index limit r ∧ ∀ o l, r = some (o, l) → Whole bs o

theorem rtwGetIe_iff {bs : List UInt8} {p : Nat} {index : UInt8} {limit : Int}
    {r : Option (Nat × Nat)} (h : ¬ limit < 1) :
    RtwGetIe bs p index limit r ↔ Loop.Ends (getIeTurn bs index limit) (p, 0) r := by
  unfold RtwGetIe
  rw [if_neg h]

theorem getIeInside_iff {bs : List UInt8} {index : UInt8} {limit : Int} (hlt : limit < 2 ^ 31)
    (hlen : limit.toNat = bs.length) :
    GetIeInside bs index limit ↔ Fits bs (fun _ => false) index [] noOverflow 0 := by
  by_cases hpos : limit < 1
  · have hempty : bs.length = 0 := by omega
    refine iff_of_true ⟨none, ?_, nofun⟩ (.past (by omega))
    unfold RtwGetIe
    rw [if_pos hpos]
  · have heq : limit = (bs.length : Int) := by omega
    subst heq
    constructor
    · rintro ⟨r, hr, hwhole⟩
      exact getIe_fits (by omega) ((rtwGetIe_iff hpos).mp hr) (by omega) hwhole
    · intro h
      obtain ⟨r, hr, hwhole⟩ := getIe_of_fits h (by omega)
      exact ⟨r, (rtwGetIe_iff hpos).mpr hr, hwhole⟩

theorem p2pInside_iff {bs : List UInt8} {inLen : Int} (hlo : -2 ^ 31 ≤ inLen) (hhi : inLen < 2 ^ 31)
    (hlen : inLen.toNat = bs.length) (w : Wants) :
    Inside bs (RtwGetP2pIe bs inLen w) ↔ 0 ≤ inLen
      ∧ Fits bs (fun cnt => decide (maxIe < cnt)) vendorIe p2pOui wrap32 0 := by
  by_cases hneg : inLen < 0
  · refine iff_of_false ?_ (fun h => by omega)
    rintro ⟨r, hr, _⟩
    -- the first byte is read before the sign is looked at
    refine Loop.not_ends_overrun ?_ hr
    have hnil : bs = [] := List.eq_nil_of_length_eq_zero (by omega)
    unfold searchTurn
    rw [if_neg (by omega), hnil]
    rfl
  · have hval : (inLen % 2 ^ 32).toNat = bs.length := by omega
    have hgive : (fun cnt => decide (inLen < 0) || decide (maxIe < cnt))
        = fun cnt => decide (maxIe < cnt) := by
      funext cnt
      rw [decide_eq_false hneg, Bool.false_or]
    unfold Inside RtwGetP2pIe
    rw [hval, hgive, search_iff]
    exact ⟨fun h => ⟨by omega, h⟩, fun h => h.2⟩

/-- **Lookups and the limit.** Each walker ends, stays below its limit and returns a whole element
exactly when the walk fits; for limits that the counters are not exhausted by, that is a property of the
bytes. -/
theorem ie_lookup_inside_iff (bs : List UInt8) :
    (∀ index limit, limit < 2 ^ 31 → limit.toNat = bs.length →
      (GetIeInside bs index limit ↔ Fits bs (fun _ => false) index [] noOverflow 0))
    ∧ (∀ eid oui w, Inside bs (RtwGetIeEx bs bs.length eid oui w)
        ↔ Fits bs (fun _ => false) eid (oui.getD []) wrap32 0)
    ∧ (∀ w, Inside bs (RtwGetWpsIe bs bs.length w)
        ↔ Fits bs (fun _ => false) vendorIe wpsOui wrap32 0)
    ∧ (∀ inLen w, -2 ^ 31 ≤ inLen → inLen < 2 ^ 31 → inLen.toNat = bs.length →
        (Inside bs (RtwGetP2pIe bs inLen w) ↔ 0 ≤ inLen
          ∧ Fits bs (fun cnt => decide (maxIe < cnt)) vendorIe p2pOui wrap32 0))
    ∧ (bs.length + 257 ≤ 2 ^ 31 → ∀ eid oui,
        (Fits bs (fun _ => false) eid oui noOverflow 0 ↔ Walkable eid oui bs)
          ∧ (Fits bs (fun _ => false) eid oui wrap32 0 ↔ Walkable eid oui bs))
    ∧ (bs.length ≤ maxIe → ∀ eid oui,
        (Fits bs (fun cnt => decide (maxIe < cnt)) eid oui wrap32 0 ↔ Walkable eid oui bs)) := by
  have hwrap : bs.length + 257 ≤ 2 ^ 32 → ∀ x, x < bs.length + 257 → wrap32 x = some x := by
    intro hlen x hx
    unfold wrap32
    rw [Nat.mod_eq_of_lt (by omega)]
  refine ⟨fun index limit hlt hlen => getIeInside_iff hlt hlen, fun eid oui w => search_iff,
    fun w => search_iff, fun inLen w hlo hhi hlen => p2pInside_iff hlo hhi hlen w, ?_, ?_⟩
  · intro hlen eid oui
    refine ⟨fits_iff_walkable (c := 0) (fun x hx => ?_) (fun _ _ => rfl),
      fits_iff_walkable (c := 0) (hwrap (by omega)) (fun _ _ => rfl)⟩
    unfold noOverflow
    rw [if_pos (by omega)]
  · intro hlen eid oui
    refine fits_iff_walkable (c := 0) (hwrap (by unfold maxIe at hlen; omega)) (fun x hx => ?_)
    exact decide_eq_false (by omega)

/-- An SSID and a WPS element. -/
def sampleIes : List UInt8 := [0, 2, 0x61, 0x62, 221, 5, 0x00, 0x50, 0xf2, 0x04, 0x10]

theorem ie_lookup_inside_sample : Inside sampleIes (RtwGetWpsIe sampleIes 11 ⟨true, true⟩)
    ∧ GetIeInside sampleIes 50 11 ∧ Inside sampleIes (RtwGetP2pIe sampleIes 11 ⟨true, true⟩) := by
  have h := ie_lookup_inside_iff sampleIes
  have hwps : Walkable vendorIe wpsOui sampleIes :=
    .skip ⟨0, [0x61, 0x62], by decide⟩ _ nofun
      (.hit ⟨221, [0x00, 0x50, 0xf2, 0x04, 0x10], by decide⟩ [] rfl (by decide))
  have hget : Walkable 50 [] sampleIes :=
    .skip ⟨0, [0x61, 0x62], by decide⟩ _ nofun
      (.skip ⟨221, [0x00, 0x50, 0xf2, 0x04, 0x10], by decide⟩ [] nofun .nil)
  have hp2p : Walkable vendorIe p2pOui sampleIes :=
    .skip ⟨0, [0x61, 0x62], by decide⟩ _ nofun
      (.skip ⟨221, [0x00, 0x50, 0xf2, 0x04, 0x10], by decide⟩ [] (fun _ => by decide) .nil)
  refine ⟨(h.2.2.1 _).mpr ?_, (h.1 50 11 (by decide) rfl).mpr ?_,
    (h.2.2.2.1 11 _ (by decide) (by decide) rfl).mpr ⟨by decide, ?_⟩⟩
  · exact ((h.2.2.2.2.1 (by decide) _ _).2).mpr hwps
  · exact ((h.2.2.2.2.1 (by decide) _ _).1).mpr hget
  · exact (h.2.2.2.2.2 (by decide) _ _).mpr hp2p

/-- A lone type byte: the length byte behind it is read by each of them. -/
theorem ie_lookup_reads_past :
    ¬ GetIeInside [221] 50 1 ∧ ¬ Inside [221] (RtwGetIeEx [221] 1 50 none ⟨true, true⟩)
      ∧ ¬ Inside [221] (RtwGetWpsIe [221] 1 ⟨true, true⟩)
      ∧ ¬ Inside [221] (RtwGetP2pIe [221] 1 ⟨true, true⟩) := by
  refine ⟨?_, ?_, ?_, ?_⟩
  · rintro ⟨r, hr, _⟩
    exact Loop.not_ends_overrun rfl hr
  · rintro ⟨r, hr, _⟩
    exact Loop.not_ends_overrun rfl hr
  · rintro ⟨r, hr, _⟩
    exact Loop.not_ends_overrun rfl hr
  · rintro ⟨r, hr, _⟩
    exact Loop.not_ends_overrun rfl hr

end Rtl8812au.Ies

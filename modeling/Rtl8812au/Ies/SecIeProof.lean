import Rtl8812au.Ies.SecIe
import Rtl8812au.Ap.Ie

/-!
# What a collection reports

The counter that prints has eight bits and steps by eight, so it never gets past an element of more than
248 bytes. And the bytes that say what a vendor element is are compared before anything is known of its
length: an element too short to have them is taken for one when the bytes behind it look the part.
Without either, the outputs are those of the last element of each kind.
-/

namespace Rtl8812au.Ies

section

variable {κ : Type} [DecidableEq κ] {kindAt : Nat → Option κ} {m : Mem} {inLen : Nat}

/-! ## The loop that prints -/

theorem collectTurn_print {p : Nat} {k : κ} {i : UInt8} {out : κ → SecOut}
    (h : i.toNat < sizeAt m p) :
    collectTurn kindAt m inLen ⟨p, some (k, i), out⟩ = .done (.next ⟨p, some (k, i + 8), out⟩) := by
  dsimp only [collectTurn]
  rw [if_pos h]

theorem collectTurn_printed {p : Nat} {k : κ} {i : UInt8} {out : κ → SecOut}
    (h : ¬ i.toNat < sizeAt m p) :
    collectTurn kindAt m inLen ⟨p, some (k, i), out⟩
      = .done (.next (Collect.report m ⟨p, some (k, i), out⟩ k)) := by
  dsimp only [collectTurn]
  rw [if_neg h]

theorem toNat_add_eight (i : UInt8) : (i + 8).toNat = (i.toNat + 8) % 256 := UInt8.toNat_add i 8

/-- Up to 248 bytes the loop gets through. -/
theorem print_ends {p : Nat} {k : κ} {out b : κ → SecOut} (hsize : sizeAt m p ≤ 248) (i : UInt8)
    (hi : i.toNat % 8 = 0) (hle : i.toNat ≤ 248) :
    Loop.Ends (collectTurn kindAt m inLen) ⟨p, some (k, i), out⟩ b
      ↔ Loop.Ends (collectTurn kindAt m inLen) (Collect.report m ⟨p, none, out⟩ k) b := by
  induction hn : 248 - i.toNat using Nat.strongRecOn generalizing i with
  | _ n ih =>
      by_cases hlt : i.toNat < sizeAt m p
      · rw [Loop.ends_next (collectTurn_print hlt)]
        have hnext : (i + 8).toNat = i.toNat + 8 := by
          rw [toNat_add_eight, Nat.mod_eq_of_lt (by omega)]
        exact ih (248 - (i + 8).toNat) (by omega) (i + 8) (by omega) (by omega) rfl
      · rw [Loop.ends_next (collectTurn_printed hlt)]
        rfl

/-- Beyond that it goes round. -/
theorem print_hangs {p : Nat} {k : κ} {out b : κ → SecOut} (hsize : 248 < sizeAt m p) :
    ¬ Loop.Ends (collectTurn kindAt m inLen) ⟨p, some (k, 0), out⟩ b := by
  refine Loop.not_ends_of_closed
    (fun s => ∃ i : UInt8, i.toNat % 8 = 0 ∧ s = ⟨p, some (k, i), out⟩) ?_ ⟨0, rfl, rfl⟩
  rintro s ⟨i, hi, rfl⟩
  have hi256 := i.toNat_lt
  have hlt : i.toNat < sizeAt m p := by omega
  refine ⟨_, collectTurn_print hlt, i + 8, ?_, rfl⟩
  rw [toNat_add_eight]
  omega

/-! ## The walk -/

/-- The outputs once the elements from `p` on are collected. -/
def collected (kindAt : Nat → Option κ) (m : Mem) : Nat → List Tlv → (κ → SecOut) → κ → SecOut
  | _, [], out => out
  | p, e :: es, out =>
    match kindAt p with
    | none => collected kindAt m (p + e.size) es out
    | some k =>
      collected kindAt m (p + e.size) es
        (Function.update out k ⟨e.size, (out k).ie.copy 0 m p e.size⟩)

/-- Every element that is taken can be printed. -/
def Printable (kindAt : Nat → Option κ) (p : Nat) (es : List Tlv) : Prop :=
  ∀ xs e ys, es = xs ++ e :: ys → kindAt (p + Tlv.total xs) ≠ none → e.size ≤ 248

omit [DecidableEq κ] in
theorem printable_cons {p : Nat} {e : Tlv} {es : List Tlv} :
    Printable kindAt p (e :: es) ↔ (kindAt p ≠ none → e.size ≤ 248) ∧ Printable kindAt (p + e.size) es := by
  unfold Printable
  rw [Tlv.forall_split_cons (P := fun xs x _ => kindAt (p + Tlv.total xs) ≠ none → x.size ≤ 248)]
  simp only [Tlv.total_nil, Tlv.total_cons, Nat.add_zero, Nat.add_assoc]

theorem collectTurn_end {p : Nat} {out : κ → SecOut} (h : inLen ≤ p) :
    collectTurn kindAt m inLen ⟨p, none, out⟩ = .done (.stop out) := by
  dsimp only [collectTurn]
  rw [if_pos h]

theorem sizeAt_eq {p : Nat} {e : Tlv} {es : List Tlv} (h : Holds m p (e :: es)) :
    sizeAt m p = e.size := by
  obtain ⟨-, hlen, -⟩ := (Holds.cons.mp h).1.head
  unfold sizeAt
  rw [hlen]
  rfl

omit [DecidableEq κ] in
theorem advance_eq {p : Nat} {e : Tlv} {es : List Tlv} {i : Option (κ × UInt8)} {out : κ → SecOut}
    (h : Holds m p (e :: es)) (hbig : p + e.size < 2 ^ 32) :
    Collect.advance m ⟨p, i, out⟩ = ⟨p + e.size, none, out⟩ := by
  unfold Collect.advance
  dsimp only
  rw [sizeAt_eq h, Nat.mod_eq_of_lt hbig]

/-- **The collection ends exactly when everything it takes can be printed**, with the elements
collected. -/
theorem collect_ends_iff {es : List Tlv} : ∀ {p : Nat} {out b : κ → SecOut}, Holds m p es →
    p + Tlv.total es = inLen → inLen < 2 ^ 32 →
    (Loop.Ends (collectTurn kindAt m inLen) ⟨p, none, out⟩ b
      ↔ Printable kindAt p es ∧ b = collected kindAt m p es out) := by
  induction es with
  | nil =>
      intro p out b _ hp _
      rw [Tlv.total_nil, Nat.add_zero] at hp
      rw [Loop.ends_stop (collectTurn_end (Nat.le_of_eq hp.symm))]
      have hnil : Printable kindAt p [] := by
        intro xs e ys hs
        exact absurd hs (by simp)
      exact ⟨fun hb => ⟨hnil, hb⟩, fun h => h.2⟩
  | cons e es ih =>
      intro p out b h hp hbig
      have hsize := e.two_le_size
      rw [Tlv.total_cons] at hp
      have hlt : ¬ inLen ≤ p := by omega
      have hadv : p + e.size < 2 ^ 32 := by omega
      have htail := (Holds.cons.mp h).2
      have hp' : p + e.size + Tlv.total es = inLen := by omega
      rw [printable_cons]
      -- an element that is not taken is passed over in one turn; another one is copied first
      cases hk : kindAt p with
      | none =>
          have hturn : collectTurn kindAt m inLen ⟨p, none, out⟩
              = .done (.next ⟨p + e.size, none, out⟩) := by
            dsimp only [collectTurn]
            rw [if_neg hlt, hk]
            dsimp only
            rw [advance_eq h hadv]
          rw [Loop.ends_next hturn, ih htail hp' hbig]
          simp [collected, hk]
      | some k =>
          have hturn : collectTurn kindAt m inLen ⟨p, none, out⟩
              = .done (.next ⟨p, some (k, 0), Function.update out k
                  { out k with ie := (out k).ie.copy 0 m p e.size }⟩) := by
            dsimp only [collectTurn]
            rw [if_neg hlt, hk]
            dsimp only [Collect.copy]
            rw [sizeAt_eq h]
          rw [Loop.ends_next hturn]
          by_cases h248 : e.size ≤ 248
          · -- the element is printed and its length reported
            rw [print_ends (by rw [sizeAt_eq h]; exact h248) 0 rfl (by decide)]
            have hrep : Collect.report m ⟨p, none, Function.update out k
                  { out k with ie := (out k).ie.copy 0 m p e.size }⟩ k
                = ⟨p + e.size, none,
                    Function.update out k ⟨e.size, (out k).ie.copy 0 m p e.size⟩⟩ := by
              unfold Collect.report
              dsimp only
              rw [advance_eq h hadv, sizeAt_eq h]
              simp
            rw [hrep, ih htail hp' hbig]
            simp [collected, hk, h248]
          -- a longer one is printed for ever
          · have hno : ¬ Loop.Ends (collectTurn kindAt m inLen) ⟨p, some (k, 0), Function.update out k
                { out k with ie := (out k).ie.copy 0 m p e.size }⟩ b :=
              print_hangs (by rw [sizeAt_eq h]; omega)
            constructor
            · intro he
              exact absurd he hno
            · rintro ⟨⟨hc, -⟩, -⟩
              exact absurd (hc (by simp)) h248

/-! ## What is collected -/

/-- The last element taken for `k` is reported in `o`, or none is and `o` is what it was. -/
def LastTaken (kindAt : Nat → Option κ) (k : κ) (p : Nat) (es : List Tlv) (o₀ o : SecOut) : Prop :=
  (∃ xs e ys, es = xs ++ e :: ys ∧ kindAt (p + Tlv.total xs) = some k
      ∧ (∀ us x vs, ys = us ++ x :: vs → kindAt (p + Tlv.total xs + e.size + Tlv.total us) ≠ some k)
      ∧ o.len = e.size ∧ o.ie.read 0 e.size = e.bytes)
    ∨ ((∀ xs e ys, es = xs ++ e :: ys → kindAt (p + Tlv.total xs) ≠ some k) ∧ o = o₀)

/-- An element in front: it is the last one if nothing behind it is taken. -/
theorem LastTaken.cons {k : κ} {p : Nat} {e : Tlv} {es : List Tlv} {o₀ o₁ o : SecOut}
    (h : LastTaken kindAt k (p + e.size) es o₁ o)
    (hself : kindAt p = some k → o₁.len = e.size ∧ o₁.ie.read 0 e.size = e.bytes)
    (hother : kindAt p ≠ some k → o₁ = o₀) : LastTaken kindAt k p (e :: es) o₀ o := by
  rcases h with ⟨xs, x, ys, rfl, hk, hlast, hlen, hie⟩ | ⟨hnone, rfl⟩
  · refine Or.inl ⟨e :: xs, x, ys, rfl, ?_, ?_, hlen, hie⟩
    · rw [Tlv.total_cons, ← Nat.add_assoc]
      exact hk
    · intro us y vs hs
      rw [Tlv.total_cons, ← Nat.add_assoc]
      exact hlast us y vs hs
  · by_cases hk : kindAt p = some k
    · obtain ⟨hlen, hie⟩ := hself hk
      exact Or.inl ⟨[], e, es, rfl, hk, hnone, hlen, hie⟩
    · refine Or.inr ⟨?_, hother hk⟩
      rw [Tlv.forall_split_cons (P := fun xs _ _ => kindAt (p + Tlv.total xs) ≠ some k)]
      refine ⟨hk, fun xs x ys hs => ?_⟩
      rw [Tlv.total_cons, ← Nat.add_assoc]
      exact hnone xs x ys hs

/-- **The last element that is taken for `k`** is what is reported for `k`. -/
theorem collected_last {es : List Tlv} (k : κ) : ∀ {p : Nat} (out : κ → SecOut), Holds m p es →
    LastTaken kindAt k p es (out k) (collected kindAt m p es out k) := by
  induction es with
  | nil =>
      intro p out _
      exact Or.inr ⟨fun xs e ys hs => absurd hs (by simp), rfl⟩
  | cons e es ih =>
      intro p out h
      obtain ⟨hhead, htail⟩ := Holds.cons.mp h
      cases hkp : kindAt p with
      | none =>
          simp only [collected, hkp]
          refine (ih out htail).cons (fun hk => ?_) (fun _ => rfl)
          rw [hkp] at hk
          cases hk
      | some k' =>
          simp only [collected, hkp]
          refine (ih _ htail).cons (fun hk => ?_) (fun hk => ?_)
          · rw [hkp] at hk
            cases hk
            rw [Function.update_self]
            refine ⟨rfl, ?_⟩
            have hbytes : m.read p e.size = e.bytes := by
              have hone := hhead
              unfold Holds at hone
              simpa using hone
            have hwrite := Mem.read_write_self (out k).ie 0 (m.read p e.size)
            rw [Mem.length_read] at hwrite
            exact hwrite.trans hbytes
          · rw [hkp] at hk
            exact Function.update_of_ne (fun heq => hk (by rw [heq])) _ _

end

/-! ## What should be reported -/

/-- The last element that `is` one is reported: its total size, and a copy. Without one nothing is
changed. -/
def Reports (is : Tlv → Prop) (es : List Tlv) (o₀ o : SecOut) : Prop :=
  (∃ xs e ys, es = xs ++ e :: ys ∧ is e ∧ (∀ y ∈ ys, ¬ is y) ∧ o.len = e.size
      ∧ o.ie.read 0 e.size = e.bytes)
    ∨ ((∀ e ∈ es, ¬ is e) ∧ o = o₀)

/-- What the elements taken have to do with those that are of a kind. An element that is taken for what it
is not is shorter than any that is. -/
structure Kinds {κ : Type} (kindAt : Nat → Option κ) (m : Mem) (is : κ → Tlv → Prop) : Prop where
  taken : ∀ {p e k}, Holds m p [e] → is k e → kindAt p = some k
  shorter : ∀ {p e e' k}, Holds m p [e] → kindAt p = some k → ¬ is k e → is k e' → e.size < e'.size
  small : ∀ {p e k}, Holds m p [e] → kindAt p = some k → ¬ is k e → e.size ≤ 248

/-- **What it takes for the right elements to be reported**: those of a kind have a body of at most 246
bytes, and one that only passes for such an element has a real one behind it. -/
def Reportable {κ : Type} (kindAt : Nat → Option κ) (is : κ → Tlv → Prop) (p : Nat) (es : List Tlv) :
    Prop :=
  (∀ e ∈ es, ∀ k, is k e → e.body.length ≤ 246)
    ∧ ∀ xs e ys k, es = xs ++ e :: ys → kindAt (p + Tlv.total xs) = some k → ¬ is k e →
      ∃ y ∈ ys, is k y

section

variable {κ : Type} [DecidableEq κ] {kindAt : Nat → Option κ} {m : Mem} {is : κ → Tlv → Prop}
  {p : Nat} {es : List Tlv}

omit [DecidableEq κ] in
theorem Reportable.printable (hk : Kinds kindAt m is) (h : Holds m p es)
    (hr : Reportable kindAt is p es) : Printable kindAt p es := by
  intro xs e ys hs hne
  obtain ⟨k, hkind⟩ := Option.ne_none_iff_exists'.mp hne
  by_cases his : is k e
  · exact Nat.add_le_add_right (hr.1 e (by rw [hs]; simp) k his) 2
  · exact hk.small (Holds.split h hs).1 hkind his

omit [DecidableEq κ] in
/-- An element of the kind behind the last one taken would have been taken. -/
theorem not_is_behind (hk : Kinds kindAt m is) {q : Nat} {ys : List Tlv} {k : κ} (h : Holds m q ys)
    (hlast : ∀ us x vs, ys = us ++ x :: vs → kindAt (q + Tlv.total us) ≠ some k) :
    ∀ y ∈ ys, ¬ is k y := by
  intro y hy his
  obtain ⟨us, vs, hs⟩ := List.append_of_mem hy
  exact hlast us y vs hs (hk.taken (Holds.split h hs).1 his)

omit [DecidableEq κ] in
theorem Reportable.reports (hk : Kinds kindAt m is) (h : Holds m p es)
    (hr : Reportable kindAt is p es) {k : κ} {o₀ o : SecOut} (hl : LastTaken kindAt k p es o₀ o) :
    Reports (is k) es o₀ o := by
  rcases hl with ⟨xs, e, ys, hs, hkind, hlast, hlen, hie⟩ | ⟨hnone, ho⟩
  · have hbehind := not_is_behind hk (Holds.split h hs).2 hlast
    by_cases his : is k e
    · exact Or.inl ⟨xs, e, ys, hs, his, hbehind, hlen, hie⟩
    · obtain ⟨y, hy, hiy⟩ := hr.2 xs e ys k hs hkind his
      exact absurd hiy (hbehind y hy)
  · exact Or.inr ⟨not_is_behind hk h hnone, ho⟩

omit [DecidableEq κ] in
/-- The last element taken is at or behind any that is taken. -/
theorem last_at_or_behind {k : κ} {xs ys us vs : List Tlv} {e x : Tlv}
    (hs : es = xs ++ e :: ys) (hs' : es = us ++ x :: vs) (hx : kindAt (p + Tlv.total us) = some k)
    (hlast : ∀ us x vs, ys = us ++ x :: vs → kindAt (p + Tlv.total xs + e.size + Tlv.total us) ≠ some k) :
    e = x ∨ e ∈ vs := by
  rw [hs] at hs'
  rcases List.append_eq_append_iff.mp hs' with ⟨as, hus, hrest⟩ | ⟨as, hxs, hrest⟩
  · cases as with
    | nil => exact Or.inl (List.cons.inj hrest).1
    | cons a as =>
        -- it would have been taken later
        obtain ⟨rfl, hys⟩ := List.cons.inj hrest
        refine absurd hx ?_
        rw [hus, Tlv.total_append, Tlv.total_cons]
        have hno := hlast as x vs hys
        rw [Nat.add_assoc, Nat.add_assoc] at hno
        exact hno
  · cases as with
    | nil => exact Or.inl (List.cons.inj hrest).1.symm
    | cons a as =>
        refine Or.inr ?_
        rw [(List.cons.inj hrest).2]
        simp

omit [DecidableEq κ] in
/-- What is reported is right only if nothing is reported for what it is not. -/
theorem reportable_of_reports (hk : Kinds kindAt m is) (h : Holds m p es)
    (hprint : Printable kindAt p es) {o₀ o : κ → SecOut} (h0 : ∀ k, (o₀ k).len = 0)
    (hl : ∀ k, LastTaken kindAt k p es (o₀ k) (o k)) (hr : ∀ k, Reports (is k) es (o₀ k) (o k)) :
    Reportable kindAt is p es := by
  refine ⟨fun e he k his => ?_, fun us x vs k hs hx hnot => ?_⟩
  · obtain ⟨xs, ys, hs⟩ := List.append_of_mem he
    have hkind := hk.taken (Holds.split h hs).1 his
    have h248 := hprint xs e ys hs (by rw [hkind]; simp)
    unfold Tlv.size at h248
    omega
  · by_contra hno
    have hnone : ∀ y ∈ vs, ¬ is k y := fun y hy hiy => hno ⟨y, hy, hiy⟩
    rcases hl k with ⟨xs, e, ys, hse, hkind, hlast, hlen, -⟩ | ⟨hnever, -⟩
    · have hnote : ¬ is k e := by
        rcases last_at_or_behind hse hs hx hlast with rfl | hmem
        · exact hnot
        · exact hnone e hmem
      rcases hr k with ⟨-, e', -, -, his', -, hlen', -⟩ | ⟨-, hsame⟩
      · have hless := hk.shorter (Holds.split h hse).1 hkind hnote his'
        omega
      · have hz := h0 k
        rw [← hsame, hlen] at hz
        have := e.two_le_size
        omega
    · exact absurd hx (hnever us x vs hs)

/-- **A collection reports the right elements** exactly when they are reportable. -/
theorem collect_iff (hk : Kinds kindAt m is) {inLen : Nat} (h : Holds m p es)
    (hp : p + Tlv.total es = inLen) (hbig : inLen < 2 ^ 32) (I : (κ → SecOut) → Prop)
    (hI : ∃ o₀, I o₀ ∧ ∀ k, (o₀ k).len = 0) :
    (∀ o₀, I o₀ → ∃ o, Loop.Ends (collectTurn kindAt m inLen) ⟨p, none, o₀⟩ o
      ∧ ∀ k, Reports (is k) es (o₀ k) (o k)) ↔ Reportable kindAt is p es := by
  constructor
  · intro hall
    obtain ⟨o₀, hi, h0⟩ := hI
    obtain ⟨o, hends, hrep⟩ := hall o₀ hi
    obtain ⟨hprint, rfl⟩ := (collect_ends_iff h hp hbig).mp hends
    exact reportable_of_reports hk h hprint h0 (fun k => collected_last k o₀ h) hrep
  · intro hr o₀ _
    refine ⟨_, (collect_ends_iff h hp hbig).mpr ⟨hr.printable hk h, rfl⟩, fun k => ?_⟩
    exact hr.reports hk h (collected_last k o₀ h)

end

/-! ## The two functions -/

/-- An RSN element, a WPA element. -/
def IsSec : SecKind → Tlv → Prop
  | .rsn, e => e.id = wpa2Ie
  | .wpa, e => e.id = vendorIe ∧ e.body.take 4 = wpaOui

/-- A WAPI element with one of the two key managements. -/
def IsWapi (e : Tlv) : Prop :=
  e.id = wapiIe ∧ ((e.body.drop 4).take 4 = wapiOui1 ∨ (e.body.drop 4).take 4 = wapiOui2)

/-! ## Where the kind is told from -/

/-- Four bytes of a body that are there. -/
theorem read_body {m : Mem} {p o : Nat} {e : Tlv} (h : Holds m p [e]) (ho : o + 4 ≤ e.body.length) :
    m.read (p + 2 + o) 4 = (e.body.drop o).take 4 := by
  obtain ⟨-, -, hbody⟩ := h.head
  rw [← hbody, Mem.drop_read m (by omega), Mem.take_read m (by omega)]

theorem four_of_take {l pat : List UInt8} {o : Nat} (hpat : pat.length = 4)
    (h : (l.drop o).take 4 = pat) : o + 4 ≤ l.length := by
  have hlen := congrArg List.length h
  rw [List.length_take, List.length_drop, hpat] at hlen
  omega

theorem wapi_body {e : Tlv} (h : IsWapi e) : 8 ≤ e.body.length := by
  rcases h.2 with h | h
  · exact four_of_take rfl h
  · exact four_of_take rfl h

/-- What passes for a WPA element and is none has less than four bytes. -/
theorem wpa_spill {m : Mem} {p : Nat} {e : Tlv} (h : Holds m p [e])
    (hk : secKindAt m p = some .wpa) (hnot : ¬ IsSec .wpa e) : e.body.length < 4 := by
  by_contra hge
  unfold secKindAt at hk
  split at hk
  case isTrue hc =>
    refine hnot ⟨h.head.1 ▸ hc.1, ?_⟩
    rw [← hc.2]
    exact (read_body (o := 0) h (by omega)).symm
  case isFalse =>
    split at hk
    · cases hk
    · cases hk

theorem wapi_spill {m : Mem} {p : Nat} {e : Tlv} (h : Holds m p [e])
    (hk : wapiKindAt m p = some ()) (hnot : ¬ IsWapi e) : e.body.length < 8 := by
  by_contra hge
  unfold wapiKindAt at hk
  split at hk
  case isTrue hc =>
    refine hnot ⟨h.head.1 ▸ hc.1, ?_⟩
    rw [← read_body (o := 4) h (by omega)]
    exact hc.2
  case isFalse => cases hk

/-- An RSN element is one by its identifier. -/
theorem is_rsn_of_kind {m : Mem} {p : Nat} {e : Tlv} (h : Holds m p [e])
    (hk : secKindAt m p = some .rsn) : IsSec .rsn e := by
  unfold secKindAt at hk
  split at hk
  case isTrue => cases hk
  case isFalse =>
    split at hk
    case isTrue hid => exact h.head.1.symm.trans hid
    case isFalse => cases hk

theorem secKinds (m : Mem) : Kinds (secKindAt m) m IsSec where
  taken := by
    intro p e k h his
    cases k with
    | rsn =>
        have hid : m p = wpa2Ie := h.head.1.trans his
        unfold secKindAt
        rw [if_neg (fun hc => absurd (hc.1.symm.trans hid) (by decide)), if_pos hid]
    | wpa =>
        have hlen := four_of_take (o := 0) rfl his.2
        have hid : m p = vendorIe := h.head.1.trans his.1
        unfold secKindAt
        rw [if_pos ⟨hid, (read_body (o := 0) h (by omega)).trans his.2⟩]
  shorter := by
    intro p e e' k h hk hnot his
    cases k with
    | rsn => exact absurd (is_rsn_of_kind h hk) hnot
    | wpa =>
        have hlt := wpa_spill h hk hnot
        have hge := four_of_take (o := 0) rfl his.2
        unfold Tlv.size
        omega
  small := by
    intro p e k h hk hnot
    cases k with
    | rsn => exact absurd (is_rsn_of_kind h hk) hnot
    | wpa =>
        have hlt := wpa_spill h hk hnot
        unfold Tlv.size
        omega

theorem wapiKinds (m : Mem) : Kinds (wapiKindAt m) m fun _ => IsWapi where
  taken := by
    intro p e k h his
    have hlen := wapi_body his
    unfold wapiKindAt
    rw [if_pos]
    rw [read_body (o := 4) h (by omega)]
    exact ⟨h.head.1.trans his.1, his.2⟩
  shorter := by
    intro p e e' k h hk hnot his
    have hlt := wapi_spill h hk hnot
    have hge := wapi_body his
    unfold Tlv.size
    omega
  small := by
    intro p e k h hk hnot
    have hlt := wapi_spill h hk hnot
    unfold Tlv.size
    omega

/-! ## The two functions -/

/-- `rtw_get_sec_ie` ends and reports the last RSN and the last WPA element, whatever the outputs were. -/
def SecCollected (m : Mem) (es : List Tlv) : Prop :=
  ∀ out₀, ∃ out ret, RtwGetSecIe m (fixedLen + Tlv.total es) out₀ out ret
    ∧ ∀ k, Reports (IsSec k) es (out₀ k) (out k)

/-- `rtw_get_wapi_ie` ends and reports the last WAPI element, or a length of 0. -/
def WapiCollected (m : Mem) (es : List Tlv) : Prop :=
  ∀ out₀, ∃ out ret, RtwGetWapiIe m (fixedLen + Tlv.total es) out₀ out ret
    ∧ Reports IsWapi es { out₀ with len := 0 } out

theorem secCollected_iff {m : Mem} {es : List Tlv} (h : Holds m fixedLen es)
    (hbig : fixedLen + Tlv.total es < 2 ^ 32) :
    SecCollected m es ↔ Reportable (secKindAt m) IsSec fixedLen es := by
  rw [← collect_iff (secKinds m) h rfl hbig (fun _ => True)
    ⟨fun _ => ⟨0, fun _ => 0⟩, trivial, fun _ => rfl⟩]
  constructor
  · intro hall out₀ _
    obtain ⟨out, ret, ⟨hends, -⟩, hrep⟩ := hall out₀
    exact ⟨out, hends, hrep⟩
  · intro hall out₀
    obtain ⟨out, hends, hrep⟩ := hall out₀ trivial
    exact ⟨out, _, ⟨hends, rfl⟩, hrep⟩

theorem wapiCollected_iff {m : Mem} {es : List Tlv} (h : Holds m fixedLen es)
    (hbig : fixedLen + Tlv.total es < 2 ^ 32) :
    WapiCollected m es ↔ Reportable (wapiKindAt m) (fun _ => IsWapi) fixedLen es := by
  rw [← collect_iff (wapiKinds m) h rfl hbig (fun o₀ => ∃ o : SecOut, o₀ = fun _ => { o with len := 0 })
    ⟨fun _ => ⟨0, fun _ => 0⟩, ⟨⟨0, fun _ => 0⟩, rfl⟩, fun _ => rfl⟩]
  have hpos : fixedLen + Tlv.total es ≠ 0 := by
    unfold fixedLen
    omega
  constructor
  · rintro hall - ⟨o, rfl⟩
    obtain ⟨out, ret, ⟨hends, -⟩, hrep⟩ := hall o
    rw [if_neg hpos] at hends
    exact ⟨_, hends, fun _ => hrep⟩
  · intro hall o
    obtain ⟨out, hends, hrep⟩ := hall _ ⟨o, rfl⟩
    refine ⟨out (), _, ⟨?_, rfl⟩, hrep ()⟩
    rw [if_neg hpos]
    exact hends

/-- **Collecting security elements** ends with the right ones exactly when none of a kind has more than
246 bytes and none that only passes for one is the last. -/
theorem security_elements_collected_iff (m : Mem) (es : List Tlv) (h : Holds m fixedLen es)
    (hbig : fixedLen + Tlv.total es < 2 ^ 32) :
    (SecCollected m es ↔ Reportable (secKindAt m) IsSec fixedLen es)
      ∧ (WapiCollected m es ↔ Reportable (wapiKindAt m) (fun _ => IsWapi) fixedLen es) :=
  ⟨secCollected_iff h hbig, wapiCollected_iff h hbig⟩

/-- A memory with elements behind the fixed fields. -/
def behindFixed (es : List Tlv) : Mem := fun k =>
  (List.replicate fixedLen 0 ++ (Tlv.encode es ++ [])).getD k 0

theorem holds_behindFixed (es : List Tlv) : Holds (behindFixed es) fixedLen es := by
  have hread := Mem.read_getD (d := 0) (List.replicate fixedLen 0) (Tlv.encode es) []
  rw [List.length_replicate, Tlv.length_encode] at hread
  exact hread

/-- An RSN element and a WAPI element. -/
def collectedSample : List Tlv :=
  [⟨48, [1, 0, 0x00, 0x0f, 0xac, 4, 1, 0], by decide⟩,
    ⟨68, [1, 0, 1, 0, 0x00, 0x14, 0x72, 0x01], by decide⟩]

theorem security_elements_collected_sample :
    SecCollected (behindFixed collectedSample) collectedSample
      ∧ WapiCollected (behindFixed collectedSample) collectedSample := by
  have h := holds_behindFixed collectedSample
  have hboth := security_elements_collected_iff _ _ h (by decide)
  have h8 : ∀ e ∈ collectedSample, e.body.length = 8 := by
    intro e he
    simp only [collectedSample, List.mem_cons, List.not_mem_nil, or_false] at he
    rcases he with rfl | rfl
    · rfl
    · rfl
  have hin : ∀ {xs e ys}, collectedSample = xs ++ e :: ys → e.body.length = 8 := by
    intro xs e ys hs
    exact h8 e (by rw [hs]; simp)
  refine ⟨hboth.1.mpr ⟨fun e he k _ => by rw [h8 e he]; decide, ?_⟩,
    hboth.2.mpr ⟨fun e he k _ => by rw [h8 e he]; decide, ?_⟩⟩
  · intro xs e ys k hs hk hnot
    cases k with
    | rsn => exact absurd (is_rsn_of_kind (h.split hs).1 hk) hnot
    | wpa =>
        have hlt := wpa_spill (h.split hs).1 hk hnot
        rw [hin hs] at hlt
        omega
  · intro xs e ys k hs hk hnot
    have hlt := wapi_spill (h.split hs).1 hk hnot
    rw [hin hs] at hlt
    omega

/-- An RSN element of 247 bytes, and a WAPI element of as many. -/
def longRsn : Tlv := ⟨48, List.replicate 247 0, by rw [List.length_replicate]; decide⟩

def longWapi : Tlv :=
  ⟨68, [1, 0, 1, 0, 0x00, 0x14, 0x72, 0x01] ++ List.replicate 239 0, by
    rw [List.length_append, List.length_replicate]; decide⟩

/-- The counter goes round for ever. -/
theorem security_elements_hang :
    Holds (behindFixed [longRsn]) fixedLen [longRsn]
      ∧ ¬ SecCollected (behindFixed [longRsn]) [longRsn]
      ∧ Holds (behindFixed [longWapi]) fixedLen [longWapi]
      ∧ ¬ WapiCollected (behindFixed [longWapi]) [longWapi] := by
  have hr := holds_behindFixed [longRsn]
  have hw := holds_behindFixed [longWapi]
  have hrsn : longRsn.body.length = 247 := List.length_replicate
  have hwapi : longWapi.body.length = 247 := by
    unfold longWapi
    rw [List.length_append, List.length_replicate]
    rfl
  refine ⟨hr, fun hc => ?_, hw, fun hc => ?_⟩
  · have hle := ((secCollected_iff hr (by simp [fixedLen, Tlv.size, hrsn])).mp hc).1 longRsn (by simp) .rsn rfl
    omega
  · have hle := ((wapiCollected_iff hw (by simp [fixedLen, Tlv.size, hwapi])).mp hc).1 longWapi (by simp) ()
      ⟨rfl, Or.inl rfl⟩
    omega

end Rtl8812au.Ies

import Rtl8812au.Ies.Suites

/-!
# The parsers recover the suites, but look at one key management suite only

An element that lists its suites comes back from the parsers as it was put together: the group cipher, and
the union of the pairwise ciphers, whatever their number and order. Of the key management suites only the
first is compared with 802.1X.
-/

namespace Rtl8812au.Ies

/-! ## What is encoded -/

/-- The two kinds of element. -/
inductive SuiteKind where
  | wpa
  | rsn
  deriving Repr, DecidableEq

/-- What an element of either kind lists. -/
structure SuiteIe where
  version : UInt8 × UInt8
  group : Bytes4
  pairwise : List Bytes4
  akm : List Bytes4
  rest : List UInt8

/-- A selector as it is written. -/
def selector (s : Bytes4) : List UInt8 := [s.b0, s.b1, s.b2, s.b3]

/-- A count and as many selectors. -/
def counted (l : List Bytes4) : List UInt8 :=
  UInt8.ofNat l.length :: UInt8.ofNat (l.length / 256) :: l.flatMap selector

/-- What stands behind the length byte, up to the version. -/
def SuiteKind.oui : SuiteKind → List UInt8
  | .wpa => [0x00, 0x50, 0xf2, 1]
  | .rsn => []

def SuiteKind.id : SuiteKind → UInt8
  | .wpa => 0xdd
  | .rsn => 0x30

/-- The suite for 802.1X. -/
def SuiteKind.suite1x : SuiteKind → Bytes4
  | .wpa => ⟨0x00, 0x50, 0xf2, 1⟩
  | .rsn => ⟨0x00, 0x0f, 0xac, 1⟩

/-- The cipher a selector stands for: its last byte, behind the OUI of the kind. -/
def SuiteKind.cipher (k : SuiteKind) (s : Bytes4) : Nat :=
  if s.b0 = k.suite1x.b0 ∧ s.b1 = k.suite1x.b1 ∧ s.b2 = k.suite1x.b2 then cipherBit s.b3 else 0

/-- What stands behind the version. -/
def SuiteIe.suites (e : SuiteIe) : List UInt8 :=
  selector e.group ++ (counted e.pairwise ++ (counted e.akm ++ e.rest))

/-- The body of the element. -/
def SuiteIe.body (k : SuiteKind) (e : SuiteIe) : List UInt8 :=
  k.oui ++ (e.version.1 :: e.version.2 :: e.suites)

/-- The whole element. -/
def SuiteIe.bytes (k : SuiteKind) (e : SuiteIe) : List UInt8 :=
  k.id :: UInt8.ofNat (e.body k).length :: e.body k

/-- The parser of a kind. -/
def SuiteKind.parse : SuiteKind → Mem → Nat → Int → Bool → SuiteVars → Bool × SuiteVars
  | .wpa => rtwParseWpaIe
  | .rsn => rtwParseWpa2Ie

/-- Where the group suite is. -/
def SuiteKind.hdr : SuiteKind → Nat
  | .wpa => 8
  | .rsn => 4

/-! ## Reading selectors -/

/-- The function that looks a selector up. -/
def SuiteKind.suiteAt : SuiteKind → Mem → Nat → Nat
  | .wpa => rtwGetWpaCipherSuite
  | .rsn => rtwGetWpa2CipherSuite

variable {m : Mem} {k : SuiteKind} {pos : Nat}

theorem cipherSuite_eq {o0 o1 o2 : UInt8} {s : Bytes4} (h : m.read pos 4 = selector s) :
    cipherSuite [o0, o1, o2] m pos
      = if s.b0 = o0 ∧ s.b1 = o1 ∧ s.b2 = o2 then cipherBit s.b3 else 0 := by
  have h3 : m.read pos 3 = [s.b0, s.b1, s.b2] := by
    have htake := congrArg (List.take 3) h
    rwa [Mem.take_read m (by omega)] at htake
  have hlast : m (pos + 3) = s.b3 := by
    have hget := Mem.getElem?_read m (a := pos) (n := 4) (i := 3) (by omega)
    rw [h] at hget
    exact (Option.some.inj hget).symm
  rw [cipherSuite, h3, hlast]
  simp only [List.cons.injEq, and_true]

theorem suiteAt_eq {s : Bytes4} (h : m.read pos 4 = selector s) : k.suiteAt m pos = k.cipher s := by
  cases k with
  | wpa => exact cipherSuite_eq h
  | rsn => exact cipherSuite_eq h

theorem length_selectors (l : List Bytes4) : (l.flatMap selector).length = l.length * 4 := by
  induction l with
  | nil => rfl
  | cons s l ih =>
      rw [List.flatMap_cons, List.length_append, ih, List.length_cons, Nat.succ_mul, Nat.add_comm]
      rfl

theorem length_counted (l : List Bytes4) : (counted l).length = l.length * 4 + 2 := by
  rw [counted, List.length_cons, List.length_cons, length_selectors]

/-- The loop over selectors that stand one behind the other. -/
theorem orSuites_eq {l : List Bytes4} : ∀ {pos acc : Nat}, m.read pos (l.length * 4) = l.flatMap selector →
    orSuites (k.suiteAt m) l.length pos acc = l.foldl (fun acc s => acc ||| k.cipher s) acc := by
  induction l with
  | nil => intro pos acc _; rfl
  | cons s l ih =>
      intro pos acc h
      have hlen : (s :: l).length * 4 = 4 + l.length * 4 := by rw [List.length_cons, Nat.succ_mul, Nat.add_comm]
      rw [hlen, Mem.read_add, List.flatMap_cons] at h
      obtain ⟨hhead, htail⟩ := List.append_inj h (Mem.length_read m pos 4)
      rw [List.length_cons, orSuites, suiteAt_eq hhead, ih htail, List.foldl_cons]

/-- A count and the selectors behind it. -/
theorem counted_read {l : List Bytes4} (h : m.read pos (counted l).length = counted l)
    (hlen : l.length < 65536) :
    m.le16 pos = l.length ∧ m.read (pos + 2) (l.length * 4) = l.flatMap selector := by
  have hsplit : counted l = [UInt8.ofNat l.length, UInt8.ofNat (l.length / 256)] ++ l.flatMap selector := rfl
  rw [length_counted, Nat.add_comm, Mem.read_add, hsplit] at h
  obtain ⟨hcount, hsel⟩ := List.append_inj h (Mem.length_read m pos 2)
  refine ⟨?_, hsel⟩
  obtain ⟨h0, h1⟩ : m pos = UInt8.ofNat l.length ∧ m (pos + 1) = UInt8.ofNat (l.length / 256) := by
    simpa [Mem.read, List.range_succ] using hcount
  rw [Mem.le16, h0, h1, UInt8.toNat_ofNat', UInt8.toNat_ofNat']
  omega

/-! ## The parsers -/

/-- The selectors of a kind, as the parsers take them. -/
def SuiteKind.parseFrom (k : SuiteKind) (m : Mem) (pos : Nat) (left : Int) (v : SuiteVars) :
    Bool × SuiteVars :=
  parseSuiteVars (k.suiteAt m) (selector k.suite1x) true m pos left v

theorem le_of_read {p n i : Nat} {l : List UInt8} (h : m.read p n = l) (hi : i < n) :
    l[i]? = some (m (p + i)) := by
  rw [← h, Mem.getElem?_read m hi]

/-- Behind a header that fits, the parser is at the group suite. -/
theorem parse_eq {e : SuiteIe} {p : Nat} (h : m.read p (e.bytes k).length = e.bytes k)
    (hlen : (e.bytes k).length ≤ 257) (v : SuiteVars) :
    k.parse m p (e.bytes k).length true v
      = k.parseFrom m (p + k.hdr) ((e.bytes k).length - k.hdr : Int) v := by
  have hbody : (e.bytes k).length = (e.body k).length + 2 := rfl
  have hid : m p = k.id := by
    have hget := le_of_read h (i := 0) (by omega)
    exact (Option.some.inj hget).symm
  have hl : m (p + 1) = UInt8.ofNat (e.body k).length := by
    have hget := le_of_read h (i := 1) (by omega)
    exact (Option.some.inj hget).symm
  have hsub : UInt8.ofInt (((e.bytes k).length : Int) - 2) = UInt8.ofNat (e.body k).length := by
    have hint : ((e.bytes k).length : Int) - 2 = ((e.body k).length : Int) := by omega
    rw [hint]
    refine UInt8.toNat_inj.mp ?_
    rw [UInt8.ofInt, UInt8.toNat_ofNat', UInt8.toNat_ofNat']
    omega
  cases k with
  | wpa =>
      have hsplit : e.bytes .wpa = [SuiteKind.id .wpa, UInt8.ofNat (e.body .wpa).length]
          ++ ([0x00, 0x50, 0xf2, 1] ++ e.version.1 :: e.version.2 :: e.suites) := rfl
      have houi : m.read (p + 2) 4 = [0x00, 0x50, 0xf2, 1] := Mem.read_middle (h.trans hsplit)
      show rtwParseWpaIe m p _ true v = _
      rw [rtwParseWpaIe, if_neg (by omega), hid, hl, hsub, houi, if_neg (by simp [SuiteKind.id])]
      rfl
  | rsn =>
      show rtwParseWpa2Ie m p _ true v = _
      rw [rtwParseWpa2Ie, if_neg (by omega), hid, hl, hsub, if_neg (by simp [SuiteKind.id])]
      rfl

/-- What is left for the selectors. -/
theorem suites_read {e : SuiteIe} {p : Nat} (h : m.read p (e.bytes k).length = e.bytes k) :
    m.read (p + k.hdr) e.suites.length = e.suites ∧ (e.bytes k).length = k.hdr + e.suites.length := by
  have hsplit : ∃ head, head.length = k.hdr ∧ e.bytes k = head ++ (e.suites ++ []) := by
    cases k with
    | wpa => exact ⟨[SuiteKind.id .wpa, UInt8.ofNat (e.body .wpa).length, 0x00, 0x50, 0xf2, 1, e.version.1,
        e.version.2], rfl, by rw [List.append_nil]; rfl⟩
    | rsn => exact ⟨[SuiteKind.id .rsn, UInt8.ofNat (e.body .rsn).length, e.version.1, e.version.2], rfl,
        by rw [List.append_nil]; rfl⟩
  obtain ⟨head, hhead, hbytes⟩ := hsplit
  refine ⟨?_, ?_⟩
  · rw [← hhead]
    exact Mem.read_middle (h.trans hbytes)
  · rw [hbytes, List.length_append, List.append_nil, hhead]

/-- The union of ciphers. -/
def SuiteKind.ciphers (k : SuiteKind) (l : List Bytes4) (acc : Nat) : Nat :=
  l.foldl (fun acc s => acc ||| k.cipher s) acc

/-- **What the parser makes of well-formed selectors.** Only the first key management suite is looked at. -/
theorem parseFrom_eq {e : SuiteIe} {p : Nat} (h : m.read p e.suites.length = e.suites) {s : Bytes4}
    {akm : List Bytes4} (hp : e.pairwise ≠ []) (ha : e.akm = s :: akm) (hlen : e.suites.length ≤ 257)
    (v : SuiteVars) :
    k.parseFrom m p e.suites.length v = (true,
      { groupCipher := k.cipher e.group
        pairwiseCipher := k.ciphers e.pairwise v.pairwiseCipher
        is8021x := if s = k.suite1x then 1 else v.is8021x }) := by
  have hsize : e.suites.length
      = 4 + ((e.pairwise.length * 4 + 2) + ((e.akm.length * 4 + 2) + e.rest.length)) := by
    rw [SuiteIe.suites, List.length_append, List.length_append, List.length_append, length_counted,
      length_counted]
    rfl
  have hakm : e.akm.length = akm.length + 1 := by rw [ha, List.length_cons]
  have hne : e.pairwise.length ≠ 0 := fun h0 => hp (List.length_eq_zero_iff.mp h0)
  -- the four parts, each where it stands
  have hgroup : m.read p 4 = selector e.group := by
    have hnil : e.suites = [] ++ (selector e.group ++ (counted e.pairwise ++ (counted e.akm ++ e.rest))) := rfl
    exact Mem.read_middle (h.trans hnil)
  have hpair : m.read (p + 4) (counted e.pairwise).length = counted e.pairwise := Mem.read_middle h
  have hakms : m.read (p + 4 + (counted e.pairwise).length) (counted e.akm).length = counted e.akm := by
    have hsplit : e.suites = (selector e.group ++ counted e.pairwise) ++ (counted e.akm ++ e.rest) := by
      rw [SuiteIe.suites, List.append_assoc]
    have hmid := Mem.read_middle (h.trans hsplit)
    rwa [List.length_append, ← Nat.add_assoc] at hmid
  obtain ⟨hcount, hsel⟩ := counted_read hpair (by omega)
  have hfirst : m.read (p + 4 + 2 + e.pairwise.length * 4 + 2) 4 = selector s := by
    rw [length_counted, ha, length_counted] at hakms
    have hsplit : counted (s :: akm)
        = [UInt8.ofNat (akm.length + 1), UInt8.ofNat ((akm.length + 1) / 256)]
          ++ (selector s ++ akm.flatMap selector) := rfl
    have hmid := Mem.read_middle (hakms.trans hsplit)
    have hpos : p + 4 + (e.pairwise.length * 4 + 2) + 2 = p + 4 + 2 + e.pairwise.length * 4 + 2 := by omega
    rw [← hpos]
    exact hmid
  rw [SuiteKind.parseFrom, parseSuiteVars, if_pos (by omega), parsePairwiseVars, if_pos (by omega)]
  dsimp only
  rw [hcount, if_neg (by omega), orSuites_eq hsel, suiteAt_eq hgroup, parse8021x,
    if_pos (by simp; omega), hfirst]
  by_cases hs : s = k.suite1x
  · rw [if_pos (by rw [hs]), if_pos hs]
    rfl
  · have hne1x : selector s ≠ selector k.suite1x := fun heq => by
      simp only [selector, List.cons.injEq, and_true] at heq
      exact hs (Bytes4.ext heq.1 heq.2.1 heq.2.2.1 heq.2.2.2)
    rw [if_neg hne1x, if_neg hs]
    rfl

/-- A bit of the union is set before or by some suite. -/
theorem testBit_ciphers {l : List Bytes4} (i : Nat) : ∀ {acc : Nat},
    (k.ciphers l acc).testBit i = (acc.testBit i || l.any fun s => (k.cipher s).testBit i) := by
  induction l with
  | nil => intro acc; exact (Bool.or_false _).symm
  | cons s l ih =>
      intro acc
      have hcons : k.ciphers (s :: l) acc = k.ciphers l (acc ||| k.cipher s) := rfl
      rw [hcons, ih, Nat.testBit_or, List.any_cons, Bool.or_assoc]

/-- A parser fails where the count of the pairwise suites is not right. -/
def FailsOnBadCount (k : SuiteKind) : Prop :=
  ∀ (m : Mem) (p : Nat) (len : Int) (want : Bool) (v : SuiteVars), (k.hdr + 6 : Nat) ≤ len →
    m.le16 (p + k.hdr + 4) = 0 ∨ len - (k.hdr + 6 : Nat) < m.le16 (p + k.hdr + 4) * 4 →
    (k.parse m p len want v).1 = false

theorem parseSuiteVars_fails {suite : Nat → Nat} {suite1x : List UInt8} {want : Bool} {left : Int}
    {v : SuiteVars} (hleft : 6 ≤ left)
    (h : m.le16 (pos + 4) = 0 ∨ left - 6 < m.le16 (pos + 4) * 4) :
    (parseSuiteVars suite suite1x want m pos left v).1 = false := by
  have hcount : m.le16 (pos + 4) = 0 ∨ left - 4 - 2 < m.le16 (pos + 4) * 4 := by omega
  rw [parseSuiteVars, if_pos (by omega), parsePairwiseVars, if_pos (by omega)]
  dsimp only
  rw [if_pos hcount]

theorem failsOnBadCount (k : SuiteKind) : FailsOnBadCount k := by
  intro m p len want v hlen h
  cases k with
  | wpa =>
      have hhdr : SuiteKind.hdr .wpa = 8 := rfl
      rw [hhdr] at hlen h
      show (rtwParseWpaIe m p len want v).1 = false
      unfold rtwParseWpaIe
      split_ifs
      · rfl
      · rfl
      · exact parseSuiteVars_fails (by omega) (by omega)
  | rsn =>
      have hhdr : SuiteKind.hdr .rsn = 4 := rfl
      rw [hhdr] at hlen h
      show (rtwParseWpa2Ie m p len want v).1 = false
      unfold rtwParseWpa2Ie
      split_ifs
      · rfl
      · rfl
      · exact parseSuiteVars_fails (by omega) (by omega)

/-! ## What is recovered -/

/-- The element comes back as it was put together, wherever it stands and whatever the variables held. -/
def Recovered (k : SuiteKind) (e : SuiteIe) : Prop :=
  ∀ (m : Mem) (p : Nat) (v : SuiteVars), m.read p (e.bytes k).length = e.bytes k →
    let r := k.parse m p (e.bytes k).length true v
    r.1 = true ∧ r.2.groupCipher = k.cipher e.group
      ∧ (∀ i, r.2.pairwiseCipher.testBit i
          = (v.pairwiseCipher.testBit i || e.pairwise.any fun s => (k.cipher s).testBit i))
      ∧ r.2.is8021x = if k.suite1x ∈ e.akm then 1 else v.is8021x

/-- **What the parser makes of a well-formed element.** -/
theorem parse_bytes {e : SuiteIe} {p : Nat} {s : Bytes4} {akm : List Bytes4} (hp : e.pairwise ≠ [])
    (ha : e.akm = s :: akm) (hlen : (e.bytes k).length ≤ 257)
    (h : m.read p (e.bytes k).length = e.bytes k) (v : SuiteVars) :
    k.parse m p (e.bytes k).length true v = (true,
      { groupCipher := k.cipher e.group
        pairwiseCipher := k.ciphers e.pairwise v.pairwiseCipher
        is8021x := if s = k.suite1x then 1 else v.is8021x }) := by
  obtain ⟨hsuites, hsize⟩ := suites_read h
  have hleft : ((e.bytes k).length : Int) - k.hdr = e.suites.length := by omega
  rw [parse_eq h hlen, hleft]
  exact parseFrom_eq hsuites hp ha (by omega) v

/-- **The suites are recovered exactly when 802.1X is the first key management suite or none.** The
ciphers always are, and a bad count always fails. -/
theorem suites_recovered_iff (k : SuiteKind) (e : SuiteIe) (hp : e.pairwise ≠ []) (ha : e.akm ≠ [])
    (hlen : (e.bytes k).length ≤ 257) :
    (Recovered k e ∧ FailsOnBadCount k) ↔ (e.akm.head? = some k.suite1x ∨ k.suite1x ∉ e.akm) := by
  obtain ⟨s, akm, hakm⟩ := List.exists_cons_of_ne_nil ha
  have hmem : k.suite1x ∈ e.akm ↔ s = k.suite1x ∨ k.suite1x ∈ akm := by
    rw [hakm, List.mem_cons, eq_comm]
  have hhead : e.akm.head? = some k.suite1x ↔ s = k.suite1x := by
    rw [hakm, List.head?_cons, Option.some.injEq]
  rw [hhead, hmem]
  constructor
  · intro hrec
    -- a memory that holds the element at its start
    have hread : Mem.read (fun i => (e.bytes k).getD i 0) 0 (e.bytes k).length = e.bytes k := by
      have hmid := @Mem.read_getD 0 [] (e.bytes k) []
      rwa [List.nil_append, List.append_nil] at hmid
    obtain ⟨-, -, -, hflag⟩ := hrec.1 _ 0 ⟨0, 0, 0⟩ hread
    rw [parse_bytes hp hakm hlen hread] at hflag
    by_cases hs : s = k.suite1x
    · exact Or.inl hs
    · refine Or.inr fun hin => ?_
      rw [if_pos (hmem.mpr hin), if_neg hs] at hflag
      cases hflag
  · intro hcond
    refine ⟨fun m p v h => ?_, failsOnBadCount k⟩
    rw [parse_bytes hp hakm hlen h]
    refine ⟨rfl, rfl, fun i => testBit_ciphers i, ?_⟩
    rcases hcond with hs | hno
    · rw [if_pos hs, if_pos (hmem.mpr (Or.inl hs))]
    · rw [if_neg fun hs => hno (Or.inl hs), if_neg fun hin => hno (hmem.mp hin)]

/-- CCMP for the group, two pairwise ciphers, and 802.1X behind the pre-shared key. -/
def pskAnd1x : SuiteIe where
  version := (1, 0)
  group := ⟨0x00, 0x0f, 0xac, 4⟩
  pairwise := [⟨0x00, 0x0f, 0xac, 2⟩, ⟨0x00, 0x0f, 0xac, 4⟩]
  akm := [⟨0x00, 0x0f, 0xac, 2⟩, ⟨0x00, 0x0f, 0xac, 1⟩]
  rest := [0, 0]

/-- The same with 802.1X in front. -/
def onexAndPsk : SuiteIe := { pskAnd1x with akm := pskAnd1x.akm.reverse }

theorem suites_recovered_sample : Recovered .rsn onexAndPsk ∧ FailsOnBadCount .rsn :=
  (suites_recovered_iff .rsn onexAndPsk (by decide) (by decide) (by decide)).mpr (Or.inl (by decide))

/-- 802.1X is listed, but not found. -/
theorem listed_8021x_missed : ¬ Recovered .rsn pskAnd1x := by
  intro h
  have hflag := (h (fun i => (pskAnd1x.bytes .rsn).getD i 0) 0 ⟨0, 0, 0⟩ (by decide)).2.2.2
  revert hflag
  decide

/-! ## The callers without the flag -/

/-- The loop, with the suites counted from the front. -/
theorem orSuites_range (suite : Nat → Nat) : ∀ (count pos acc : Nat), orSuites suite count pos acc
    = (List.range count).foldl (fun acc i => acc ||| suite (pos + 4 * i)) acc := by
  intro count
  induction count with
  | zero => intro pos acc; rfl
  | succ count ih =>
      intro pos acc
      have hshift : ∀ i, pos + 4 + 4 * i = pos + 4 * (i + 1) := fun i => by omega
      rw [orSuites, ih, List.range_succ_eq_map, List.foldl_cons, List.foldl_map]
      simp only [hshift, Nat.mul_zero, Nat.add_zero, Nat.succ_eq_add_one]

/-- What a caller with cleared variables and no flag gets to see. -/
def seen (r : Bool × SuiteVars) : Option (Nat × Nat) :=
  if r.1 then some (r.2.groupCipher, r.2.pairwiseCipher) else none

theorem parsePairwiseVars_seen (suite : Nat → Nat) (suite1x : List UInt8) (left : Int) (g : Nat) :
    seen (parsePairwiseVars suite suite1x false m pos left ⟨g, 0, 0⟩)
      = (parsePairwise suite m pos left).map fun p => (g, p) := by
  unfold parsePairwiseVars parsePairwise
  dsimp only
  split_ifs
  · rfl
  · rw [orSuites_range]
    rfl
  · rfl
  · rfl

theorem parseSuiteVars_seen (suite : Nat → Nat) (suite1x : List UInt8) (left : Int) :
    seen (parseSuiteVars suite suite1x false m pos left ⟨0, 0, 0⟩) = parseSuites suite m pos left := by
  unfold parseSuiteVars parseSuites
  split_ifs
  · exact parsePairwiseVars_seen suite suite1x _ _
  · rfl
  · exact parsePairwiseVars_seen suite suite1x _ _

/-- **The parsers as association and beacon set-up use them** are these parsers, called without the
flag. -/
theorem parse_without_flag (m : Mem) (p : Nat) (len : Int) :
    seen (rtwParseWpaIe m p len false ⟨0, 0, 0⟩) = Rtl8812au.rtwParseWpaIe m p len
      ∧ seen (rtwParseWpa2Ie m p len false ⟨0, 0, 0⟩) = Rtl8812au.rtwParseWpa2Ie m p len := by
  constructor
  · unfold rtwParseWpaIe Rtl8812au.rtwParseWpaIe
    split_ifs
    · rfl
    · rfl
    · exact parseSuiteVars_seen _ _ _
  · unfold rtwParseWpa2Ie Rtl8812au.rtwParseWpa2Ie
    split_ifs
    · rfl
    · rfl
    · exact parseSuiteVars_seen _ _ _

end Rtl8812au.Ies

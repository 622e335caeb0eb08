import Rtl8812au.Bridge.Rewrite

/-!
# Scans of options and tags

A scan of neighbour discovery options ends inside the frame unless it comes, over whole options that
are not the wanted one, to an option of length zero or to a single byte. A scan of PPPoE tags always
ends, but the tag it returns need not be whole.
-/

namespace Rtl8812au.Nat25

/-! ## Options -/

/-- `bs` starts with whole options, `k` bytes of them and none the wanted one, and goes on with `r`. -/
inductive Skips (tag : UInt8) : List UInt8 → Nat → List UInt8 → Prop where
  | start (bs : List UInt8) : Skips tag bs 0 bs
  | option {t l : UInt8} {body rest r : List UInt8} {k : Nat} (hl : l ≠ 0)
      (hbody : body.length + 2 = l.toNat * 8) (hother : ¬ (t = tag ∧ l = 1)) (h : Skips tag rest k r) :
      Skips tag (t :: l :: (body ++ rest)) (l.toNat * 8 + k) r

/-- The options come to a single byte or to an option of length zero. -/
def BrokenOptions (tag : UInt8) (bs : List UInt8) : Prop :=
  ∃ k r, Skips tag bs k r ∧ ((∃ t, r = [t]) ∨ ∃ t r', r = t :: 0 :: r')

/-- The wanted option is the one that starts at `k`. -/
def LinkOption (tag : UInt8) (bs : List UInt8) (k : Nat) : Prop :=
  ∃ body rest, Skips tag bs k (tag :: 1 :: (body ++ rest)) ∧ body.length = 6

theorem Skips.length {tag : UInt8} {bs r : List UInt8} {k : Nat} (h : Skips tag bs k r) :
    k + r.length = bs.length := by
  induction h with
  | start bs => exact Nat.zero_add _
  | option hl hbody hother h ih =>
      simp only [List.length_cons, List.length_append]
      omega

/-- The wanted option is inside. -/
theorem LinkOption.le {tag : UInt8} {bs : List UInt8} {k : Nat} (h : LinkOption tag bs k) :
    k + 8 ≤ bs.length := by
  obtain ⟨body, rest, hskips, hbody⟩ := h
  have hlen := hskips.length
  simp only [List.length_cons, List.length_append] at hlen
  omega

section

variable {tag t l : UInt8} {body rest : List UInt8} (hl : l ≠ 0) (hbody : body.length + 2 = l.toNat * 8)
  (hother : ¬ (t = tag ∧ l = 1))

include hl hbody hother

theorem BrokenOptions.option (h : BrokenOptions tag rest) : BrokenOptions tag (t :: l :: (body ++ rest)) := by
  obtain ⟨k, r, hskips, hend⟩ := h
  exact ⟨l.toNat * 8 + k, r, .option hl hbody hother hskips, hend⟩

theorem LinkOption.option {k : Nat} (h : LinkOption tag rest k) :
    LinkOption tag (t :: l :: (body ++ rest)) (l.toNat * 8 + k) := by
  obtain ⟨value, behind, hskips, hvalue⟩ := h
  exact ⟨value, behind, .option hl hbody hother hskips, hvalue⟩

end

section

variable {m : Mem} {stop pos n : Nat} {tag : UInt8}

theorem byteAt_of_lt {k : Nat} (h : k < stop) : byteAt m stop k = .done (m k) := if_pos h

theorem byteAt_of_ge {k : Nat} (h : stop ≤ k) : byteAt m stop k = .overrun := if_neg (Nat.not_lt.mpr h)

/-- The head of a range is the byte at its start. -/
theorem read_cons {x : UInt8} {bs : List UInt8} (h : m.read pos n = x :: bs) :
    0 < n ∧ m pos = x ∧ m.read (pos + 1) (n - 1) = bs := by
  cases n with
  | zero => cases h
  | succ n =>
      rw [Nat.add_comm n 1, Mem.read_add] at h
      obtain ⟨hx, hbs⟩ := List.cons.inj h
      refine ⟨Nat.succ_pos n, hx, ?_⟩
      rw [Nat.add_sub_cancel]
      exact hbs

theorem scanTurn_nil (h : m.read pos n = []) : scanTlvTurn m stop tag 1 ⟨pos, n⟩ = .done (.stop none) := by
  have hn : n = 0 := by
    have hlen := congrArg List.length h
    rwa [Mem.length_read] at hlen
  subst hn
  rfl

theorem scanTurn_single {t : UInt8} (h : m.read pos n = [t]) (hstop : pos + n = stop) :
    scanTlvTurn m stop tag 1 ⟨pos, n⟩ = .overrun := by
  have hn : n = 1 := by
    have hlen := congrArg List.length h
    rwa [Mem.length_read] at hlen
  subst hn
  have hfirst : byteAt m stop pos = .done (m pos) := byteAt_of_lt (by omega)
  have hsecond : byteAt m stop (pos + 1) = .overrun := byteAt_of_ge (by omega)
  simp [scanTlvTurn, hfirst, hsecond]

/-- A turn at two bytes or more. -/
theorem scanTurn_pair {t l : UInt8} {bs : List UInt8} (h : m.read pos n = t :: l :: bs)
    (hstop : pos + n = stop) :
    scanTlvTurn m stop tag 1 ⟨pos, n⟩
      = if t = tag ∧ l = 1 ∧ 8 ≤ n then .done (.stop (some (pos + 2)))
        else .done (.next ⟨pos + l.toNat * 8, (n : Int) - l.toNat * 8⟩) := by
  obtain ⟨hn, ht, hrest⟩ := read_cons h
  obtain ⟨hn', hl, -⟩ := read_cons hrest
  have hfirst : byteAt m stop pos = .done t := by
    rw [← ht]
    exact byteAt_of_lt (by omega)
  have hsecond : byteAt m stop (pos + 1) = .done l := by
    rw [← hl]
    exact byteAt_of_lt (by omega)
  have hlen : ((1 : UInt8).toNat * 8 : Int) ≤ (n : Int) ↔ 8 ≤ n := by
    show (8 : Int) ≤ n ↔ _
    omega
  have hpos : (0 : Int) < n := by omega
  simp only [scanTlvTurn, hpos, if_true, hfirst, hsecond, Outcome.done_bind, hlen]
  rfl

/-- A turn over a whole option that is not the wanted one. -/
theorem scanTurn_option {t l : UInt8} {body rest : List UInt8}
    (h : m.read pos n = t :: l :: (body ++ rest)) (hstop : pos + n = stop)
    (hbody : body.length + 2 = l.toNat * 8) (hother : ¬ (t = tag ∧ l = 1)) :
    scanTlvTurn m stop tag 1 ⟨pos, n⟩ = .done (.next ⟨pos + l.toNat * 8, (rest.length : Nat)⟩)
      ∧ m.read (pos + l.toNat * 8) rest.length = rest ∧ pos + l.toNat * 8 + rest.length = stop := by
  have hn : n = l.toNat * 8 + rest.length := by
    have hlen := congrArg List.length h
    simp only [Mem.length_read, List.length_cons, List.length_append] at hlen
    omega
  subst hn
  have hread : m.read pos (l.toNat * 8) = t :: l :: body
      ∧ m.read (pos + l.toNat * 8) rest.length = rest := by
    rw [Mem.read_add] at h
    refine List.append_inj (h.trans rfl) ?_
    rw [Mem.length_read, List.length_cons, List.length_cons, ← hbody]
  refine ⟨?_, hread.2, by omega⟩
  have hnot : ¬ (t = tag ∧ l = 1 ∧ 8 ≤ l.toNat * 8 + rest.length) := fun hc => hother ⟨hc.1, hc.2.1⟩
  rw [scanTurn_pair h hstop, if_neg hnot]
  have hlen : ((l.toNat * 8 + rest.length : Nat) : Int) - l.toNat * 8 = (rest.length : Nat) := by omega
  rw [hlen]

/-- **Broken options.** The scan leaves the frame or never ends. -/
theorem not_ends_of_broken (hbroken : BrokenOptions tag (m.read pos n)) (hstop : pos + n = stop)
    (r : Option Nat) : ¬ Loop.Ends (scanTlvTurn m stop tag 1) ⟨pos, n⟩ r := by
  obtain ⟨k, rest, hskips, hend⟩ := hbroken
  generalize hbs : m.read pos n = bs at hskips
  induction hskips generalizing pos n with
  | start bs =>
      subst hbs
      rcases hend with ⟨t, ht⟩ | ⟨t, r', ht⟩
      · exact Loop.not_ends_overrun (scanTurn_single ht hstop)
      · -- an option of length zero leaves the scan where it is
        refine Loop.not_ends_of_closed (fun s => s = ⟨pos, n⟩) ?_ rfl
        rintro s rfl
        refine ⟨⟨pos, n⟩, ?_, rfl⟩
        rw [scanTurn_pair ht hstop, if_neg fun hc => absurd hc.2.1 (by decide)]
        simp
  | option hl hbody hother h ih =>
      obtain ⟨hturn, hread, hstop'⟩ := scanTurn_option hbs hstop hbody hother
      intro he
      exact ih hstop' hend hread ((Loop.ends_next hturn).mp he)

/-- **The wanted option is found.** -/
theorem ends_of_linkOption {k : Nat} (hoption : LinkOption tag (m.read pos n) k) (hstop : pos + n = stop) :
    Loop.Ends (scanTlvTurn m stop tag 1) ⟨pos, n⟩ (some (pos + k + 2)) := by
  obtain ⟨value, rest, hskips, hvalue⟩ := hoption
  generalize hbs : m.read pos n = bs at hskips
  generalize hend : tag :: 1 :: (value ++ rest) = r at hskips
  induction hskips generalizing pos n with
  | start bs =>
      subst hbs
      have hlen := congrArg List.length hend
      simp only [Mem.length_read, List.length_cons, List.length_append] at hlen
      have hturn : scanTlvTurn m stop tag 1 ⟨pos, n⟩ = _ := scanTurn_pair hend.symm hstop
      rw [if_pos ⟨rfl, rfl, by omega⟩] at hturn
      exact (Loop.ends_stop hturn).mpr rfl
  | option hl hbody hother h ih =>
      obtain ⟨hturn, hread, hstop'⟩ := scanTurn_option hbs hstop hbody hother
      rw [Loop.ends_next hturn, ← Nat.add_assoc pos]
      exact ih hstop' hread hend

/-- **Options that are not broken.** The scan ends with the wanted option or with none. -/
theorem ends_of_not_broken (hsound : ¬ BrokenOptions tag (m.read pos n)) (hstop : pos + n = stop) :
    ∃ r, Loop.Ends (scanTlvTurn m stop tag 1) ⟨pos, n⟩ r
      ∧ ∀ q, r = some q → ∃ k, LinkOption tag (m.read pos n) k ∧ q = pos + k + 2 := by
  induction n using Nat.strongRecOn generalizing pos with
  | ind n ih =>
      rcases hbs : m.read pos n with _ | ⟨t, _ | ⟨l, bs⟩⟩
      -- no byte left: the scan ends with nothing
      · exact ⟨none, (Loop.ends_stop (scanTurn_nil hbs)).mpr rfl, fun q hq => by cases hq⟩
      -- a type without its length is a broken list
      · exact absurd ⟨0, [t], by rw [hbs]; exact .start _, Or.inl ⟨t, rfl⟩⟩ hsound
      · have hlen := congrArg List.length hbs
        simp only [Mem.length_read, List.length_cons] at hlen
        have hturn : scanTlvTurn m stop tag 1 ⟨pos, n⟩ = _ := scanTurn_pair hbs hstop
        -- the option that is looked for, and all of it
        by_cases hwanted : t = tag ∧ l = 1 ∧ 8 ≤ n
        · rw [if_pos hwanted] at hturn
          refine ⟨some (pos + 2), (Loop.ends_stop hturn).mpr rfl, ?_⟩
          rintro q ⟨rfl⟩
          refine ⟨0, ⟨bs.take 6, bs.drop 6, ?_, ?_⟩, rfl⟩
          · rw [List.take_append_drop, hwanted.1, hwanted.2.1]
            exact .start _
          · rw [List.length_take]
            omega
        rw [if_neg hwanted] at hturn
        -- a length of 0 is broken too; any other one moves on
        by_cases hl : l = 0
        · exact absurd ⟨0, _, by rw [hbs]; exact .start _, Or.inr ⟨t, bs, by rw [hl]⟩⟩ hsound
        have hlpos : 0 < l.toNat := Nat.pos_of_ne_zero fun h => hl (UInt8.toNat_inj.mp h)
        by_cases hwhole : l.toNat * 8 ≤ n
        -- the rest of the list is not broken either, so that the scan goes on behind this option
        · have hbody : (bs.take (l.toNat * 8 - 2)).length + 2 = l.toNat * 8 := by
            rw [List.length_take]
            omega
          have hother : ¬ (t = tag ∧ l = 1) := by
            rintro ⟨ht, rfl⟩
            exact hwanted ⟨ht, rfl, hwhole⟩
          have hsplit : t :: l :: bs
              = t :: l :: (bs.take (l.toNat * 8 - 2) ++ bs.drop (l.toNat * 8 - 2)) := by
            rw [List.take_append_drop]
          obtain ⟨hnext, hread, hstop'⟩ := scanTurn_option (hbs.trans hsplit) hstop hbody hother
          rw [hbs, hsplit] at hsound
          have hsound' : ¬ BrokenOptions tag (m.read (pos + l.toNat * 8)
              (bs.drop (l.toNat * 8 - 2)).length) := by
            rw [hread]
            exact fun h => hsound (h.option hl hbody hother)
          obtain ⟨r, hends, hfound⟩ := ih _ (by rw [List.length_drop]; omega) hsound' hstop'
          refine ⟨r, (Loop.ends_next hnext).mpr hends, fun q hq => ?_⟩
          obtain ⟨k, hoption, hk⟩ := hfound q hq
          rw [hread] at hoption
          rw [hsplit]
          exact ⟨l.toNat * 8 + k, hoption.option hl hbody hother, by omega⟩
        · -- the option says it is longer than what is left, and that ends the scan
          have hneg : ¬ (0 : Int) < (n : Int) - l.toNat * 8 := by omega
          have hstopped : scanTlvTurn m stop tag 1 ⟨pos + l.toNat * 8, (n : Int) - l.toNat * 8⟩
              = .done (.stop none) := if_neg hneg
          refine ⟨none, ?_, fun q hq => by cases hq⟩
          rw [Loop.ends_next hturn, Loop.ends_stop hstopped]

end

/-! ## Neighbour discovery -/

/-- `update_nd_link_layer_addr` ends for the frame, and all its accesses are inside. -/
def NdSafe (myHwaddr : MacAddr) (skb : Skb) : Prop :=
  ∃ fuel r, updateNdLinkLayerAddr fuel skb.data skb.len 54 (skb.len - 54) myHwaddr = some (.done r)

/-- The options of the frame, if it is a message that has some and is long enough, are not broken. -/
def NdSound (skb : Skb) : Prop :=
  ∀ fixed tag, ndOptions (skb.data 54) = some (fixed, tag) → fixed ≤ skb.len - 54 →
    ¬ BrokenOptions tag (skb.data.read (54 + fixed) (skb.len - 54 - fixed))

section

variable {m : Mem} {stop data len fixed : Nat} {tag : UInt8} (mac : MacAddr)

theorem update_none (hdata : data < stop) (hnd : ndOptions (m data) = some (fixed, tag))
    (hfixed : fixed ≤ len)
    (h : Loop.Ends (scanTlvTurn m stop tag 1) ⟨data + fixed, (len - fixed : Nat)⟩ none) :
    ∃ fuel, updateNdLinkLayerAddr fuel m stop data len mac = some (.done (0, m)) := by
  obtain ⟨fuel, hrun⟩ := h
  have hscan : scanTlv fuel m stop (data + fixed) (len - fixed) tag 1 = some (.done none) := hrun
  exact ⟨fuel, by simp [updateNdLinkLayerAddr, byteAt_of_lt hdata, hnd, hfixed, hscan]⟩

/-- Where the scan finds the option the rest is a copy of six bytes. -/
theorem update_some (hdata : data < stop) (hnd : ndOptions (m data) = some (fixed, tag))
    (hfixed : fixed ≤ len) {q : Nat} (hq : q + 6 ≤ stop)
    (h : Loop.Ends (scanTlvTurn m stop tag 1) ⟨data + fixed, (len - fixed : Nat)⟩ (some q)) :
    ∃ fuel, updateNdLinkLayerAddr fuel m stop data len mac = some (.done (1, m.write q mac.bytes)) := by
  obtain ⟨fuel, hrun⟩ := h
  have hscan : scanTlv fuel m stop (data + fixed) (len - fixed) tag 1 = some (.done (some q)) := hrun
  exact ⟨fuel, by simp [updateNdLinkLayerAddr, byteAt_of_lt hdata, hnd, hfixed, hscan, hq]⟩

/-- What does not end or leaves the frame in the scan does so in the whole. -/
theorem ends_of_update (hdata : data < stop) (hnd : ndOptions (m data) = some (fixed, tag))
    (hfixed : fixed ≤ len) {fuel : Nat} {r : Nat × Mem}
    (h : updateNdLinkLayerAddr fuel m stop data len mac = some (.done r)) :
    ∃ q, Loop.Ends (scanTlvTurn m stop tag 1) ⟨data + fixed, (len - fixed : Nat)⟩ q := by
  simp only [updateNdLinkLayerAddr, byteAt_of_lt hdata, hnd, if_pos hfixed] at h
  obtain ⟨o, ho, hrest⟩ := Option.map_eq_some_iff.mp h
  obtain ⟨q, rfl, -⟩ := Outcome.bind_eq_done.mp hrest
  exact ⟨q, fuel, ho⟩

end

/-- **A neighbour discovery message is handled safely exactly when its options are not broken.** -/
theorem ndSafe_iff {skb : Skb} (hlen : 54 < skb.len) (myHwaddr : MacAddr) :
    NdSafe myHwaddr skb ↔ NdSound skb := by
  constructor
  · rintro ⟨fuel, r, h⟩ fixed tag hnd hfixed hbroken
    obtain ⟨q, hends⟩ := ends_of_update myHwaddr hlen hnd hfixed h
    exact not_ends_of_broken hbroken (by omega) q hends
  · intro hsound
    cases hnd : ndOptions (skb.data 54) with
    | none => exact ⟨0, (0, skb.data), by simp [updateNdLinkLayerAddr, byteAt_of_lt hlen, hnd]⟩
    | some p =>
        by_cases hfixed : p.1 ≤ skb.len - 54
        · obtain ⟨r, hends, hfound⟩ := ends_of_not_broken (hsound p.1 p.2 hnd hfixed)
            (show 54 + p.1 + (skb.len - 54 - p.1) = skb.len by omega)
          cases r with
          | none =>
              obtain ⟨fuel, hupdate⟩ := update_none myHwaddr hlen hnd hfixed hends
              exact ⟨fuel, _, hupdate⟩
          | some q =>
              obtain ⟨k, hoption, hk⟩ := hfound q rfl
              have hinside := hoption.le
              rw [Mem.length_read] at hinside
              obtain ⟨fuel, hupdate⟩ := update_some myHwaddr hlen hnd hfixed (by omega) hends
              exact ⟨fuel, _, hupdate⟩
        · exact ⟨0, (0, skb.data), by simp [updateNdLinkLayerAddr, byteAt_of_lt hlen, hnd, hfixed]⟩

/-! ## PPPoE tags -/

/-- A tag of the discovery phase. -/
@[ext] structure PppoeTag where
  tagType : Nat
  tagData : List UInt8
  type_lt : tagType < 2 ^ 16
  short : tagData.length < 2 ^ 16

namespace PppoeTag

/-- The tag as it is sent. -/
def bytes (t : PppoeTag) : List UInt8 := netBytes t.tagType ++ (netBytes t.tagData.length ++ t.tagData)

def size (t : PppoeTag) : Nat := tagHdrLen + t.tagData.length

def encode (ts : List PppoeTag) : List UInt8 := ts.flatMap bytes

def total (ts : List PppoeTag) : Nat := (ts.map size).sum

@[simp] theorem length_netBytes (n : Nat) : (netBytes n).length = 2 := rfl

@[simp] theorem length_bytes (t : PppoeTag) : t.bytes.length = t.size := by
  unfold bytes size
  rw [List.length_append, List.length_append, length_netBytes, length_netBytes]
  exact (Nat.add_assoc 2 2 _).symm

@[simp] theorem encode_nil : encode [] = [] := rfl

@[simp] theorem encode_cons (t : PppoeTag) (ts : List PppoeTag) : encode (t :: ts) = t.bytes ++ encode ts :=
  List.flatMap_cons

@[simp] theorem encode_append (xs ys : List PppoeTag) : encode (xs ++ ys) = encode xs ++ encode ys :=
  List.flatMap_append

@[simp] theorem total_nil : total [] = 0 := rfl

@[simp] theorem total_cons (t : PppoeTag) (ts : List PppoeTag) : total (t :: ts) = t.size + total ts := rfl

@[simp] theorem total_append (xs ys : List PppoeTag) : total (xs ++ ys) = total xs + total ys := by
  unfold total
  rw [List.map_append, List.sum_append]

end PppoeTag

section

variable {m : Mem} {a n : Nat}

/-- What `htons` wrote is read back by `ntohs`. -/
theorem be16_netBytes (h : m.read a 2 = netBytes n) (hn : n < 2 ^ 16) : m.be16 a = n := by
  have hpair : [m a, m (a + 1)] = netBytes n := h
  have hhigh := (List.cons.inj hpair).1
  have hlow := (List.cons.inj (List.cons.inj hpair).2).1
  unfold Mem.be16
  rw [hhigh, hlow, UInt8.toNat_ofNat', UInt8.toNat_ofNat']
  omega

/-- The other way around. -/
theorem netBytes_be16 (m : Mem) (a : Nat) : netBytes (m.be16 a) = m.read a 2 := by
  have hlow := (m (a + 1)).toNat_lt
  have hdiv : m.be16 a / 256 = (m a).toNat := by
    unfold Mem.be16
    omega
  have hmod : m.be16 a % 256 = (m (a + 1)).toNat := by
    unfold Mem.be16
    omega
  have hbyte : UInt8.ofNat (m.be16 a) = m (a + 1) := by
    rw [← UInt8.toNat_inj, UInt8.toNat_ofNat', hmod]
  unfold netBytes
  rw [hdiv, hbyte, UInt8.ofNat_toNat]
  rfl

theorem be16_lt (m : Mem) (a : Nat) : m.be16 a < 2 ^ 16 := by
  have hhigh := (m a).toNat_lt
  have hlow := (m (a + 1)).toNat_lt
  unfold Mem.be16
  omega

/-- The fields of a tag that stands somewhere. -/
theorem tag_fields {t : PppoeTag} {rest : List UInt8} (h : m.read a n = t.bytes ++ rest) :
    m.be16 a = t.tagType ∧ m.be16 (a + 2) = t.tagData.length := by
  unfold PppoeTag.bytes at h
  constructor
  · have hassoc : m.read a n
        = [] ++ (netBytes t.tagType ++ (netBytes t.tagData.length ++ t.tagData ++ rest)) := by
      rw [h]
      simp
    exact be16_netBytes (Mem.read_middle hassoc) t.type_lt
  · have hassoc : m.read a n
        = netBytes t.tagType ++ (netBytes t.tagData.length ++ (t.tagData ++ rest)) := by
      rw [h]
      simp
    exact be16_netBytes (Mem.read_middle hassoc) t.short

/-- The tag that the bytes from `a` on are. -/
def tagAt (m : Mem) (a : Nat) : PppoeTag where
  tagType := m.be16 a
  tagData := m.read (a + tagHdrLen) (m.be16 (a + 2))
  type_lt := be16_lt m a
  short := (Mem.length_read m _ _).symm ▸ be16_lt m (a + 2)

theorem tagAt_size (m : Mem) (a : Nat) : (tagAt m a).size = tagHdrLen + m.be16 (a + 2) := by
  show tagHdrLen + (m.read _ _).length = _
  rw [Mem.length_read]

theorem read_tagAt (m : Mem) (a : Nat) : m.read a (tagAt m a).size = (tagAt m a).bytes := by
  have hlen : (tagAt m a).tagData.length = m.be16 (a + 2) := Mem.length_read m _ _
  have hbytes : (tagAt m a).bytes
      = m.read a 2 ++ (m.read (a + 2) 2 ++ m.read (a + tagHdrLen) (m.be16 (a + 2))) := by
    unfold PppoeTag.bytes
    rw [hlen, netBytes_be16]
    show netBytes (m.be16 a) ++ _ = _
    rw [netBytes_be16]
    rfl
  rw [hbytes, tagAt_size, Mem.read_add, Mem.read_add m a 2 2, List.append_assoc]

/-- `pre` stands from `a` on. -/
def Stand (m : Mem) (a : Nat) (pre : List PppoeTag) : Prop :=
  m.read a (PppoeTag.total pre) = PppoeTag.encode pre

theorem stand_cons {t : PppoeTag} {ts : List PppoeTag} :
    Stand m a (t :: ts) ↔ m.read a t.size = t.bytes ∧ Stand m (a + t.size) ts := by
  unfold Stand
  rw [PppoeTag.total_cons, PppoeTag.encode_cons, Mem.read_add]
  constructor
  · intro h
    exact List.append_inj h (by rw [Mem.length_read, PppoeTag.length_bytes])
  · rintro ⟨hhead, htail⟩
    rw [hhead, htail]

theorem Stand.concat {ts : List PppoeTag} (h : Stand m a ts) :
    Stand m a (ts ++ [tagAt m (a + PppoeTag.total ts)]) := by
  unfold Stand at *
  rw [PppoeTag.total_append, PppoeTag.encode_append, Mem.read_add, h, PppoeTag.total_cons, PppoeTag.total_nil,
    Nat.add_zero, read_tagAt, PppoeTag.encode_cons, PppoeTag.encode_nil, List.append_nil]

end

section

variable {m : Mem} {type : Nat}

/-- The tags `pre` are all of other types, and the header behind them has the type and begins inside the
payload of the PPPoE header. -/
def FirstTag (m : Mem) (type : Nat) (pre : List PppoeTag) : Prop :=
  (∀ t ∈ pre, t.tagType ≠ type) ∧ Stand m phTag pre ∧ PppoeTag.total pre < m.be16 phLength
    ∧ m.be16 (phTag + PppoeTag.total pre) = type

/-- A turn over a tag of another type. -/
theorem findTurn_other {cur : Nat} {t : PppoeTag} (hin : cur - phTag < m.be16 phLength)
    (ht : m.read cur t.size = t.bytes) (hother : t.tagType ≠ type) :
    findPppoeTagTurn m type cur = .done (.next (cur + t.size)) := by
  obtain ⟨htype, hlen⟩ := tag_fields (ht.trans (List.append_nil _).symm)
  rw [findPppoeTagTurn, if_pos hin, htype, if_neg hother, hlen, Nat.add_assoc]
  rfl

/-- **The first tag of its type is returned.** -/
theorem finds_first {pre : List PppoeTag} (h : FirstTag m type pre) :
    FindsPppoeTag m type (some (phTag + PppoeTag.total pre)) := by
  obtain ⟨hothers, hstand, hin, htype⟩ := h
  suffices hall : ∀ d, d + PppoeTag.total pre < m.be16 phLength → Stand m (phTag + d) pre →
      m.be16 (phTag + d + PppoeTag.total pre) = type →
      Loop.Ends (findPppoeTagTurn m type) (phTag + d) (some (phTag + d + PppoeTag.total pre)) from
    hall 0 (by omega) hstand htype
  clear hstand hin htype
  induction pre with
  | nil =>
      intro d hin _ htype
      have hin : d < m.be16 phLength := hin
      have hturn : findPppoeTagTurn m type (phTag + d) = .done (.stop (some (phTag + d))) := by
        rw [findPppoeTagTurn, Nat.add_sub_cancel_left, if_pos hin]
        exact if_pos htype
      exact (Loop.ends_stop hturn).mpr rfl
  | cons t pre ih =>
      intro d hin hstand htype
      obtain ⟨ht, hrest⟩ := stand_cons.mp hstand
      rw [PppoeTag.total_cons] at hin htype ⊢
      have hturn := findTurn_other (show phTag + d - phTag < m.be16 phLength by omega) ht
        (hothers t List.mem_cons_self)
      rw [Loop.ends_next hturn, ← Nat.add_assoc (phTag + d), Nat.add_assoc phTag]
      rw [Nat.add_assoc phTag] at hrest
      rw [← Nat.add_assoc (phTag + d), Nat.add_assoc phTag] at htype
      exact ih (fun x hx => hothers x (List.mem_cons_of_mem t hx)) (d + t.size) (by omega) hrest htype

/-- **The scan ends**, and what it returns is the first tag of its type. -/
theorem finds_some_or_none (m : Mem) (type : Nat) :
    ∃ r, FindsPppoeTag m type r
      ∧ ∀ cur, r = some cur → ∃ pre, FirstTag m type pre ∧ cur = phTag + PppoeTag.total pre := by
  -- what is left of the payload gets less with every header
  refine Loop.ends_of_measure
    (fun cur => ∃ pre : List PppoeTag, (∀ t ∈ pre, t.tagType ≠ type) ∧ Stand m phTag pre
      ∧ cur = phTag + PppoeTag.total pre)
    (fun cur => phTag + m.be16 phLength - cur) ?_ ⟨[], fun t ht => absurd ht List.not_mem_nil, rfl, rfl⟩
  rintro cur ⟨pre, hothers, hstand, rfl⟩
  by_cases hin : PppoeTag.total pre < m.be16 phLength
  · by_cases htype : m.be16 (phTag + PppoeTag.total pre) = type
    · refine Or.inl ⟨some (phTag + PppoeTag.total pre), ?_, ?_⟩
      · rw [findPppoeTagTurn, Nat.add_sub_cancel_left, if_pos hin, if_pos htype]
      · rintro cur ⟨rfl⟩
        exact ⟨pre, ⟨hothers, hstand, hin, htype⟩, rfl⟩
    · refine Or.inr ⟨_, findTurn_other (by rwa [Nat.add_sub_cancel_left]) (read_tagAt m _) htype, ?_, ?_⟩
      · refine ⟨pre ++ [tagAt m (phTag + PppoeTag.total pre)], ?_, hstand.concat, ?_⟩
        · intro t ht
          rcases List.mem_append.mp ht with h | h
          · exact hothers t h
          · rw [List.mem_singleton.mp h]
            exact htype
        · rw [PppoeTag.total_append, PppoeTag.total_cons, PppoeTag.total_nil, Nat.add_zero, Nat.add_assoc]
      · have hhdr : tagHdrLen = 4 := rfl
        rw [tagAt_size]
        omega
  · refine Or.inl ⟨none, ?_, fun cur hcur => by cases hcur⟩
    rw [findPppoeTagTurn, Nat.add_sub_cancel_left, if_neg hin]

end

/-- The tag at `cur` lies wholly in the payload and in the frame. -/
def TagInside (skb : Skb) (cur : Nat) : Prop :=
  cur + tagHdrLen + skb.data.be16 (cur + 2) ≤ phTag + skb.data.be16 phLength
    ∧ cur + tagHdrLen + skb.data.be16 (cur + 2) ≤ skb.len

/-- `__nat25_find_pppoe_tag` ends, and only with a tag that is inside. -/
def PppoeSafe (skb : Skb) (type : Nat) : Prop :=
  ∃ r, FindsPppoeTag skb.data type r ∧ ∀ cur, r = some cur → TagInside skb cur

/-- The first tag of the type, if its header begins in the payload, is not cut off. -/
def TagSound (skb : Skb) (type : Nat) : Prop :=
  ∀ pre, FirstTag skb.data type pre → TagInside skb (phTag + PppoeTag.total pre)

/-- **A PPPoE tag is looked up safely exactly when it is not cut off.** -/
theorem pppoeSafe_iff (skb : Skb) (type : Nat) : PppoeSafe skb type ↔ TagSound skb type := by
  constructor
  · rintro ⟨r, hfinds, hinside⟩ pre hfirst
    exact hinside _ (hfinds.unique (finds_first hfirst))
  · intro hsound
    obtain ⟨r, hfinds, hfound⟩ := finds_some_or_none skb.data type
    refine ⟨r, hfinds, fun cur hcur => ?_⟩
    obtain ⟨pre, hfirst, rfl⟩ := hfound cur hcur
    exact hsound pre hfirst

/-- **The rewriting is safe exactly for frames whose options are not broken and whose tags are not cut
off.** -/
theorem rewriting_safe_iff (myHwaddr : MacAddr) :
    (∀ skb : Skb, 54 < skb.len → (NdSafe myHwaddr skb ↔ NdSound skb))
      ∧ ∀ (skb : Skb) (type : Nat), PppoeSafe skb type ↔ TagSound skb type :=
  ⟨fun _ hlen => ndSafe_iff hlen myHwaddr, pppoeSafe_iff⟩

/-- A memory with `bs` at its start and zeroes behind. -/
def memOf (bs : List UInt8) : Mem := fun k => (bs[k]?).getD 0

theorem read_memOf (bs : List UInt8) (a n : Nat) :
    (memOf bs).read a n = (bs.drop a).take n ++ List.replicate (n - (bs.length - a)) 0 := by
  refine List.ext_getElem? fun i => ?_
  have hlen : ((bs.drop a).take n).length = min n (bs.length - a) := by
    rw [List.length_take, List.length_drop]
  by_cases hi : i < n
  · rw [Mem.getElem?_read _ hi]
    by_cases hin : a + i < bs.length
    · rw [List.getElem?_append_left (by omega), List.getElem?_take_of_lt hi, List.getElem?_drop, memOf,
        List.getElem?_eq_getElem hin]
      rfl
    · rw [List.getElem?_append_right (by omega), memOf, List.getElem?_eq_none (by omega),
        List.getElem?_replicate, if_pos (by omega)]
      rfl
  · rw [List.getElem?_eq_none (by rw [Mem.length_read]; omega), List.getElem?_eq_none]
    rw [List.length_append, List.length_replicate]
    omega

/-- A neighbour solicitation with options, of which `ck` is the checksum. -/
def solicitationBytes (payloadLen ck options : List UInt8) : List UInt8 :=
  [0x33, 0x33, 0xff, 0, 0, 2] ++ [2, 0, 0, 0, 0, 1] ++ [0x86, 0xdd]
    ++ [0x60, 0, 0, 0] ++ payloadLen ++ [58, 255]
    ++ [0xfe, 0x80, 0, 0, 0, 0, 0, 0, 0, 0, 0, 0, 0, 0, 0, 1]
    ++ [0xff, 2, 0, 0, 0, 0, 0, 0, 0, 0, 0, 1, 0xff, 0, 0, 2]
    ++ [135, 0] ++ ck ++ [0, 0, 0, 0] ++ [0xfe, 0x80, 0, 0, 0, 0, 0, 0, 0, 0, 0, 0, 0, 0, 0, 2]
    ++ options

def neighbourSolicitation (payloadLen ck options : List UInt8) : Skb where
  data := memOf (solicitationBytes payloadLen ck options)
  len := 78 + options.length

/-- A PADI with one relay tag of 8 bytes. -/
def padiFrame (payloadLen : UInt8) : Skb where
  data := memOf ([0xff, 0xff, 0xff, 0xff, 0xff, 0xff] ++ [2, 0, 0, 0, 0, 1] ++ [0x88, 0x63]
    ++ [0x11, 9, 0, 0, 0, payloadLen] ++ [1, 0x10, 0, 8] ++ [1, 2, 3, 4, 5, 6, 7, 8])
  len := 32

theorem rewriting_safe_sample :
    NdSafe ⟨2, 0, 0, 0, 0, 9⟩ (neighbourSolicitation [0, 32] [0, 0] [1, 1, 2, 0, 0, 0, 0, 1])
      ∧ PppoeSafe (padiFrame 12) 0x0110 := by
  obtain ⟨hnd, htag⟩ := rewriting_safe_iff ⟨2, 0, 0, 0, 0, 9⟩
  refine ⟨(hnd _ (by decide)).mpr ?_, (htag _ _).mpr ?_⟩
  · intro fixed tag hkind _
    cases hkind
    rintro ⟨k, r, hskips, hend⟩
    generalize hbs : (neighbourSolicitation [0, 32] [0, 0] [1, 1, 2, 0, 0, 0, 0, 1]).data.read _ _ = bs
      at hskips
    have hread : bs = [1, 1, 2, 0, 0, 0, 0, 1] := hbs.symm.trans (by decide)
    cases hskips with
    | start bs =>
        subst hread
        rcases hend with ⟨t, ht⟩ | ⟨t, r', ht⟩
        · cases ht
        · exact absurd (List.cons.inj (List.cons.inj ht).2).1 (by decide)
    | option hl hbody hother h =>
        obtain ⟨ht, hrest⟩ := List.cons.inj hread
        exact hother ⟨ht, (List.cons.inj hrest).1⟩
  · rintro pre ⟨hothers, hstand, hin, htype⟩
    cases pre with
    | nil => exact ⟨by decide, by decide⟩
    | cons t pre =>
        have hfield := (tag_fields ((stand_cons.mp hstand).1.trans (List.append_nil _).symm)).1
        exact absurd (hfield.symm.trans (by decide)) (hothers t List.mem_cons_self)

/-- An option of length zero, a single byte behind the last option, and a tag that ends behind the
payload. -/
theorem rewriting_not_safe :
    ¬ NdSafe ⟨2, 0, 0, 0, 0, 9⟩ (neighbourSolicitation [0, 32] [0, 0] [1, 0, 2, 0, 0, 0, 0, 1])
      ∧ ¬ NdSafe ⟨2, 0, 0, 0, 0, 9⟩ (neighbourSolicitation [0, 25] [0, 0] [1])
      ∧ ¬ PppoeSafe (padiFrame 4) 0x0110 := by
  refine ⟨?_, ?_, ?_⟩
  · rintro ⟨fuel, r, h⟩
    obtain ⟨q, hq⟩ := ends_of_update _ (by decide) (show ndOptions _ = some (24, 1) by decide)
      (by decide) h
    exact not_ends_of_broken ⟨0, [1, 0, 2, 0, 0, 0, 0, 1], .start _, Or.inr ⟨1, _, rfl⟩⟩ rfl q hq
  · rintro ⟨fuel, r, h⟩
    obtain ⟨q, hq⟩ := ends_of_update _ (by decide) (show ndOptions _ = some (24, 1) by decide)
      (by decide) h
    exact not_ends_of_broken ⟨0, [1], .start _, Or.inl ⟨1, rfl⟩⟩ rfl q hq
  · rintro ⟨r, hfinds, hinside⟩
    have hfirst : FirstTag (padiFrame 4).data 0x0110 [] :=
      ⟨fun t ht => absurd ht List.not_mem_nil, rfl, by decide, by decide⟩
    have htag := hinside phTag (hfinds.unique (finds_first hfirst))
    exact absurd htag.1 (by decide)

end Rtl8812au.Nat25

import Rtl8812au.P2p.ChList
import Rtl8812au.P2p.NegoFrame
import Rtl8812au.Ap.Ie

/-!
# Which channel lists are decoded

Both loops stop only where exactly nothing is left, so what is not made of complete entries is read beyond
its end. In 8 bits nothing is left already where a multiple of 256 bytes is: the channels behind are not
seen, and as many as there are before that go to an array of 100.
-/

namespace Rtl8812au.P2p

/-- The channels of a list of entries. An entry is laid out like an element: the operating class, the
count, the channels. -/
def channels (es : List Tlv) : List UInt8 := es.flatMap Tlv.body

@[simp] theorem channels_nil : channels [] = [] := rfl

@[simp] theorem channels_cons (e : Tlv) (es : List Tlv) : channels (e :: es) = e.body ++ channels es :=
  List.flatMap_cons

/-- The content is a country string and these entries. -/
def Complete (m : Mem) (n : Nat) (es : List Tlv) : Prop := Holds m 3 es ∧ 3 + Tlv.total es = n

/-- The entries that are seen when the bytes left are counted in 8 bits. -/
def counted : List Tlv → List Tlv
  | [] => []
  | e :: es => if Tlv.total (e :: es) % 256 = 0 then [] else e :: counted es

/-! ## The channels of the peer -/

section

variable {m : Mem} {n : Nat}

/-- The channels behind the header of an entry. -/
theorem entry_bytes {p : Nat} {e : Tlv} {es : List Tlv} (h : Holds m p (e :: es)) :
    m (p + 1) = UInt8.ofNat e.body.length ∧ (m (p + 1)).toNat = e.body.length
      ∧ m.read (p + 2) (m (p + 1)).toNat = e.body := by
  obtain ⟨-, hlen, hbody⟩ := (Holds.cons.mp h).1.head
  refine ⟨?_, hlen, ?_⟩
  · rw [← hlen, UInt8.ofNat_toNat]
  · rw [hlen, hbody]

theorem PeerScan.take_entry {s : PeerScan} {e : Tlv} {es : List Tlv} (h : Holds m s.ptr (e :: es)) :
    (s.take m n).ptr = s.ptr + e.size ∧ (s.take m n).chs = s.chs ++ e.body
      ∧ (s.take m n).chCnt + UInt8.ofNat e.size = s.chCnt
      ∧ (s.take m n).chNo = s.chNo + UInt8.ofNat e.body.length
      ∧ (s.take m n).used = s.used ++ [⟨s.ptr + 1, 1, n⟩, ⟨s.ptr + 2, e.body.length, n⟩] := by
  obtain ⟨hbyte, hlen, hbody⟩ := entry_bytes h
  unfold PeerScan.take
  dsimp only
  rw [hbody, hlen, hbyte]
  refine ⟨?_, rfl, ?_, rfl, rfl⟩
  · unfold Tlv.size
    omega
  · unfold Tlv.size
    rw [UInt8.ofNat_add]
    grind

/-- What the counter says is left, in eight bits. -/
theorem PeerScan.take_count {s : PeerScan} {e : Tlv} {es : List Tlv} (h : Holds m s.ptr (e :: es))
    (hcnt : s.chCnt = UInt8.ofNat (Tlv.total (e :: es))) :
    (s.take m n).chCnt = UInt8.ofNat (Tlv.total es) := by
  obtain ⟨-, -, hsum, -⟩ := PeerScan.take_entry (n := n) h
  rw [hcnt, Tlv.total_cons, UInt8.ofNat_add] at hsum
  grind

theorem count_zero_iff (k : Nat) : UInt8.ofNat k = 0 ↔ k % 256 = 0 := by
  rw [← UInt8.toNat_inj, UInt8.toNat_ofNat']
  exact Iff.rfl

theorem peerTurn_stop {s : PeerScan} (h : s.chCnt = 0) : peerTurn m n s = .done (.stop s) := if_pos h

/-- The bytes of an entry that is complete are there. -/
theorem entry_used_ok {p : Nat} {e : Tlv} {es : List Tlv} {used : List Access}
    (hp : p + Tlv.total (e :: es) ≤ n) (hok : Access.AllOk used) :
    Access.AllOk (used ++ [⟨p + 1, 1, n⟩, ⟨p + 2, e.body.length, n⟩]) := by
  rw [Tlv.total_cons] at hp
  unfold Tlv.size at hp
  rw [Access.allOk_append, Access.allOk_cons, Access.allOk_singleton]
  refine ⟨hok, ?_, ?_⟩
  · show p + 1 + 1 ≤ n
    omega
  · show p + 2 + e.body.length ≤ n
    omega

/-- **Over complete entries the loop stays inside** exactly when the channels that are counted fit
`peer_ch_list`. -/
theorem peer_safe_iff {es : List Tlv} : ∀ {s : PeerScan}, Holds m s.ptr es → s.ptr + Tlv.total es ≤ n →
    s.chCnt = UInt8.ofNat (Tlv.total es) → s.chs.length ≤ 100 → Access.AllOk s.used →
    ((∃ r, Loop.Ends (peerTurn m n) s r ∧ Access.AllOk r.used)
      ↔ (s.chs ++ channels (counted es)).length ≤ 100) := by
  induction es with
  | nil =>
      intro s _ _ hcnt hlen hok
      rw [counted, channels_nil, List.append_nil]
      exact iff_of_true ⟨s, (Loop.ends_stop (peerTurn_stop hcnt)).mpr rfl, hok⟩ hlen
  | cons e es ih =>
      intro s h hn hcnt hlen hok
      obtain ⟨hptr, hchs, -, -, hused⟩ := PeerScan.take_entry (n := n) h
      have htail := (Holds.cons.mp h).2
      rw [counted]
      by_cases hz : Tlv.total (e :: es) % 256 = 0
      · have hstop : s.chCnt = 0 := hcnt.trans ((count_zero_iff _).mpr hz)
        rw [if_pos hz, channels_nil, List.append_nil]
        exact iff_of_true ⟨s, (Loop.ends_stop (peerTurn_stop hstop)).mpr rfl, hok⟩ hlen
      · have hgo : s.chCnt ≠ 0 := fun hc => hz ((count_zero_iff _).mp (hcnt.symm.trans hc))
        rw [if_neg hz, channels_cons, ← List.append_assoc, ← hchs]
        by_cases hfit : (s.take m n).chs.length ≤ 100
        · have hturn : peerTurn m n s = .done (.next (s.take m n)) := by
            unfold peerTurn
            rw [if_neg hgo, if_pos hfit]
          have hih := @ih (s.take m n) (hptr ▸ htail)
            (by rw [hptr, Nat.add_assoc]; exact hn) (PeerScan.take_count h hcnt) hfit
            (hused ▸ entry_used_ok hn hok)
          rw [← hih]
          constructor
          · rintro ⟨r, hr, hrok⟩
            exact ⟨r, (Loop.ends_next hturn).mp hr, hrok⟩
          · rintro ⟨r, hr, hrok⟩
            exact ⟨r, (Loop.ends_next hturn).mpr hr, hrok⟩
        · -- a channel goes behind the array
          have hturn : peerTurn m n s = .overrun := by
            unfold peerTurn
            rw [if_neg hgo, if_neg hfit]
          refine iff_of_false ?_ ?_
          · rintro ⟨r, hr, -⟩
            exact Loop.not_ends_overrun hturn hr
          · rw [List.length_append]
            omega

/-- **What it returns**: the channels that are counted, and their number in 8 bits. -/
theorem peer_result {es : List Tlv} : ∀ {s r : PeerScan}, Holds m s.ptr es →
    s.chCnt = UInt8.ofNat (Tlv.total es) → Loop.Ends (peerTurn m n) s r →
    r.chs = s.chs ++ channels (counted es)
      ∧ r.chNo = s.chNo + UInt8.ofNat (channels (counted es)).length := by
  induction es with
  | nil =>
      intro s r _ hcnt hr
      have hrs := (Loop.ends_stop (peerTurn_stop hcnt)).mp hr
      subst hrs
      exact ⟨(List.append_nil _).symm, (UInt8.add_zero _).symm⟩
  | cons e es ih =>
      intro s r h hcnt hr
      obtain ⟨hptr, hchs, -, hno, -⟩ := PeerScan.take_entry (n := n) h
      have htail := (Holds.cons.mp h).2
      rw [counted]
      by_cases hz : Tlv.total (e :: es) % 256 = 0
      · have hstop : s.chCnt = 0 := hcnt.trans ((count_zero_iff _).mpr hz)
        have hrs := (Loop.ends_stop (peerTurn_stop hstop)).mp hr
        subst hrs
        rw [if_pos hz]
        exact ⟨(List.append_nil _).symm, (UInt8.add_zero _).symm⟩
      · have hgo : s.chCnt ≠ 0 := fun hc => hz ((count_zero_iff _).mp (hcnt.symm.trans hc))
        rw [if_neg hz, channels_cons]
        by_cases hfit : (s.take m n).chs.length ≤ 100
        · have hturn : peerTurn m n s = .done (.next (s.take m n)) := by
            unfold peerTurn
            rw [if_neg hgo, if_pos hfit]
          obtain ⟨hrchs, hrno⟩ := ih (hptr ▸ htail) (PeerScan.take_count h hcnt)
            ((Loop.ends_next hturn).mp hr)
          rw [hrchs, hrno, hchs, hno, List.append_assoc, List.length_append, UInt8.ofNat_add,
            UInt8.add_assoc]
          exact ⟨rfl, rfl⟩
        · have hturn : peerTurn m n s = .overrun := by
            unfold peerTurn
            rw [if_neg hgo, if_neg hfit]
          exact absurd hr (Loop.not_ends_overrun hturn)

end

/-! ## The distinct channels -/

section

/-- **A channel is listed once**, where it is met first. -/
theorem foldl_addDistinct (l : List UInt8) : ∀ acc : List UInt8,
    l.foldl addDistinct acc.eraseDups = (acc ++ l).eraseDups := by
  induction l with
  | nil => intro acc; rw [List.append_nil]; rfl
  | cons b l ih =>
      intro acc
      have hstep : addDistinct acc.eraseDups b = (acc ++ [b]).eraseDups := by
        rw [List.eraseDups_append]
        unfold addDistinct
        by_cases hb : b ∈ acc
        · rw [if_pos (List.mem_eraseDups.mpr hb)]
          have hgone : [b].removeAll acc = [] := by simp [List.removeAll, hb]
          rw [hgone, List.eraseDups_nil, List.append_nil]
        · rw [if_neg (fun h => hb (List.mem_eraseDups.mp h))]
          have hkept : [b].removeAll acc = [b] := by simp [List.removeAll, hb]
          rw [hkept]
          rfl
      rw [List.foldl_cons, hstep, ih, List.append_assoc]
      rfl

theorem length_le_addDistinct (l : List UInt8) : ∀ acc : List UInt8,
    acc.length ≤ (l.foldl addDistinct acc).length := by
  induction l with
  | nil => intro acc; exact Nat.le_refl _
  | cons b l ih =>
      intro acc
      refine Nat.le_trans ?_ (ih (addDistinct acc b))
      unfold addDistinct
      split
      · exact Nat.le_refl _
      · rw [List.length_append]
        exact Nat.le_add_right _ _

variable {m : Mem} {n : Nat}

theorem dumpTurn_stop {s : DumpScan} (h : s.left = 0) : dumpTurn m n s = .done (.stop s) := if_pos h

/-- What is left is what lies between the pointer and the end. -/
def DumpScan.Inside (s : DumpScan) (n : Nat) : Prop := s.ptr ≤ n ∧ s.left.toNat = n - s.ptr

theorem DumpScan.Inside.take {s : DumpScan} (h : s.Inside n)
    (hnext : s.ptr + (2 + (m (s.ptr + 1)).toNat) ≤ n) : (s.take m n).Inside n := by
  obtain ⟨hle, hleft⟩ := h
  refine ⟨hnext, ?_⟩
  have hbyte := (m (s.ptr + 1)).toNat_lt
  have hstep : (2 + (m (s.ptr + 1)).toUInt32).toNat = 2 + (m (s.ptr + 1)).toNat := by
    rw [UInt32.toNat_add, UInt8.toNat_toUInt32]
    exact Nat.mod_eq_of_lt (by
      have h2 : (2 : UInt32).toNat = 2 := rfl
      omega)
  show (s.left - (2 + (m (s.ptr + 1)).toUInt32)).toNat = n - (s.ptr + (2 + (m (s.ptr + 1)).toNat))
  rw [UInt32.toNat_sub_of_le _ _ (by rw [UInt32.le_iff_toNat_le, hstep]; omega), hstep]
  omega

theorem of_dumpTurn_stop {s r : DumpScan} (h : dumpTurn m n s = .done (.stop r)) :
    s.left = 0 ∧ r = s := by
  unfold dumpTurn at h
  split at h
  case isTrue hz =>
    cases h
    exact ⟨hz, rfl⟩
  case isFalse =>
    split at h
    · cases h
    · cases h

theorem of_dumpTurn_next {s s' : DumpScan} (h : dumpTurn m n s = .done (.next s')) :
    s.left ≠ 0 ∧ s' = s.take m n ∧ (s.take m n).chs.length ≤ 40 := by
  unfold dumpTurn at h
  split at h
  case isTrue => cases h
  case isFalse hz =>
    split at h
    case isTrue hfit =>
      cases h
      exact ⟨hz, rfl, hfit⟩
    case isFalse => cases h

/-- What stands in memory is an entry. -/
theorem exists_entry (m : Mem) (p : Nat) : ∃ e : Tlv, Holds m p [e]
    ∧ e.size = 2 + (m (p + 1)).toNat ∧ e.body = m.read (p + 2) (m (p + 1)).toNat := by
  have hlen : (m.read (p + 2) (m (p + 1)).toNat).length = (m (p + 1)).toNat := Mem.length_read _ _ _
  have hshort : (m.read (p + 2) (m (p + 1)).toNat).length < 256 := by
    rw [hlen]
    exact (m (p + 1)).toNat_lt
  refine ⟨⟨m p, _, hshort⟩, ?_, ?_, rfl⟩
  · have htotal : Tlv.total [⟨m p, _, hshort⟩] = 2 + (m (p + 1)).toNat := by
      rw [Tlv.total_cons, Tlv.total_nil, Tlv.size, hlen]
      omega
    unfold Holds
    rw [htotal, Mem.read_add, Tlv.encode_cons, Tlv.encode_nil, List.append_nil, Tlv.bytes, hlen,
      UInt8.ofNat_toNat]
    rfl
  · rw [Tlv.size, hlen]
    omega

/-- The loop forgets nothing that was used. -/
theorem dump_used {s r : DumpScan} (h : Loop.Ends (dumpTurn m n) s r) : ∀ a ∈ s.used, a ∈ r.used := by
  refine h.induct (P := fun s => ∀ a ∈ s.used, a ∈ r.used) ?_ ?_
  · intro s hstop
    obtain ⟨-, rfl⟩ := of_dumpTurn_stop hstop
    exact fun a ha => ha
  · intro s s' hnext _ ih a ha
    obtain ⟨-, rfl, -⟩ := of_dumpTurn_next hnext
    exact ih a (List.mem_append_left _ ha)

/-- What is in `ch_list` fits it. -/
theorem dump_length {s r : DumpScan} (h : Loop.Ends (dumpTurn m n) s r) :
    s.chs.length ≤ 40 → r.chs.length ≤ 40 := by
  refine h.induct (P := fun s => s.chs.length ≤ 40 → r.chs.length ≤ 40) ?_ ?_
  · intro s hstop hlen
    obtain ⟨-, rfl⟩ := of_dumpTurn_stop hstop
    exact hlen
  · intro s s' hnext _ ih _
    obtain ⟨-, rfl, hfit⟩ := of_dumpTurn_next hnext
    exact ih hfit

/-- **Where it ends inside the content, the content is made of entries.** -/
theorem entries_of_dump {s r : DumpScan} (h : Loop.Ends (dumpTurn m n) s r) (hok : Access.AllOk r.used) :
    s.Inside n → ∃ es, Holds m s.ptr es ∧ s.ptr + Tlv.total es = n
      ∧ r.chs = (channels es).foldl addDistinct s.chs := by
  refine h.induct (P := fun s => s.Inside n → ∃ es, Holds m s.ptr es ∧ s.ptr + Tlv.total es = n
    ∧ r.chs = (channels es).foldl addDistinct s.chs) ?_ ?_
  · intro s hstop hin
    obtain ⟨hz, rfl⟩ := of_dumpTurn_stop hstop
    obtain ⟨hle, hleft⟩ := hin
    rw [hz] at hleft
    have hzero : (0 : UInt32).toNat = 0 := rfl
    refine ⟨[], Holds.nil _ _, ?_, rfl⟩
    rw [Tlv.total_nil]
    omega
  · intro s s' hnext hends ih hin
    obtain ⟨-, rfl, -⟩ := of_dumpTurn_next hnext
    have htaken : Access.AllOk (s.take m n).used := hok.mono (dump_used hends)
    obtain ⟨-, hbytes⟩ := Access.allOk_append.mp htaken
    have hfits : s.ptr + 2 + (m (s.ptr + 1)).toNat ≤ n :=
      Access.allOk_singleton.mp (Access.allOk_cons.mp hbytes).2
    obtain ⟨es, hes, hn, hchs⟩ := ih (hin.take (by omega))
    obtain ⟨e, he, hsize, hbody⟩ := exists_entry m s.ptr
    have hptr : (s.take m n).ptr = s.ptr + e.size := by
      rw [hsize]
      rfl
    rw [hptr] at hes hn
    refine ⟨e :: es, Holds.cons.mpr ⟨he, hes⟩, ?_, ?_⟩
    · rw [Tlv.total_cons, ← Nat.add_assoc]
      exact hn
    · rw [hchs, channels_cons, List.foldl_append, hbody]
      rfl

/-- **Over complete entries it collects their channels**, if there are no more distinct ones than
`ch_list` holds. -/
theorem dump_ends {es : List Tlv} : ∀ {s : DumpScan}, Holds m s.ptr es → s.Inside n →
    s.ptr + Tlv.total es = n → Access.AllOk s.used →
    ((channels es).foldl addDistinct s.chs).length ≤ 40 →
    ∃ r, Loop.Ends (dumpTurn m n) s r ∧ Access.AllOk r.used
      ∧ r.chs = (channels es).foldl addDistinct s.chs := by
  induction es with
  | nil =>
      intro s _ hin hn hok _
      have hz : s.left = 0 := by
        rw [← UInt32.toNat_inj, hin.2]
        rw [Tlv.total_nil] at hn
        exact Nat.sub_eq_zero_of_le (by omega)
      exact ⟨s, (Loop.ends_stop (dumpTurn_stop hz)).mpr rfl, hok, rfl⟩
  | cons e es ih =>
      intro s h hin hn hok hfit
      obtain ⟨hbyte, hlen, hbody⟩ := entry_bytes h
      have htail := (Holds.cons.mp h).2
      have hused := entry_used_ok (Nat.le_of_eq hn) hok
      rw [Tlv.total_cons] at hn
      have hsize : e.size = 2 + (m (s.ptr + 1)).toNat := by
        rw [hlen, Tlv.size]
        omega
      have hptr : (s.take m n).ptr = s.ptr + e.size := by
        rw [hsize]
        rfl
      have hchs : (s.take m n).chs = e.body.foldl addDistinct s.chs := by
        rw [← hbody]
        rfl
      rw [channels_cons, List.foldl_append, ← hchs] at hfit ⊢
      have hgo : s.left ≠ 0 := by
        intro hz
        have hleft := hin.2
        rw [hz] at hleft
        have hzero : (0 : UInt32).toNat = 0 := rfl
        have hpos := e.two_le_size
        omega
      have hnow : (s.take m n).chs.length ≤ 40 := Nat.le_trans (length_le_addDistinct _ _) hfit
      have hturn : dumpTurn m n s = .done (.next (s.take m n)) := by
        unfold dumpTurn
        rw [if_neg hgo, if_pos hnow]
      have hok' : Access.AllOk (s.take m n).used := by
        rw [← hlen] at hused
        exact hused
      obtain ⟨r, hr, hrok, hrchs⟩ := ih (hptr ▸ htail) (hin.take (by omega))
        (by rw [hptr, Nat.add_assoc]; exact hn) hok' hfit
      exact ⟨r, (Loop.ends_next hturn).mpr hr, hrok, hrchs⟩

end

/-! ## The two functions -/

section

variable {m : Mem} {n : Nat}

/-- Both end, use only bytes of the content, and write inside their arrays. -/
def ChListSafe (m : Mem) (n : Nat) : Prop :=
  (∃ r, RtwP2pGetPeerChList m n r ∧ Access.AllOk r.used) ∧ ∃ r, DumpChList m n r ∧ Access.AllOk r.used

/-- Of complete entries with at most 100 channels the first returns all in their order, and their number;
of entries with at most 40 distinct channels the second lists each once, in the order they are met. -/
def ChListExact (m : Mem) (n : Nat) : Prop :=
  ∀ es, Complete m n es →
    ((channels es).length ≤ 100 → ∃ r, RtwP2pGetPeerChList m n r ∧ r.chs = channels es
      ∧ r.chNo.toNat = (channels es).length)
    ∧ ((channels es).eraseDups.length ≤ 40 → ∃ r, DumpChList m n r ∧ r.chs = (channels es).eraseDups)

/-- The content is a country string and complete entries with at most 40 distinct channels, and the
entries that are counted in 8 bits have at most 100 channels, and all there are if these are at most
100. -/
def ChListFits (m : Mem) (n : Nat) : Prop :=
  ∃ es, Complete m n es ∧ (channels es).eraseDups.length ≤ 40
    ∧ (channels (counted es)).length ≤ 100
    ∧ ((channels es).length ≤ 100 → channels (counted es) = channels es)

/-- What is left behind the country string. -/
theorem dumpStart_inside (h3 : 3 ≤ n) (hn : n < 2 ^ 32) :
    DumpScan.Inside ⟨3, UInt32.ofNat n - 3, [], []⟩ n := by
  refine ⟨h3, ?_⟩
  have hval : (UInt32.ofNat n).toNat = n := UInt32.toNat_ofNat_of_lt' hn
  have hthree : (3 : UInt32).toNat = 3 := rfl
  show (UInt32.ofNat n - 3).toNat = n - 3
  rw [UInt32.toNat_sub_of_le _ _ (by rw [UInt32.le_iff_toNat_le, hval]; exact h3), hval, hthree]

/-- A content too short for the country string is read beyond its end. -/
theorem dump_short {r : DumpScan} (h3 : n < 3) (h : DumpChList m n r) : ¬ Access.AllOk r.used := by
  intro hok
  have hgo : UInt32.ofNat n - 3 ≠ 0 := by
    intro hz
    have hval : (UInt32.ofNat n).toNat = n := UInt32.toNat_ofNat_of_lt' (Nat.lt_trans h3 (by decide))
    have heq : UInt32.ofNat n = 3 := by
      have hsub := congrArg (· + 3) hz
      simpa using hsub
    rw [heq] at hval
    have hthree : (3 : UInt32).toNat = 3 := rfl
    omega
  by_cases hfit : (DumpScan.take m n ⟨3, UInt32.ofNat n - 3, [], []⟩).chs.length ≤ 40
  · have hturn : dumpTurn m n ⟨3, UInt32.ofNat n - 3, [], []⟩
        = .done (.next (DumpScan.take m n ⟨3, UInt32.ofNat n - 3, [], []⟩)) := by
      unfold dumpTurn
      rw [if_neg hgo, if_pos hfit]
    have htaken := hok.mono (dump_used ((Loop.ends_next hturn).mp h))
    obtain ⟨-, hbytes⟩ := Access.allOk_append.mp htaken
    have hcount : 3 + 1 + 1 ≤ n := (Access.allOk_cons.mp hbytes).1
    omega
  · have hturn : dumpTurn m n ⟨3, UInt32.ofNat n - 3, [], []⟩ = .overrun := by
      unfold dumpTurn
      rw [if_neg hgo, if_neg hfit]
    exact Loop.not_ends_overrun hturn h

theorem foldl_distinct (l : List UInt8) : l.foldl addDistinct [] = l.eraseDups :=
  foldl_addDistinct l []

theorem dumpSafe_iff (hn : n < 2 ^ 32) : (∃ r, DumpChList m n r ∧ Access.AllOk r.used)
    ↔ ∃ es, Complete m n es ∧ (channels es).eraseDups.length ≤ 40 := by
  constructor
  · rintro ⟨r, hr, hok⟩
    by_cases h3 : 3 ≤ n
    · obtain ⟨es, hes, htotal, hchs⟩ := entries_of_dump hr hok (dumpStart_inside h3 hn)
      refine ⟨es, ⟨hes, htotal⟩, ?_⟩
      rw [← foldl_distinct, ← hchs]
      exact dump_length hr (Nat.zero_le _)
    · exact absurd hok (dump_short (by omega) hr)
  · rintro ⟨es, ⟨hes, htotal⟩, hfit⟩
    rw [← foldl_distinct] at hfit
    obtain ⟨r, hr, hok, -⟩ := dump_ends (s := ⟨3, UInt32.ofNat n - 3, [], []⟩) hes
      (dumpStart_inside (by omega) hn) htotal Access.allOk_nil hfit
    exact ⟨r, hr, hok⟩

/-- The bytes say what the entries are. -/
theorem Complete.unique {es es' : List Tlv} (h : Complete m n es) (h' : Complete m n es') : es = es' := by
  have htotal : Tlv.total es = Tlv.total es' := by
    have hn := h.2
    have hn' := h'.2
    omega
  refine Tlv.encode_injective ?_
  rw [← h.1, ← h'.1, htotal]

theorem peerStart_count {es : List Tlv} (h : Complete m n es) :
    UInt8.ofNat n - 3 = UInt8.ofNat (Tlv.total es) := by
  rw [← h.2, UInt8.ofNat_add]
  grind

theorem peerSafe_iff {es : List Tlv} (h : Complete m n es) :
    (∃ r, RtwP2pGetPeerChList m n r ∧ Access.AllOk r.used) ↔ (channels (counted es)).length ≤ 100 :=
  peer_safe_iff (s := ⟨3, UInt8.ofNat n - 3, [], 0, []⟩) h.1 (Nat.le_of_eq h.2) (peerStart_count h)
    (Nat.zero_le _) Access.allOk_nil

theorem peer_channels {es : List Tlv} {r : PeerScan} (h : Complete m n es)
    (hr : RtwP2pGetPeerChList m n r) :
    r.chs = channels (counted es) ∧ r.chNo = UInt8.ofNat (channels (counted es)).length := by
  obtain ⟨hchs, hno⟩ := peer_result (s := ⟨3, UInt8.ofNat n - 3, [], 0, []⟩) h.1 (peerStart_count h) hr
  rw [UInt8.zero_add] at hno
  exact ⟨hchs, hno⟩

end

/-- **Channel lists are decoded safely and exactly** exactly when they are complete entries with few
enough channels, in 32 bits as in 8. -/
theorem ch_list_decoding_iff (m : Mem) (n : Nat) (hn : n < 2 ^ 32) :
    ChListSafe m n ∧ ChListExact m n ↔ ChListFits m n := by
  constructor
  · rintro ⟨⟨hpeer, hdump⟩, hexact⟩
    obtain ⟨es, hes, hfit⟩ := (dumpSafe_iff hn).mp hdump
    refine ⟨es, hes, hfit, (peerSafe_iff hes).mp hpeer, fun h100 => ?_⟩
    obtain ⟨r, hr, hchs, -⟩ := (hexact es hes).1 h100
    rw [← hchs, (peer_channels hes hr).1]
  · rintro ⟨es, hes, hfit, hcounted, hall⟩
    have hpeer := (peerSafe_iff hes).mpr hcounted
    have hdump := (dumpSafe_iff hn).mpr ⟨es, hes, hfit⟩
    refine ⟨⟨hpeer, hdump⟩, fun es' hes' => ?_⟩
    have hsame := hes'.unique hes
    subst hsame
    constructor
    · intro h100
      obtain ⟨r, hr, -⟩ := hpeer
      obtain ⟨hchs, hno⟩ := peer_channels hes hr
      rw [hall h100] at hchs hno
      refine ⟨r, hr, hchs, ?_⟩
      rw [hno, UInt8.toNat_ofNat']
      exact Nat.mod_eq_of_lt (by omega)
    · intro _
      obtain ⟨r, hr, hok⟩ := hdump
      have h3 : 3 ≤ n := by
        have htotal := hes.2
        omega
      obtain ⟨es', hes', htotal', hchs⟩ := entries_of_dump hr hok (dumpStart_inside h3 hn)
      have hsame := hes.unique ⟨hes', htotal'⟩
      subst hsame
      exact ⟨r, hr, hchs.trans (foldl_distinct _)⟩

/-! ## The loop of the handlers -/

theorem peerChLoop_ends {buf : Mem} {n : Nat} {l : List Nat} {fuel : Nat} :
    ∀ {ptr chCnt : Nat} {chs : List Nat} {s : PeerScan}, s.ptr = ptr → s.chCnt.toNat = chCnt →
    s.chs.map UInt8.toNat = chs → peerChLoop buf fuel ptr chCnt chs = some l →
    ∃ r, Loop.Ends (peerTurn buf n) s r ∧ r.chs.map UInt8.toNat = l := by
  induction fuel with
  | zero => intro ptr chCnt chs s _ _ _ h; cases h
  | succ fuel ih =>
      intro ptr chCnt chs s hptr hcnt hchs h
      subst hptr hcnt hchs
      rw [peerChLoop] at h
      split at h
      case isFalse hz =>
        cases h
        have hstop : s.chCnt = 0 := UInt8.toNat_inj.mp (Nat.eq_zero_of_not_pos hz)
        exact ⟨s, (Loop.ends_stop (peerTurn_stop hstop)).mpr rfl, rfl⟩
      case isTrue hpos =>
        dsimp only at h
        split at h
        case isFalse => cases h
        case isTrue hin =>
          have hgo : s.chCnt ≠ 0 := by
            intro hz
            rw [hz] at hpos
            exact absurd hpos (by decide)
          have hfit : (s.take buf n).chs.length ≤ 100 := by
            have hroom := hin.2
            rw [List.length_map] at hroom
            show (s.chs ++ buf.read (s.ptr + 2) (buf (s.ptr + 1)).toNat).length ≤ 100
            rw [List.length_append, Mem.length_read]
            exact hroom
          have hturn : peerTurn buf n s = .done (.next (s.take buf n)) := by
            unfold peerTurn
            rw [if_neg hgo, if_pos hfit]
          have hleft : (s.take buf n).chCnt.toNat
              = (s.chCnt.toNat + 512 - 1 - ((buf (s.ptr + 1)).toNat + 1)) % 256 := by
            have hlt := s.chCnt.toNat_lt
            have hbyte := (buf (s.ptr + 1)).toNat_lt
            have h1 : (1 : UInt8).toNat = 1 := rfl
            show (s.chCnt - 1 - (buf (s.ptr + 1) + 1)).toNat = _
            rw [UInt8.toNat_sub, UInt8.toNat_sub, UInt8.toNat_add, h1]
            omega
          obtain ⟨r, hr, hrl⟩ := ih (s := s.take buf n) (Nat.add_assoc _ _ _).symm hleft
            (List.map_append ..) h
          exact ⟨r, (Loop.ends_next hturn).mpr hr, hrl⟩

/-- **What the negotiation takes for the peer's channels** is what this loop returns. -/
theorem rtwP2pGetPeerChList_ends {buf : Mem} {n : Nat} {l : List Nat}
    (h : rtwP2pGetPeerChList buf n = some l) :
    ∃ r, RtwP2pGetPeerChList buf n r ∧ r.chs.map UInt8.toNat = l := by
  have hstart : (UInt8.ofNat n - 3).toNat = (n + 256 - 3) % 256 := by
    have h3 : (3 : UInt8).toNat = 3 := rfl
    rw [UInt8.toNat_sub, UInt8.toNat_ofNat', h3]
    omega
  exact peerChLoop_ends (s := ⟨3, UInt8.ofNat n - 3, [], 0, []⟩) rfl hstart rfl h

/-- Two operating classes of 2.4 and 5 GHz. -/
def listSample : List Tlv :=
  [⟨81, [1, 6, 11], by decide⟩, ⟨115, [36, 40, 44, 48], by decide⟩]

/-- A content with a country string. -/
def listContent (es : List Tlv) : Mem := fun k => ([0x55, 0x53, 0x04] ++ (Tlv.encode es ++ [])).getD k 0

theorem complete_listContent (es : List Tlv) : Complete (listContent es) (3 + Tlv.total es) es := by
  have hread := Mem.read_getD (d := 0) [0x55, 0x53, 0x04] (Tlv.encode es) []
  rw [Tlv.length_encode] at hread
  exact ⟨hread, rfl⟩

theorem ch_list_decoding_sample :
    ChListSafe (listContent listSample) 14 ∧ ChListExact (listContent listSample) 14 :=
  (ch_list_decoding_iff _ 14 (by decide)).mpr
    ⟨listSample, complete_listContent listSample, by decide, by decide, by decide⟩

/-- **A lone operating class**: its count is read behind the content. -/
theorem ch_list_decoding_overruns : ¬ ChListSafe (listContent []) 4 := by
  rintro ⟨-, hdump⟩
  obtain ⟨es, hes, -⟩ := (dumpSafe_iff (by decide)).mp hdump
  have htotal := hes.2
  cases es with
  | nil => exact absurd htotal (by decide)
  | cons e es =>
      have hsize := e.two_le_size
      rw [Tlv.total_cons] at htotal
      omega

end Rtl8812au.P2p

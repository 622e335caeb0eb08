import Rtl8812au.Beamforming.Report
import Rtl8812au.Lib.Reach

/-!
# Which reports are handled safely

The length of a report is not looked at, and neither is whether its transmitter has an entry. What
is compared is what the entry stored last, and nothing clears that when the entry changes hands, so
the counter goes by the transmitter's own reports only as long as these are what is stored.
-/

namespace Rtl8812au.Beamforming

/-! ## One report -/

/-- The entry exists, the compared length does not wrap and every access stays inside. -/
def SafelyHandled (myid : MacAddr) (b : Beam) (f : RecvFrame) : Prop :=
  (∃ b', b.onAction myid f = .done b')
    ∧ (∃ i, b.info.getEntryByAddr f.ta = some i)
    ∧ ∀ i offset, b.takes f = some (i, offset) → (f.len - offset).toNat + offset.toNat = f.len.toNat

/-- The transmitter has an entry, and a report that is compared has a length that fits it. -/
def Fits (b : Beam) (f : RecvFrame) : Prop :=
  (∃ i, b.info.getEntryByAddr f.ta = some i)
    ∧ ∀ i offset, b.takes f = some (i, offset) → offset ≤ f.len ∧ f.len.toNat ≤ preCsiReportSize

theorem byte_of_lt {f : RecvFrame} {k : Nat} (h : k < f.len.toNat) : f.byte k = .done (f.rxData k) :=
  if_pos h

/-- Both dispatchers lead a report to the handler. -/
theorem onAction_report {myid : MacAddr} {f : RecvFrame} (h : IsReport myid f) (b : Beam) :
    b.onAction myid f = b.getReportFrame f := by
  obtain ⟨hlen, haddr, hact⟩ := h
  have hlen : 26 ≤ f.len.toNat := hlen
  have hcat : f.byte wlanHdrA3Len = .done (f.rxData 24) := byte_of_lt (Nat.lt_of_lt_of_le (by decide) hlen)
  have haction : f.byte (wlanHdrA3Len + 1) = .done (f.rxData 25) :=
    byte_of_lt (Nat.lt_of_lt_of_le (by decide) hlen)
  rcases hact with ⟨h24, h25⟩ | ⟨h24, h25⟩
  · simp [Beam.onAction, Beam.onActionHt, Beam.onActionReport, hcat, haction, haddr, h24, h25]
  · simp [Beam.onAction, Beam.onActionVht, Beam.onActionReport, hcat, haction, haddr, h24, h25]

theorem byte_eq_done {f : RecvFrame} {k : Nat} {x : UInt8} (h : f.byte k = .done x) :
    k < f.len.toNat ∧ x = f.rxData k := by
  unfold RecvFrame.byte at h
  split at h
  · next hk =>
    cases h
    exact ⟨hk, rfl⟩
  · cases h

/-- A handler changes an entry for the frames of its category and action only. -/
theorem onActionReport_cases {category action : UInt8} {myid : MacAddr} {b b' : Beam} {f : RecvFrame}
    (h : b.onActionReport category action myid f = .done b') :
    b' = b ∨ wlanHdrA3Len + 2 ≤ f.len.toNat ∧ Wifi.getAddr1 f.rxData 0 = myid
      ∧ f.rxData 24 = category ∧ f.rxData 25 = action := by
  unfold Beam.onActionReport at h
  by_cases haddr : Wifi.getAddr1 f.rxData 0 = myid
  · rw [if_neg (not_not_intro haddr)] at h
    obtain ⟨c, hc, h⟩ := Outcome.bind_eq_done.mp h
    obtain ⟨-, rfl⟩ := byte_eq_done hc
    by_cases hcat : f.rxData wlanHdrA3Len = category
    · rw [if_neg (not_not_intro hcat)] at h
      obtain ⟨a, ha, h⟩ := Outcome.bind_eq_done.mp h
      obtain ⟨hlen, rfl⟩ := byte_eq_done ha
      by_cases hact : f.rxData (wlanHdrA3Len + 1) = action
      · exact Or.inr ⟨hlen, haddr, hcat, hact⟩
      · rw [if_neg hact] at h
        cases h
        exact Or.inl rfl
    · rw [if_pos hcat] at h
      cases h
      exact Or.inl rfl
  · rw [if_pos haddr] at h
    cases h
    exact Or.inl rfl

/-- A frame that is no report leaves the entries as they are. -/
theorem onAction_other {myid : MacAddr} {f : RecvFrame} (hnot : ¬ IsReport myid f) {b b' : Beam}
    (h : b.onAction myid f = .done b') : b' = b := by
  obtain ⟨c, -, h⟩ := Outcome.bind_eq_done.mp h
  by_cases h7 : c = 7
  · rw [if_pos h7] at h
    rcases onActionReport_cases h with hb | ⟨hlen, haddr, hcat, hact⟩
    · exact hb
    · exact absurd ⟨hlen, haddr, Or.inl ⟨hcat, hact⟩⟩ hnot
  · rw [if_neg h7] at h
    by_cases h21 : c = 21
    · rw [if_pos h21] at h
      rcases onActionReport_cases h with hb | ⟨hlen, haddr, hcat, hact⟩
      · exact hb
      · exact absurd ⟨hlen, haddr, Or.inr ⟨hcat, hact⟩⟩ hnot
    · rw [if_neg h21] at h
      cases h
      rfl

theorem reportOffset_cases {c : Cap} {offset : UInt32} (h : c.reportOffset = some offset) :
    offset.toNat = 31 ∨ offset.toNat = 34 := by
  unfold Cap.reportOffset at h
  split at h
  · cases h
    exact Or.inl rfl
  · split at h
    · cases h
      exact Or.inr rfl
    · cases h

theorem takes_iff {b : Beam} {f : RecvFrame} {i : EntryId} {offset : UInt32} :
    b.takes f = some (i, offset)
      ↔ b.info.getEntryByAddr f.ta = some i ∧ (b.info.entry i).cap.reportOffset = some offset := by
  unfold Beam.takes
  constructor
  · intro h
    obtain ⟨j, hj, h⟩ := Option.bind_eq_some_iff.mp h
    obtain ⟨o, ho, h⟩ := Option.bind_eq_some_iff.mp h
    cases h
    exact ⟨hj, ho⟩
  · rintro ⟨hi, ho⟩
    exact Option.bind_eq_some_iff.mpr ⟨i, hi, Option.bind_eq_some_iff.mpr ⟨offset, ho, rfl⟩⟩

/-- What `getReportFrame` makes of the entry. -/
def Csi.next (c : Csi) (offset : UInt32) (f : RecvFrame) : Csi :=
  let cnt := if c.preCsiReport.read offset.toNat (f.len.toNat - offset.toNat) == f.tail offset.toNat then
    c.defaultCsiCnt + 1 else 0
  { preCsiReport := c.preCsiReport.copy 0 f.rxData 0 f.len.toNat, defaultCsiCnt := cnt,
    bDefaultCsi := decide (20 < cnt) }

/-- A length below the offset wraps far beyond the report buffer. -/
theorem sub_toNat_wraps {len offset : UInt32} (h : ¬ offset ≤ len) (ho : offset.toNat ≤ 34) :
    preCsiReportSize < offset.toNat + (len - offset).toNat := by
  have hlt : len.toNat < offset.toNat := UInt32.lt_iff_toNat_lt.mp (UInt32.not_le.mp h)
  rw [UInt32.toNat_sub]
  unfold preCsiReportSize
  omega

theorem sub_toNat_of_le {len offset : UInt32} (h : offset ≤ len) :
    (len - offset).toNat = len.toNat - offset.toNat := UInt32.toNat_sub_of_le len offset h

/-- The handler where the entry takes the report. -/
theorem getReportFrame_takes {b : Beam} {f : RecvFrame} {i : EntryId} {offset : UInt32}
    (h : b.takes f = some (i, offset)) (hle : offset ≤ f.len) (hfit : f.len.toNat ≤ preCsiReportSize) :
    b.getReportFrame f = .done (b.setCsi i ((b.csi i).next offset f)) := by
  obtain ⟨hi, ho⟩ := takes_iff.mp h
  have hsub := sub_toNat_of_le hle
  have hle' : offset.toNat ≤ f.len.toNat := UInt32.le_iff_toNat_le.mp hle
  have hcmp : rtwMemcmp (b.csi i).preCsiReport preCsiReportSize f.rxData f.len.toNat offset.toNat
      (f.len - offset).toNat
        = .done ((b.csi i).preCsiReport.read offset.toNat (f.len.toNat - offset.toNat) == f.tail offset.toNat) := by
    rw [hsub]
    exact if_pos ⟨by omega, by omega⟩
  have hcpy : rtwMemcpy (b.csi i).preCsiReport preCsiReportSize f.rxData f.len.toNat f.len.toNat
      = .done ((b.csi i).preCsiReport.copy 0 f.rxData 0 f.len.toNat) := if_pos ⟨hfit, Nat.le_refl _⟩
  simp [Beam.getReportFrame, hi, ho, hcmp, hcpy, Csi.next]

/-- A report that does not fit makes the handler leave its buffers. -/
theorem getReportFrame_overrun {b : Beam} {f : RecvFrame} {i : EntryId} {offset : UInt32}
    (h : b.takes f = some (i, offset)) (hnot : ¬ (offset ≤ f.len ∧ f.len.toNat ≤ preCsiReportSize)) :
    b.getReportFrame f = .overrun := by
  obtain ⟨hi, ho⟩ := takes_iff.mp h
  have hoff : offset.toNat ≤ 34 := by
    rcases reportOffset_cases ho with h | h <;> omega
  have hcmp : rtwMemcmp (b.csi i).preCsiReport preCsiReportSize f.rxData f.len.toNat offset.toNat
      (f.len - offset).toNat = .overrun := by
    refine if_neg ?_
    rintro ⟨hpre, -⟩
    by_cases hle : offset ≤ f.len
    · rw [sub_toNat_of_le hle] at hpre
      have hle' : offset.toNat ≤ f.len.toNat := UInt32.le_iff_toNat_le.mp hle
      exact hnot ⟨hle, by omega⟩
    · exact absurd (sub_toNat_wraps hle hoff) (by omega)
  simp [Beam.getReportFrame, hi, ho, hcmp]

theorem takes_none {b : Beam} {f : RecvFrame} {i : EntryId} (hi : b.info.getEntryByAddr f.ta = some i)
    (h : b.takes f = none) : b.getReportFrame f = .done b := by
  have ho : (b.info.entry i).cap.reportOffset = none := by
    cases hcase : (b.info.entry i).cap.reportOffset with
    | none => rfl
    | some offset =>
        rw [takes_iff.mpr ⟨hi, hcase⟩] at h
        cases h
  simp [Beam.getReportFrame, hi, ho]

/-- **A report is handled safely exactly when it fits.** -/
theorem safelyHandled_iff {myid : MacAddr} {f : RecvFrame} (h : IsReport myid f) (b : Beam) :
    SafelyHandled myid b f ↔ Fits b f := by
  unfold SafelyHandled
  rw [onAction_report h]
  constructor
  · rintro ⟨⟨b', hdone⟩, hentry, -⟩
    refine ⟨hentry, fun i offset htakes => ?_⟩
    by_contra hnot
    rw [getReportFrame_overrun htakes hnot] at hdone
    cases hdone
  · rintro ⟨⟨i, hi⟩, hfit⟩
    refine ⟨?_, ⟨i, hi⟩, fun j offset htakes => ?_⟩
    · cases htakes : b.takes f with
      | none => exact ⟨b, takes_none hi htakes⟩
      | some p =>
          obtain ⟨hle, hsize⟩ := hfit p.1 p.2 htakes
          exact ⟨_, getReportFrame_takes htakes hle hsize⟩
    · obtain ⟨hle, -⟩ := hfit j offset htakes
      have hle' : offset.toNat ≤ f.len.toNat := UInt32.le_iff_toNat_le.mp hle
      rw [sub_toNat_of_le hle]
      omega

/-! ## The counter over a run -/

/-- A report with the bytes beyond the offset that its transmitter's report before it has there. -/
def Taken.Repeats (t : Taken) : Prop :=
  ∃ p, t.pred = some p ∧ p.tail t.offset = t.report.tail t.offset

/-- Each of the latest `n` reports repeats the report before it, which the entry took right before. -/
def Streak : List Taken → Nat → Prop
  | _, 0 => True
  | [], _ + 1 => False
  | t :: l, n + 1 => t.Repeats ∧ l.head?.map Taken.report = t.pred ∧ Streak l n

theorem Streak.mono {l : List Taken} {m n : Nat} (h : Streak l n) (hle : m ≤ n) : Streak l m := by
  induction l generalizing m n with
  | nil =>
      cases n with
      | zero =>
          rw [Nat.le_zero.mp hle]
          exact h
      | succ n => exact h.elim
  | cons t l ih =>
      cases m with
      | zero => exact trivial
      | succ m =>
          obtain ⟨n, rfl⟩ := Nat.exists_eq_succ_of_ne_zero (Nat.ne_of_gt (Nat.lt_of_lt_of_le m.succ_pos hle))
          exact ⟨h.1, h.2.1, ih h.2.2 (Nat.le_of_succ_le_succ hle)⟩

/-- The entry stored last the report that its transmitter sent before this one, which is as long
beyond the offset. -/
def FollowsStored (s : Sys) (i : EntryId) (offset : Nat) (f : RecvFrame) : Prop :=
  ∃ t l, s.taken i = t :: l ∧ s.last f.ta = some t.report
    ∧ t.report.len.toNat - offset = f.len.toNat - offset

/-- A report fits, and if it is found equal to what is stored then it follows what is stored. -/
def ActOk (myid : MacAddr) (s : Sys) : Act → Prop
  | .call _ => True
  | .recv f => IsReport myid f → Fits s.beam f ∧ ∀ i offset, s.beam.takes f = some (i, offset) →
      (s.beam.csi i).preCsiReport.read offset.toNat (f.len.toNat - offset.toNat) = f.tail offset.toNat →
        FollowsStored s i offset.toNat f

/-- The entry has stored the report. -/
def Csi.Stores (c : Csi) (f : RecvFrame) : Prop := ∀ k < f.len.toNat, c.preCsiReport k = f.rxData k

/-- The counter is no more than a streak of the entry, which stores the latest report it took. -/
def Counted (c : Csi) (l : List Taken) : Prop :=
  Streak l c.defaultCsiCnt.toNat ∧ ∀ t ∈ l.head?, c.Stores t.report

theorem next_stores (c : Csi) (offset : UInt32) (f : RecvFrame) : (c.next offset f).Stores f := by
  intro k hk
  show c.preCsiReport.copy 0 f.rxData 0 f.len.toNat k = _
  rw [Mem.copy_apply, if_pos ⟨Nat.zero_le _, by omega⟩, Nat.zero_add, Nat.sub_zero]

/-- What is stored of a report reads as its tail, where the lengths beyond the offset agree. -/
theorem Csi.Stores.read_tail {c : Csi} {p : RecvFrame} (h : c.Stores p) {offset n : Nat}
    (hn : p.len.toNat - offset = n) : c.preCsiReport.read offset n = p.tail offset := by
  subst hn
  exact Mem.read_congr fun k hk => h (offset + k) (by omega)

theorem succ_toNat_le (x : UInt8) : (x + 1).toNat ≤ x.toNat + 1 := by
  rw [UInt8.toNat_add]
  exact Nat.mod_le _ _

/-- **One report.** What the handler counts is a repetition. -/
theorem counted_next {s : Sys} {i : EntryId} {offset : UInt32} {f : RecvFrame}
    (h : Counted (s.beam.csi i) (s.taken i))
    (hok : (s.beam.csi i).preCsiReport.read offset.toNat (f.len.toNat - offset.toNat) = f.tail offset.toNat →
      FollowsStored s i offset.toNat f) :
    Counted ((s.beam.csi i).next offset f) (⟨f, s.last f.ta, offset.toNat⟩ :: s.taken i) := by
  refine ⟨?_, fun t ht => ?_⟩
  · by_cases heq : (s.beam.csi i).preCsiReport.read offset.toNat (f.len.toNat - offset.toNat) = f.tail offset.toNat
    · obtain ⟨t, l, hl, hlast, hlen⟩ := hok heq
      have hcnt : ((s.beam.csi i).next offset f).defaultCsiCnt = (s.beam.csi i).defaultCsiCnt + 1 :=
        if_pos (beq_iff_eq.mpr heq)
      have hstored : (s.beam.csi i).Stores t.report := h.2 t (by rw [hl]; rfl)
      have hrep : t.report.tail offset.toNat = f.tail offset.toNat := (hstored.read_tail hlen).symm.trans heq
      have hstreak : Streak (⟨f, s.last f.ta, offset.toNat⟩ :: s.taken i)
          ((s.beam.csi i).defaultCsiCnt.toNat + 1) :=
        ⟨⟨t.report, hlast, hrep⟩, by rw [hl]; exact hlast.symm, h.1⟩
      rw [hcnt]
      exact hstreak.mono (succ_toNat_le _)
    · have hcnt : ((s.beam.csi i).next offset f).defaultCsiCnt = 0 :=
        if_neg fun hbeq => heq (beq_iff_eq.mp hbeq)
      rw [hcnt]
      exact trivial
  · obtain rfl := Option.mem_some_iff.mp ht
    exact next_stores _ _ _

/-- The invariant of a run. -/
def SysCounted (s : Sys) : Prop := ∀ i, Counted (s.beam.csi i) (s.taken i)

theorem note_taken_of_none {s : Sys} {f : RecvFrame} (h : s.beam.takes f = none) :
    (s.note f).taken = s.taken := by
  funext j
  simp [Sys.note, h]

theorem note_taken_of_some {s : Sys} {f : RecvFrame} {i : EntryId} {offset : UInt32}
    (h : s.beam.takes f = some (i, offset)) (j : EntryId) :
    (s.note f).taken j
      = if j = i then ⟨f, s.last f.ta, offset.toNat⟩ :: s.taken j else s.taken j := by
  simp [Sys.note, h]

/-- **A step keeps it.** -/
theorem sysCounted_step {myid : MacAddr} {s s' : Sys} {a : Act} (h : SysCounted s) (hok : ActOk myid s a)
    (hstep : s.step myid a = .done s') : SysCounted s' := by
  cases a with
  | call c =>
      cases hstep
      exact h
  | recv f =>
      obtain ⟨b, hb, hrest⟩ := Outcome.bind_eq_done.mp hstep
      by_cases hrep : IsReport myid f
      · rw [if_pos hrep] at hrest
        cases hrest
        obtain ⟨hfits, hfollow⟩ := hok hrep
        rw [onAction_report hrep] at hb
        cases htakes : s.beam.takes f with
        | none =>
            obtain ⟨i, hi⟩ := hfits.1
            rw [takes_none hi htakes] at hb
            cases hb
            intro j
            show Counted (s.beam.csi j) ((s.note f).taken j)
            rw [note_taken_of_none htakes]
            exact h j
        | some p =>
            obtain ⟨hle, hsize⟩ := hfits.2 p.1 p.2 htakes
            rw [getReportFrame_takes htakes hle hsize] at hb
            cases hb
            intro j
            show Counted (if j = p.1 then _ else s.beam.csi j) ((s.note f).taken j)
            rw [note_taken_of_some htakes]
            by_cases hj : j = p.1
            · rw [if_pos hj, if_pos hj, hj]
              exact counted_next (h p.1) (hfollow p.1 p.2 htakes)
            · rw [if_neg hj, if_neg hj]
              exact h j
      · rw [if_neg hrep, onAction_other hrep hb] at hrest
        cases hrest
        exact h

theorem sysCounted_init : SysCounted {} := fun _ => ⟨trivial, fun _ ht => absurd ht (Option.not_mem_none _)⟩

/-- **Over a run** whose reports follow what is stored, a counter is no more than a streak. -/
theorem sysCounted_reach {myid : MacAddr} {s : Sys} (h : Reach (Sys.step myid) (ActOk myid) {} s) :
    SysCounted s :=
  h.invariant SysCounted sysCounted_init sysCounted_step

/-! ## A station that sends one report again and again -/

/-- Entry `i` has counted to `n` and stored `f`, the latest report of its transmitter. -/
structure Repeating (s : Sys) (i : EntryId) (offset : UInt32) (f : RecvFrame) (n : UInt8) : Prop where
  takes : s.beam.takes f = some (i, offset)
  taken : ∃ t l, s.taken i = t :: l ∧ t.report = f
  last : s.last f.ta = some f
  stores : (s.beam.csi i).Stores f
  count : (s.beam.csi i).defaultCsiCnt = n

section

variable {myid : MacAddr} {s : Sys} {i : EntryId} {offset : UInt32} {f : RecvFrame} {n : UInt8}

theorem recv_takes (hrep : IsReport myid f) (h : s.beam.takes f = some (i, offset)) (hle : offset ≤ f.len)
    (hsize : f.len.toNat ≤ preCsiReportSize) :
    s.step myid (.recv f)
      = .done { s.note f with beam := s.beam.setCsi i ((s.beam.csi i).next offset f) } := by
  simp [Sys.step, onAction_report hrep, getReportFrame_takes h hle hsize, if_pos hrep]

theorem fits_of_takes (h : s.beam.takes f = some (i, offset)) (hle : offset ≤ f.len)
    (hsize : f.len.toNat ≤ preCsiReportSize) : Fits s.beam f := by
  refine ⟨⟨i, (takes_iff.mp h).1⟩, fun j o hj => ?_⟩
  rw [h] at hj
  cases hj
  exact ⟨hle, hsize⟩

/-- What a report leaves that an entry has taken. -/
theorem repeating_recv (h : s.beam.takes f = some (i, offset)) :
    Repeating { s.note f with beam := s.beam.setCsi i ((s.beam.csi i).next offset f) } i offset f
      ((s.beam.csi i).next offset f).defaultCsiCnt := by
  have hself : (s.beam.setCsi i ((s.beam.csi i).next offset f)).csi i = (s.beam.csi i).next offset f :=
    if_pos rfl
  refine ⟨h, ?_, if_pos rfl, ?_, congrArg Csi.defaultCsiCnt hself⟩
  · exact ⟨_, _, (note_taken_of_some h i).trans (if_pos rfl), rfl⟩
  · show ((s.beam.setCsi i ((s.beam.csi i).next offset f)).csi i).Stores f
    rw [hself]
    exact next_stores _ _ _

theorem repeating_step (hrep : IsReport myid f) (hle : offset ≤ f.len)
    (hsize : f.len.toNat ≤ preCsiReportSize) (h : Repeating s i offset f n) :
    ActOk myid s (.recv f)
      ∧ ∃ s', s.step myid (.recv f) = .done s' ∧ Repeating s' i offset f (n + 1) := by
  obtain ⟨t, l, hl, ht⟩ := h.taken
  refine ⟨fun _ => ⟨fits_of_takes h.takes hle hsize, fun j o hj _ => ?_⟩, _,
    recv_takes hrep h.takes hle hsize, ?_⟩
  · rw [h.takes] at hj
    cases hj
    exact ⟨t, l, hl, by rw [ht]; exact h.last, by rw [ht]⟩
  · have hread := h.stores.read_tail (n := f.len.toNat - offset.toNat) rfl
    have hcnt : ((s.beam.csi i).next offset f).defaultCsiCnt = n + 1 := by
      rw [← h.count]
      exact if_pos (beq_iff_eq.mpr hread)
    rw [← hcnt]
    exact repeating_recv h.takes

/-- Every reception is counted. -/
theorem repeating_reach (hrep : IsReport myid f) (hle : offset ≤ f.len)
    (hsize : f.len.toNat ≤ preCsiReportSize) (hs : Reach (Sys.step myid) (ActOk myid) {} s)
    (h : Repeating s i offset f n) (k : Nat) :
    ∃ s', Reach (Sys.step myid) (ActOk myid) {} s' ∧ Repeating s' i offset f (n + UInt8.ofNat k) := by
  induction k with
  | zero => exact ⟨s, hs, by simpa using h⟩
  | succ k ih =>
      obtain ⟨t, ht, hrt⟩ := ih
      obtain ⟨hok, t', hstep, hrt'⟩ := repeating_step hrep hle hsize hrt
      refine ⟨t', ht.next hok hstep, ?_⟩
      rwa [UInt8.ofNat_add, ← UInt8.add_assoc]

end

/-- **Reports are handled safely exactly when they fit, and where those found equal follow what is
stored, the counter exceeds 20 only after 21 repetitions.** -/
theorem reports_handled_iff (myid : MacAddr) :
    (∀ b f, IsReport myid f → (SafelyHandled myid b f ↔ Fits b f))
      ∧ ∀ s, Reach (Sys.step myid) (ActOk myid) {} s →
        ∀ i, 20 < (s.beam.csi i).defaultCsiCnt → Streak (s.taken i) 21 := by
  refine ⟨fun b f h => safelyHandled_iff h b, fun s h i hcnt => ?_⟩
  exact (sysCounted_reach h i).1.mono (UInt8.lt_iff_toNat_lt.mp hcnt)

/-- A VHT report from one station to another, with 1 in every byte behind the action. -/
def sampleReport (len : UInt32) : RecvFrame where
  rxData := fun k =>
    (([0xd0, 0, 0, 0] ++ [2, 0, 0, 0, 0, 1] ++ [2, 0, 0, 0, 0, 2] ++ [2, 0, 0, 0, 0, 2] ++ [0, 0]
      ++ [21, 0] : List UInt8)[k]?).getD 1
  len := len

/-- Its receiver. -/
def sampleSelf : MacAddr := ⟨2, 0, 0, 0, 0, 1⟩

/-- Its transmitter enters, a VHT beamformee. -/
def sampleEnter : Call :=
  .enter { htBeamformCap := 0, vhtBeamformCap := 1, apState := false, adhocState := false, macAddr5 := 1 }
    { hwaddr := ⟨2, 0, 0, 0, 0, 2⟩, aid := 1, macId := 1, wirelessMode := 0x40, bwMode := .w80,
      htBeamformCap := 0, vhtBeamformCap := 2 }

/-- The table with its entry. -/
def sampleBeam : Beam := { info := run [sampleEnter] }

theorem sampleReport_takes (len : UInt32) : sampleBeam.takes (sampleReport len) = some (0, 31) := by
  have hta : (sampleReport len).ta = ⟨2, 0, 0, 0, 0, 2⟩ := rfl
  refine takes_iff.mpr ?_
  rw [hta]
  decide

theorem reports_handled_sample :
    SafelyHandled sampleSelf sampleBeam (sampleReport 100)
      ∧ ∃ s : Sys, 20 < (s.beam.csi 0).defaultCsiCnt ∧ Streak (s.taken 0) 21 := by
  have hrep : IsReport sampleSelf (sampleReport 100) := by decide
  have hle : (31 : UInt32) ≤ (sampleReport 100).len := by decide
  have hsize : (sampleReport 100).len.toNat ≤ preCsiReportSize := by decide
  have hentered : Reach (Sys.step sampleSelf) (ActOk sampleSelf) {} { beam := sampleBeam } :=
    Reach.start.next (a := .call sampleEnter) trivial rfl
  have htakes := sampleReport_takes 100
  have hfits : Fits sampleBeam (sampleReport 100) :=
    fits_of_takes (s := { beam := sampleBeam }) htakes hle hsize
  refine ⟨((reports_handled_iff sampleSelf).1 sampleBeam _ hrep).mpr hfits, ?_⟩
  -- the first report differs from the zeroes that nobody has sent
  have hok : ActOk sampleSelf { beam := sampleBeam } (.recv (sampleReport 100)) := by
    refine fun _ => ⟨hfits, fun i offset h heq => ?_⟩
    rw [htakes] at h
    cases h
    exact absurd heq (by decide)
  have hfirst := hentered.next hok (recv_takes hrep htakes hle hsize)
  obtain ⟨s, hs, hrepeat⟩ := repeating_reach hrep hle hsize hfirst (repeating_recv htakes) 21
  have hcnt : 20 < (s.beam.csi 0).defaultCsiCnt := by
    rw [hrepeat.count]
    decide
  exact ⟨s, hcnt, (reports_handled_iff sampleSelf).2 s hs 0 hcnt⟩

/-- A report from a station without an entry, one longer than the buffer and one shorter than the
offset. -/
theorem reports_not_safe :
    (IsReport sampleSelf (sampleReport 100) ∧ ¬ SafelyHandled sampleSelf {} (sampleReport 100))
      ∧ (IsReport sampleSelf (sampleReport 328) ∧ ¬ SafelyHandled sampleSelf sampleBeam (sampleReport 328))
      ∧ IsReport sampleSelf (sampleReport 26) ∧ ¬ SafelyHandled sampleSelf sampleBeam (sampleReport 26) := by
  refine ⟨⟨by decide, ?_⟩, ⟨by decide, ?_⟩, by decide, ?_⟩
  · rintro ⟨-, ⟨i, hi⟩, -⟩
    cases hi
  · rintro ⟨⟨b, hb⟩, -⟩
    rw [onAction_report (by decide),
      getReportFrame_overrun (sampleReport_takes 328) (by decide)] at hb
    cases hb
  · rintro ⟨-, -, hsub⟩
    exact absurd (hsub 0 31 (sampleReport_takes 26)) (by decide)

end Rtl8812au.Beamforming

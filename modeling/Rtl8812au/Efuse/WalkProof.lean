import Mathlib.Data.List.Induction
import Rtl8812au.Efuse.Log

/-!
# Do the walkers agree?

Two things come between them. `Hal_EfuseReadEFuse8812A` leaves the address behind the byte that ends
the log in `EfuseUsedBytes`, so that `hal_EfuseGetCurrentSize_8812A` is one byte off from then on. And
`hal_EfusePgPacketRead_8812A` reads the words of a packet into a buffer from its start on, but takes
them out of it at the places they have in the section; and it passes over a packet whose data are
not programmed, which for the map means that the words are 0xFFFF again.

So the sizes are right exactly when none is asked for behind a read of the map; and the sections are
right exactly when every byte that counts also stands where it is looked for. The latter is so in a
log of packets that are not blank and have their words from the first one on.
-/

namespace Rtl8812au.Efuse

/-! ## Sizes -/

/-- An efuse that holds `ps` and ends before the reserved tail. -/
structure Holds (c : Mem) (ps : List Packet) : Prop where
  log : Log c 0 ps
  room : endOf 0 ps ≤ realContentLen - oobProtectBytes

namespace Holds

variable {c : Mem} {ps : List Packet}

theorem fuel (h : Holds c ps) : ps.length < realContentLen := by
  have h1 := length_le_endOf 0 ps
  have h2 := h.room
  unfold realContentLen oobProtectBytes at *
  omega

theorem room_lt (h : Holds c ps) : endOf 0 ps + 6 < realContentLen := by
  have h2 := h.room
  unfold realContentLen oobProtectBytes at *
  omega

/-- From the start the end is found. -/
theorem size_start (h : Holds c ps) : currentSizeLoop c realContentLen 0 = endOf 0 ps := by
  have hroom := h.room_lt
  exact currentSizeLoop_log ps 0 _ h.log (by omega) h.fuel

end Holds

/-- A read that walks the log. -/
def Call.walks : Call → Bool
  | .readEFuse offset sizeByte => offset + sizeByte ≤ mapLen
  | _ => false

/-- No size is asked for behind a read of the map. -/
def SizesFirst : List Call → Prop
  | [] => True
  | call :: calls => (call.walks = true → Call.currentSize ∉ calls) ∧ SizesFirst calls

theorem sizesFirst_of_notMem : ∀ {calls : List Call}, Call.currentSize ∉ calls →
    SizesFirst calls := by
  intro calls
  induction calls with
  | nil =>
      intro _
      exact trivial
  | cons call calls ih =>
      intro h
      have hrest : Call.currentSize ∉ calls := fun hmem => h (List.mem_cons_of_mem call hmem)
      exact ⟨fun _ => hrest, ih hrest⟩

section

variable {c : Mem} {ps : List Packet}

/-- Once the map was read the sizes are one too large. -/
theorem sizes_after_read (h : Holds c ps) (hne : ps ≠ []) {rep : Nat} : ∀ (calls : List Call),
    (∀ n ∈ sizes ⟨c, endOf 0 ps + 1, rep⟩ calls, n = endOf 0 ps) ↔ Call.currentSize ∉ calls := by
  have hroom := h.room_lt
  have hsize := h.log.size_behind (Nat.le_succ (endOf 0 ps)) (by omega)
  intro calls
  induction calls with
  | nil => simp [sizes]
  | cons call calls ih =>
      cases call with
      | currentSize =>
          refine iff_of_false (fun hall => ?_) (fun hmem => hmem List.mem_cons_self)
          have hfirst : endOf 0 ps + 1 = endOf 0 ps := by
            refine hall _ ?_
            unfold sizes Call.run halEfuseGetCurrentSize
            dsimp only
            rw [hsize]
            exact List.mem_cons_self
          omega
      | readEFuse offset sizeByte =>
          have hsame : (halEfuseReadEFuse offset sizeByte (fun _ => 0xff)
              ⟨c, endOf 0 ps + 1, rep⟩).2 = ⟨c, endOf 0 ps + 1, rep⟩ := by
            by_cases hle : offset + sizeByte ≤ mapLen
            · rw [readEFuse_log h.log h.room_lt hne hle]
            · unfold halEfuseReadEFuse
              rw [if_pos (by omega)]
          rw [sizes]
          unfold Call.run
          dsimp only
          rw [hsame, List.mem_cons]
          simpa using ih
      | pgPacketRead offset =>
          rw [sizes, List.mem_cons]
          simpa [Call.run] using ih

/-- **The sizes are right** exactly when none is asked for behind a read of a map that is not
empty. -/
theorem sizes_iff (h : Holds c ps) {rep : Nat} : ∀ (calls : List Call) (used : Nat),
    used = 0 ∨ used = endOf 0 ps →
    ((∀ n ∈ sizes ⟨c, used, rep⟩ calls, n = endOf 0 ps) ↔ ps = [] ∨ SizesFirst calls) := by
  have hroom := h.room_lt
  -- a walk ends at the end of the log, from the start or from the end
  have hsize : ∀ used, used = 0 ∨ used = endOf 0 ps →
      currentSizeLoop c realContentLen used = endOf 0 ps := by
    intro used hused
    rcases hused with rfl | rfl
    · exact h.size_start
    · exact h.log.size_behind (Nat.le_refl _) (by omega)
  intro calls
  induction calls with
  | nil =>
      intro used _
      simp [sizes, SizesFirst]
  | cons call calls ih =>
      intro used hused
      cases call with
      | currentSize =>
          -- the size is right, and what is left starts from the end of the log
          have hs := ih (endOf 0 ps) (Or.inr rfl)
          rw [sizes]
          unfold Call.run halEfuseGetCurrentSize
          dsimp only
          rw [hsize used hused]
          simpa [SizesFirst, Call.walks] using hs
      | readEFuse offset sizeByte =>
          rw [sizes]
          unfold Call.run
          dsimp only
          by_cases hwalk : offset + sizeByte ≤ mapLen ∧ ps ≠ []
          · -- from here on the address is one too large
            rw [readEFuse_log h.log h.room_lt hwalk.2 hwalk.1]
            have hs := @sizes_after_read c ps h hwalk.2 rep calls
            have hw : (Call.readEFuse offset sizeByte).walks = true := by
              simpa [Call.walks] using hwalk.1
            rw [Option.toList_none, List.nil_append, hs]
            constructor
            · intro hnot
              exact Or.inr ⟨fun _ => hnot, sizesFirst_of_notMem hnot⟩
            · intro hor
              rcases hor with hnil | hfirst
              · exact absurd hnil hwalk.2
              · exact hfirst.1 hw
          -- a read that walks over nothing leaves the address where it is
          · have hsame : (halEfuseReadEFuse offset sizeByte (fun _ => 0xff) ⟨c, used, rep⟩).2
                = ⟨c, used, rep⟩ := by
              unfold halEfuseReadEFuse
              by_cases hle : offset + sizeByte ≤ mapLen
              · have hnil : ps = [] := not_not.mp fun hne => hwalk ⟨hle, hne⟩
                have hff : c 0 = 0xff := by
                  refine h.log.tail ?_ (by decide)
                  rw [hnil]
                  exact Nat.le_refl _
                rw [if_neg (by omega), if_pos hff]
              · rw [if_pos (by omega)]
            have hs := ih used hused
            rw [hsame, Option.toList_none, List.nil_append, hs, SizesFirst]
            refine or_congr_right' fun hne => ?_
            have hw : ¬ (Call.readEFuse offset sizeByte).walks = true := by
              intro hw
              exact hwalk ⟨by simpa [Call.walks] using hw, hne⟩
            exact ⟨fun hf => ⟨fun hw' => absurd hw' hw, hf⟩, fun hf => hf.2⟩
      | pgPacketRead offset =>
          have hs := ih used hused
          rw [sizes]
          simpa [Call.run, SizesFirst, Call.walks] using hs

end

/-! ## Sections -/

/-- The packets of a section, the last one first. -/
def sectionLog (ps : List Packet) (s : Nat) : List Packet := (ps.filter (·.offset = s)).reverse

/-- Byte `k` of a section: what the last packet has for it that enables its word. -/
def stored : List Packet → Nat → UInt8
  | [], _ => 0xff
  | p :: older, k => if p.enables (k / 2) then p.byte k else stored older k

/-- What stands at place `k` if the data of the packets are laid over each other from the start
on. -/
def place : List Packet → Nat → UInt8
  | [], _ => 0xff
  | p :: older, k => if k < p.data.length then p.data.getD k 0xff else place older k

/-- The place that is looked at: at the last packet that is not blank and enables the word. -/
def shown : List Packet → Nat → UInt8
  | [], _ => 0xff
  | p :: older, k => if p.enables (k / 2) && !p.blank then place (p :: older) k else shown older k

theorem sectionLog_append (ps : List Packet) (p : Packet) (s : Nat) :
    sectionLog (ps ++ [p]) s
      = if p.offset = s then p :: sectionLog ps s else sectionLog ps s := by
  unfold sectionLog
  rw [List.filter_append, List.reverse_append]
  by_cases hs : p.offset = s
  · rw [if_pos hs]
    simp [hs]
  · rw [if_neg hs]
    simp [hs]

theorem logWords_append (ps : List Packet) (p : Packet) :
    logWords (ps ++ [p]) = applyPacket (logWords ps) p := by
  unfold logWords
  rw [List.foldl_append]
  rfl

/-- **The map holds what was stored last.** -/
theorem efuseTbl_logWords (ps : List Packet) {s k : Nat} (hk : k < 8) :
    efuseTbl (logWords ps) (8 * s + k) = stored (sectionLog ps s) k := by
  have hdiv : (8 * s + k) / 8 = s := by omega
  have hmod : (8 * s + k) % 8 = k := by omega
  have hpar : (8 * s + k) % 2 = k % 2 := by omega
  unfold efuseTbl
  rw [hdiv, hmod, hpar]
  induction ps using List.reverseRecOn with
  | nil =>
      split
      · rfl
      · rfl
  | append_singleton ps p ih =>
      rw [logWords_append, sectionLog_append]
      by_cases hs : p.offset = s
      · rw [if_pos hs, stored]
        by_cases hen : p.enables (k / 2) = true
        · have happ : applyPacket (logWords ps) p s (k / 2)
              = (p.byte (2 * (k / 2)), p.byte (2 * (k / 2) + 1)) := if_pos ⟨hs.symm, hen⟩
          rw [happ, if_pos hen]
          split
          · rename_i heven
            have hk2 : 2 * (k / 2) = k := by omega
            dsimp only
            rw [hk2]
          · have hk2 : 2 * (k / 2) + 1 = k := by omega
            dsimp only
            rw [hk2]
        · have happ : applyPacket (logWords ps) p s (k / 2) = logWords ps s (k / 2) :=
            if_neg fun h => hen h.2
          rw [happ, if_neg hen]
          exact ih
      · have happ : applyPacket (logWords ps) p s (k / 2) = logWords ps s (k / 2) :=
          if_neg fun h => hs h.1.symm
        rw [happ, if_neg hs]
        exact ih

/-- **What the third walker has in its two buffers.** -/
theorem showPacket_log (ps : List Packet) (s : Nat) :
    (∀ k, (ps.foldl (showPacket s) (fun _ => 0xff, fun _ => 0xff)).1 k = place (sectionLog ps s) k)
      ∧ ∀ k < 8, (ps.foldl (showPacket s) (fun _ => 0xff, fun _ => 0xff)).2 k
        = shown (sectionLog ps s) k := by
  induction ps using List.reverseRecOn with
  | nil => exact ⟨fun _ => rfl, fun _ _ => rfl⟩
  | append_singleton ps p ih =>
      obtain ⟨ih1, ih2⟩ := ih
      rw [List.foldl_append, List.foldl_cons, List.foldl_nil, sectionLog_append]
      generalize ps.foldl (showPacket s) (fun _ => 0xff, fun _ => 0xff) = b at ih1 ih2 ⊢
      unfold showPacket
      by_cases hs : p.offset = s
      · rw [if_pos hs, if_pos hs]
        have hplace : ∀ k, overlay p b.1 k = place (p :: sectionLog ps s) k := by
          intro k
          unfold overlay
          rw [place, ih1 k]
        refine ⟨hplace, ?_⟩
        intro k hk
        have hen : p.enables (k / 2) = !p.wordEn.testBit (k / 2) := by
          unfold Packet.enables
          rw [decide_eq_true (by omega : k / 2 < 4), Bool.true_and]
        rw [shown, hen]
        cases hb : p.blank with
        | true =>
            rw [if_pos rfl, if_neg (by simp)]
            exact ih2 k hk
        | false =>
            dsimp only
            rw [if_neg Bool.false_ne_true]
            unfold efuseWordEnableDataRead
            cases hbit : p.wordEn.testBit (k / 2) with
            | false =>
                have htrue : (!false && !false) = true := rfl
                rw [if_pos ⟨hk, rfl⟩, if_pos htrue]
                exact hplace k
            | true =>
                rw [if_neg (by simp), if_neg (by simp)]
                exact ih2 k hk
      · rw [if_neg hs, if_neg hs]
        exact ⟨ih1, ih2⟩

/-! ## Agreement -/

theorem read_eq_iff {m m' : Mem} {a b n : Nat} :
    m.read a n = m'.read b n ↔ ∀ k < n, m (a + k) = m' (b + k) := by
  unfold Mem.read
  rw [List.map_inj_left]
  simp

/-- The three walkers agree about an efuse that holds `ps`: every size that a series of calls
returns is the end of the log, and every section is read as it is in the map. -/
def WalkersAgree (c : Mem) (ps : List Packet) (calls : List Call) : Prop :=
  (∀ n ∈ sizes ⟨c, 0, 0⟩ calls, n = endOf 0 ps)
    ∧ ∀ e : EfuseState, e.cells = c → ∀ s < maxSection, ∀ data,
      (halEfusePgPacketRead s data e).2.read 0 8 = (efuseMap e).read (8 * s) 8

section

variable {c : Mem} {ps : List Packet}

theorem Holds.efuseMap (h : Holds c ps) {e : EfuseState} (he : e.cells = c) {s k : Nat}
    (hs : s < maxSection) (hk : k < 8) :
    Efuse.efuseMap e (8 * s + k) = stored (sectionLog ps s) k := by
  have hlt : 8 * s + k < mapLen := by
    unfold maxSection at hs
    unfold mapLen
    omega
  rw [← he] at h
  rw [efuseMap_log h.log h.room_lt hlt, efuseTbl_logWords ps hk]

theorem Holds.pgPacketRead (h : Holds c ps) {e : EfuseState} (he : e.cells = c) {s k : Nat}
    {data : Mem} (hs : s < maxSection) (hk : k < 8) :
    (halEfusePgPacketRead s data e).2 k = shown (sectionLog ps s) k := by
  have hroom := h.room_lt
  have hfuel := h.fuel
  have hloop := pgReadLoop_log (s := s) ps 0 (2 * realContentLen) (fun _ => 0xff) (fun _ => 0xff)
    h.log (by omega) (by omega)
  unfold halEfusePgPacketRead
  rw [if_neg (by omega), he]
  dsimp only
  rw [hloop]
  exact (showPacket_log ps s).2 k hk

/-- **When the walkers agree.** No size is asked for behind a read of a log that is not empty, and in
every section each byte that was stored last also stands at the place that is looked at. -/
theorem walkers_agree_iff (h : Holds c ps) (calls : List Call) :
    WalkersAgree c ps calls
      ↔ (ps = [] ∨ SizesFirst calls)
        ∧ ∀ s < maxSection, ∀ k < 8, shown (sectionLog ps s) k = stored (sectionLog ps s) k := by
  refine and_congr (sizes_iff h calls 0 (Or.inl rfl)) ?_
  constructor
  · intro hall s hs k hk
    have hread := read_eq_iff.mp (hall ⟨c, 0, 0⟩ rfl s hs (fun _ => 0)) k hk
    rw [Nat.zero_add, h.pgPacketRead rfl hs hk, h.efuseMap rfl hs hk] at hread
    exact hread
  · intro hall e he s hs data
    refine read_eq_iff.mpr fun k hk => ?_
    rw [Nat.zero_add, h.pgPacketRead he hs hk, h.efuseMap he hs hk]
    exact hall s hs k hk

end

/-! ## Logs where they do -/

/-- The enabled words are the first ones. -/
def Packet.Leading (p : Packet) : Prop := ∀ i, p.enables i = true → rank p.wordEn i = i

/-- In a log of packets that are not blank and have their words from the first one on, every byte is
where it is looked for. -/
theorem shown_eq_stored : ∀ {ps : List Packet}, (∀ p ∈ ps, p.Leading ∧ p.blank = false) →
    ∀ k, shown ps k = stored ps k := by
  intro ps
  induction ps with
  | nil =>
      intro _ k
      rfl
  | cons p ps ih =>
      intro h k
      obtain ⟨hlead, hb⟩ := h p List.mem_cons_self
      rw [shown, stored, hb]
      cases hen : p.enables (k / 2) with
      | false =>
          rw [if_neg (by simp), if_neg (by simp)]
          exact ih (fun q hq => h q (List.mem_cons_of_mem p hq)) k
      | true =>
          have hrank := hlead _ hen
          have hk : k / 2 * 2 + k % 2 = k := by omega
          have hword : k / 2 < 4 ∧ p.wordEn.testBit (k / 2) = false := by
            simpa [Packet.enables] using hen
          have hlt := rank_lt hword.1 hword.2
          have hlen := p.length_data
          have htrue : (true && !false) = true := rfl
          rw [if_pos htrue, place, if_pos (by omega), if_pos rfl]
          unfold Packet.byte
          rw [hrank, hk]

/-! ## Cells for a list of packets -/

/-- An efuse that was programmed with `bs` from the first cell on. -/
def cellsOf (bs : List UInt8) : Mem := fun k => bs.getD k 0xff

theorem log_cellsOf : ∀ (ps : List Packet) (pre : List UInt8),
    Log (cellsOf (pre ++ ps.flatMap Packet.bytes)) pre.length ps := by
  intro ps
  induction ps with
  | nil =>
      intro pre k hk _
      unfold cellsOf
      rw [List.flatMap_nil, List.append_nil, List.getD_eq_getElem?_getD,
        List.getElem?_eq_none hk]
      rfl
  | cons p ps ih =>
      intro pre
      have hread : (cellsOf (pre ++ (p :: ps).flatMap Packet.bytes)).read pre.length p.len
          = p.bytes := by
        rw [List.flatMap_cons, ← p.length_bytes]
        exact Mem.read_getD pre p.bytes (ps.flatMap Packet.bytes)
      have hrest := ih (pre ++ p.bytes)
      rw [List.append_assoc, List.length_append, p.length_bytes] at hrest
      exact ⟨hread, hrest⟩

/-- Two packets of section 3, the second one longer than the first. -/
def samplePackets : List Packet :=
  [⟨3, 0xe, false, [1, 2], by decide, by decide, by decide, rfl⟩,
    ⟨3, 0xc, true, [3, 4, 5, 6], by decide, by decide, by decide, rfl⟩]

theorem samplePackets_hold : Holds (cellsOf (samplePackets.flatMap Packet.bytes)) samplePackets :=
  ⟨log_cellsOf samplePackets [], by decide⟩

theorem walkers_agree_sample :
    WalkersAgree (cellsOf (samplePackets.flatMap Packet.bytes)) samplePackets
      [.currentSize, .readEFuse 0 512, .pgPacketRead 3] := by
  refine (walkers_agree_iff samplePackets_hold _).mpr ⟨Or.inr ⟨?_, ?_, ?_, trivial⟩, ?_⟩
  · intro h
    cases h
  · intro _
    decide
  · intro h
    cases h
  · decide

/-- A packet that has only word 1. -/
def gapPackets : List Packet := [⟨0, 0xd, false, [0x34, 0x12], by decide, by decide, by decide, rfl⟩]

/-- Its end is 3, but 4 behind a read of the map; and the section is read as unprogrammed. -/
theorem walkers_disagree :
    Holds (cellsOf (gapPackets.flatMap Packet.bytes)) gapPackets
      ∧ sizes ⟨cellsOf (gapPackets.flatMap Packet.bytes), 0, 0⟩ [.readEFuse 0 512, .currentSize] = [4]
      ∧ endOf 0 gapPackets = 3
      ∧ (halEfusePgPacketRead 0 (fun _ => 0) ⟨cellsOf (gapPackets.flatMap Packet.bytes), 0, 0⟩).2.read
          0 8 = [0xff, 0xff, 0xff, 0xff, 0xff, 0xff, 0xff, 0xff]
      ∧ (efuseMap ⟨cellsOf (gapPackets.flatMap Packet.bytes), 0, 0⟩).read 0 8
        = [0xff, 0xff, 0x34, 0x12, 0xff, 0xff, 0xff, 0xff]
      ∧ ¬ WalkersAgree (cellsOf (gapPackets.flatMap Packet.bytes)) gapPackets
          [.readEFuse 0 512, .currentSize] := by
  have hsizes : sizes ⟨cellsOf (gapPackets.flatMap Packet.bytes), 0, 0⟩
      [.readEFuse 0 512, .currentSize] = [4] := by decide
  refine ⟨⟨log_cellsOf gapPackets [], by decide⟩, hsizes, rfl, by decide, by decide, ?_⟩
  intro h
  have hfour := h.1 4 (by rw [hsizes]; exact List.mem_cons_self)
  exact absurd hfour (by decide)

end Rtl8812au.Efuse

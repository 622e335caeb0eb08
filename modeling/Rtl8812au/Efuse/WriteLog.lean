import Rtl8812au.Efuse.Log
import Rtl8812au.Efuse.Write

/-!
# What a write does to the log

`hal_EfusePgPacketWrite_8812A` walks the log once more. The first packet of the section that is still
blank and shares a word with what is to be written takes the data; if there is none, a new packet
goes behind the log. `logWrite` says that of the list of packets, and `Fits` when it is all that
happens: the blank packet has room for every word, or the new header ends below the reserved tail.

A blank packet is good for its words only as long as no packet behind it holds them too. That is
`BlankLast`, and every write keeps it.
-/

namespace Rtl8812au.Efuse

/-! ## Cells that hold nothing yet -/

theorem blank_and (v : UInt8) : 0xff &&& v = v := by
  refine UInt8.eq_of_toBitVec_eq ?_
  show BitVec.allOnes 8 &&& v.toBitVec = v.toBitVec
  exact BitVec.allOnes_and

theorem efuseOneByteWrite_blank {c : Mem} {addr : Nat} (v : UInt8) (h : c addr = 0xff) :
    efuseOneByteWrite c addr v = c.write addr [v] := by
  funext k
  unfold efuseOneByteWrite
  by_cases hk : k = addr
  · have hin : c.write addr [v] (addr + 0) = v := Mem.write_inside Nat.zero_lt_one
    rw [if_pos hk, hk, h, blank_and]
    exact hin.symm
  · rw [if_neg hk]
    by_cases hlt : k < addr
    · rw [Mem.write_of_lt hlt]
    · rw [Mem.write_of_ge (by rw [List.length_singleton]; omega)]

/-- The bytes of the words `is` that are enabled, as they follow a header. -/
def wordBytes (wordEn : Nat) (t : Mem) (is : List Nat) : List UInt8 :=
  (is.filter fun i => !wordEn.testBit i).flatMap fun i => [t (2 * i), t (2 * i + 1)]

theorem wordBytes_cons (wordEn : Nat) (t : Mem) (i : Nat) (is : List Nat) :
    wordBytes wordEn t (i :: is)
      = if wordEn.testBit i then wordBytes wordEn t is
        else [t (2 * i), t (2 * i + 1)] ++ wordBytes wordEn t is := by
  unfold wordBytes
  cases h : wordEn.testBit i with
  | true => simp [h]
  | false => simp [h]

/-- **Blank cells take the words as they are**, and none is reported bad. -/
theorem writeWords_blank {wordEn : Nat} {t : Mem} : ∀ (is : List Nat) (addr bad : Nat) (c : Mem),
    (∀ k, addr ≤ k → k < addr + (wordBytes wordEn t is).length → c k = 0xff) →
    writeWords wordEn t is addr bad c = (bad, c.write addr (wordBytes wordEn t is)) := by
  intro is
  induction is with
  | nil =>
      intro addr bad c _
      rw [writeWords]
      refine congrArg (Prod.mk bad) (funext fun k => ?_)
      by_cases hlt : k < addr
      · exact (Mem.write_of_lt hlt).symm
      · exact (Mem.write_of_ge (Nat.le_of_not_lt hlt)).symm
  | cons i is ih =>
      intro addr bad c hff
      rw [wordBytes_cons] at hff ⊢
      rw [writeWords]
      cases hbit : wordEn.testBit i with
      | true =>
          rw [hbit, if_pos rfl] at hff
          rw [if_pos rfl, if_pos rfl]
          exact ih addr bad c hff
      | false =>
          rw [hbit, if_neg Bool.false_ne_true, List.length_append] at hff
          have hlen : [t (2 * i), t (2 * i + 1)].length = 2 := rfl
          -- both bytes of the word are there, so the word is not bad
          have hcells : efuseOneByteWrite (efuseOneByteWrite c addr (t (2 * i))) (addr + 1)
              (t (2 * i + 1)) = c.write addr [t (2 * i), t (2 * i + 1)] := by
            have h0 := hff addr (Nat.le_refl _) (by omega)
            have h1 : c.write addr [t (2 * i)] (addr + 1) = 0xff := by
              have hge : addr + [t (2 * i)].length ≤ addr + 1 := Nat.le_refl _
              rw [Mem.write_of_ge hge]
              exact hff (addr + 1) (by omega) (by omega)
            rw [efuseOneByteWrite_blank _ h0, efuseOneByteWrite_blank _ h1]
            exact Mem.write_append c addr [t (2 * i)] [t (2 * i + 1)]
          have hlow : c.write addr [t (2 * i), t (2 * i + 1)] addr = t (2 * i) :=
            @Mem.write_inside c addr 0 [t (2 * i), t (2 * i + 1)] Nat.zero_lt_two
          have hhigh : c.write addr [t (2 * i), t (2 * i + 1)] (addr + 1) = t (2 * i + 1) :=
            @Mem.write_inside c addr 1 [t (2 * i), t (2 * i + 1)] Nat.one_lt_two
          rw [if_neg Bool.false_ne_true, if_neg Bool.false_ne_true]
          dsimp only
          rw [hcells, hlow, hhigh, if_neg (by simp), ih (addr + 2)]
          · have happ := Mem.write_append c addr [t (2 * i), t (2 * i + 1)] (wordBytes wordEn t is)
            rw [hlen] at happ
            rw [happ]
          · intro k hk hlt
            rw [Mem.write_of_ge (by rw [hlen]; exact hk)]
            exact hff k (by omega) (by omega)

/-- The data of a packet that enables the words of `wordEn`. -/
def packData (wordEn : Nat) (t : Mem) : List UInt8 := wordBytes wordEn t (List.range 4)

theorem length_wordBytes_range (wordEn : Nat) (t : Mem) (i : Nat) :
    (wordBytes wordEn t (List.range i)).length = rank wordEn i * 2 := by
  unfold wordBytes rank
  rw [List.length_flatMap]
  simp

theorem length_packData (wordEn : Nat) (t : Mem) :
    (packData wordEn t).length = efuseCalculateWordCnts wordEn * 2 :=
  length_wordBytes_range wordEn t 4

theorem words_split : ∀ i : Fin 4,
    List.range 4 = List.range i.val ++ i.val :: List.range' (i.val + 1) (3 - i.val) := by decide

/-- Every byte of an enabled word is where the readers look for it. -/
theorem getD_packData {wordEn k : Nat} (t : Mem) (hk : k < 8)
    (hbit : wordEn.testBit (k / 2) = false) :
    (packData wordEn t).getD (rank wordEn (k / 2) * 2 + k % 2) 0xff = t k := by
  have hsplit : List.range 4 = List.range (k / 2) ++ k / 2 :: List.range' (k / 2 + 1) (3 - k / 2) :=
    words_split ⟨k / 2, by omega⟩
  have hlen := length_wordBytes_range wordEn t (k / 2)
  have hcons := wordBytes_cons wordEn t (k / 2) (List.range' (k / 2 + 1) (3 - k / 2))
  have happ : packData wordEn t = wordBytes wordEn t (List.range (k / 2))
      ++ wordBytes wordEn t (k / 2 :: List.range' (k / 2 + 1) (3 - k / 2)) := by
    unfold packData
    rw [hsplit]
    unfold wordBytes
    rw [List.filter_append, List.flatMap_append]
  rw [hbit, if_neg Bool.false_ne_true] at hcons
  rw [happ, hcons, List.getD_eq_getElem?_getD, List.getElem?_append_right (by omega), hlen,
    Nat.add_sub_cancel_left]
  rcases Nat.mod_two_eq_zero_or_one k with hmod | hmod
  · have hk2 : 2 * (k / 2) = k := by omega
    rw [hmod, hk2]
    rfl
  · have hk2 : 2 * (k / 2) + 1 = k := by omega
    rw [hmod, hk2]
    rfl

/-! ## The log as a write leaves it -/

/-- What a section is to become: `word_en` of the words that are written, and the eight bytes. -/
structure Change where
  offset : Nat
  wordEn : Nat
  data : Mem
  offset_lt : offset < 64
  wordEn_lt : wordEn < 15

/-- `target_pkt.data`. -/
def Change.target (d : Change) : Mem := efuseWordEnableDataRead d.wordEn d.data fun _ => 0xff

/-- The packet that goes behind the log. -/
def Change.packet (d : Change) : Packet where
  offset := d.offset
  wordEn := d.wordEn
  ext := decide (16 ≤ d.offset)
  data := packData d.wordEn d.target
  offset_lt := d.offset_lt
  wordEn_lt := d.wordEn_lt
  short := fun h => Nat.lt_of_not_le (of_decide_eq_false h)
  length_data := length_packData d.wordEn d.target

/-- A packet with its words from `t`. -/
def Packet.fill (p : Packet) (t : Mem) : Packet :=
  { p with data := packData p.wordEn t, length_data := length_packData p.wordEn t }

/-- The packet is of the section, is blank, and has a word that is to be written. -/
def Packet.takes (p : Packet) (d : Change) : Bool :=
  p.offset == d.offset && p.blank && ((d.wordEn ||| p.wordEn) &&& 0x0f != 0x0f)

/-- It has all of them. -/
def Packet.covers (p : Packet) (d : Change) : Prop :=
  ∀ i < 4, d.wordEn.testBit i = false → p.wordEn.testBit i = false

instance (p : Packet) (d : Change) : Decidable (p.covers d) :=
  inferInstanceAs (Decidable (∀ i < 4, d.wordEn.testBit i = false → p.wordEn.testBit i = false))

/-- The log behind a write. -/
def logWrite (d : Change) : List Packet → List Packet
  | [] => [d.packet]
  | p :: ps => if p.takes d then p.fill d.target :: ps else p :: logWrite d ps

/-- There is a place for the change in a log that starts at `addr`: the packet that takes it has all
its words, or there is none and the new header ends below the reserved tail. -/
def Fits (d : Change) : Nat → List Packet → Prop
  | addr, [] => addr + d.packet.hdrLen ≤ packetLimit
  | addr, p :: ps =>
    (p.takes d = true → p.covers d) ∧ (p.takes d = false → Fits d (addr + p.len) ps)

instance decidableFits (d : Change) : ∀ (addr : Nat) (ps : List Packet), Decidable (Fits d addr ps)
  | addr, [] => inferInstanceAs (Decidable (addr + d.packet.hdrLen ≤ packetLimit))
  | addr, p :: ps =>
    have := decidableFits d (addr + p.len) ps
    inferInstanceAs (Decidable
      ((p.takes d = true → p.covers d) ∧ (p.takes d = false → Fits d (addr + p.len) ps)))

/-- Every header ends below the reserved tail. -/
def Starts : Nat → List Packet → Prop
  | _, [] => True
  | addr, p :: ps => addr + p.hdrLen ≤ packetLimit ∧ Starts (addr + p.len) ps

/-- No packet behind a blank one has a word of it. -/
def BlankLast (ps : List Packet) : Prop :=
  ps.Pairwise fun p q => p.blank = true → p.offset = q.offset →
    ∀ i, p.enables i = true → q.enables i = false

theorem takes_iff {p : Packet} {d : Change} :
    p.takes d = true ↔ p.offset = d.offset ∧ p.blank = true
      ∧ (d.wordEn ||| p.wordEn) &&& 0x0f ≠ 0x0f := by
  unfold Packet.takes
  simp [and_assoc]

/-- Words in common. -/
theorem match_iff : ∀ a b : Fin 15,
    (a.val ||| b.val) &&& 0x0f = 0x0f ↔ ∀ i < 4, a.val.testBit i = false → b.val.testBit i = true := by
  decide

theorem enables_iff {p : Packet} {i : Nat} :
    p.enables i = true ↔ i < 4 ∧ p.wordEn.testBit i = false := by
  unfold Packet.enables
  simp

theorem Packet.byte_fill {p : Packet} {t : Mem} {k : Nat} (h : p.enables (k / 2) = true) :
    (p.fill t).byte k = t k := by
  obtain ⟨hlt, hbit⟩ := enables_iff.mp h
  exact getD_packData t (by omega) hbit

theorem Change.target_of_enabled {d : Change} {k : Nat} (h : d.packet.enables (k / 2) = true) :
    d.target k = d.data k := by
  obtain ⟨hlt, hbit⟩ := enables_iff.mp h
  exact if_pos ⟨by omega, hbit⟩

theorem Change.target_of_not {d : Change} {k : Nat} (h : d.packet.enables (k / 2) = false) :
    d.target k = 0xff := by
  refine if_neg fun hk => ?_
  have htrue : d.packet.enables (k / 2) = true := enables_iff.mpr ⟨by omega, hk.2⟩
  rw [h] at htrue
  exact Bool.false_ne_true htrue

theorem Change.byte_packet {d : Change} {k : Nat} (h : d.packet.enables (k / 2) = true) :
    d.packet.byte k = d.data k := by
  have hfill : d.packet.byte k = d.target k := Packet.byte_fill h
  rw [hfill, target_of_enabled h]

theorem Packet.data_blank {p : Packet} (h : p.blank = true) (k : Nat) :
    p.data.getD k 0xff = 0xff := by
  rw [List.getD_eq_getElem?_getD]
  cases hget : p.data[k]? with
  | none => rfl
  | some b => simpa using List.all_eq_true.mp h b (List.mem_of_getElem? hget)

/-! ### The map -/

theorem applyPacket_of {w : EfuseWords} {p : Packet} {s i : Nat} (hs : s = p.offset)
    (hi : p.enables i = true) :
    applyPacket w p s i = (p.byte (2 * i), p.byte (2 * i + 1)) := if_pos ⟨hs, hi⟩

theorem applyPacket_of_not {w : EfuseWords} {p : Packet} {s i : Nat}
    (h : ¬ (s = p.offset ∧ p.enables i = true)) : applyPacket w p s i = w s i := if_neg h

/-- A word of the map is made from that word alone. -/
theorem foldl_word {s i : Nat} : ∀ (ps : List Packet) {w w' : EfuseWords}, w s i = w' s i →
    ps.foldl applyPacket w s i = ps.foldl applyPacket w' s i := by
  intro ps
  induction ps with
  | nil =>
      intro w w' h
      exact h
  | cons p ps ih =>
      intro w w' h
      refine ih ?_
      unfold applyPacket
      rw [h]

/-- A word that no packet has stays. -/
theorem foldl_untouched {s i : Nat} : ∀ (ps : List Packet) (w : EfuseWords),
    (∀ q ∈ ps, q.offset = s → q.enables i = false) → ps.foldl applyPacket w s i = w s i := by
  intro ps
  induction ps with
  | nil =>
      intro w _
      rfl
  | cons p ps ih =>
      intro w h
      have hp : applyPacket w p s i = w s i := by
        refine applyPacket_of_not fun hsi => ?_
        have hfalse := h p List.mem_cons_self hsi.1.symm
        rw [hsi.2] at hfalse
        exact Bool.false_ne_true hfalse.symm
      rw [List.foldl_cons, ih _ fun q hq => h q (List.mem_cons_of_mem p hq), hp]

/-- **A write sets the words of the change** and leaves all others of the map. -/
theorem foldl_logWrite (d : Change) {s i : Nat} : ∀ (ps : List Packet) (addr : Nat)
    (w : EfuseWords), BlankLast ps → Fits d addr ps →
    (logWrite d ps).foldl applyPacket w s i
      = if s = d.offset ∧ d.packet.enables i = true then (d.data (2 * i), d.data (2 * i + 1))
        else ps.foldl applyPacket w s i := by
  have hdiv : 2 * i / 2 = i ∧ (2 * i + 1) / 2 = i := by omega
  intro ps
  induction ps with
  | nil =>
      intro addr w _ _
      rw [logWrite, List.foldl_cons, List.foldl_nil, List.foldl_nil]
      by_cases h : s = d.offset ∧ d.packet.enables i = true
      · rw [if_pos h, applyPacket_of h.1 h.2, Change.byte_packet (by rw [hdiv.1]; exact h.2),
          Change.byte_packet (by rw [hdiv.2]; exact h.2)]
      · rw [if_neg h, applyPacket_of_not h]
  | cons p ps ih =>
      intro addr w hlast hfits
      obtain ⟨hp, hlast⟩ := List.pairwise_cons.mp hlast
      cases ht : p.takes d with
      | false =>
          rw [logWrite, ht, if_neg Bool.false_ne_true]
          exact ih (addr + p.len) (applyPacket w p) hlast (hfits.2 ht)
      | true =>
          -- the packet is blank, and the change fills it
          obtain ⟨hoff, hblank, -⟩ := takes_iff.mp ht
          have hcov := hfits.1 ht
          rw [logWrite, ht, if_pos rfl, List.foldl_cons, List.foldl_cons]
          by_cases hin : s = p.offset ∧ p.enables i = true
          · -- the last packet with this word is the one that is filled
            have hafter : ∀ w, ps.foldl applyPacket w s i = w s i := fun w =>
              foldl_untouched ps w fun q hq hqs => hp q hq hblank (hin.1.symm.trans hqs.symm) i hin.2
            have hfill : applyPacket w (p.fill d.target) s i
                = (d.target (2 * i), d.target (2 * i + 1)) := by
              have hset : applyPacket w (p.fill d.target) s i
                  = ((p.fill d.target).byte (2 * i), (p.fill d.target).byte (2 * i + 1)) :=
                applyPacket_of hin.1 hin.2
              rw [hset, Packet.byte_fill (by rw [hdiv.1]; exact hin.2),
                Packet.byte_fill (by rw [hdiv.2]; exact hin.2)]
            rw [hafter, hafter, hfill]
            cases hd : d.packet.enables i with
            | true =>
                rw [if_pos ⟨hin.1.trans hoff, rfl⟩,
                  Change.target_of_enabled (by rw [hdiv.1]; exact hd),
                  Change.target_of_enabled (by rw [hdiv.2]; exact hd)]
            | false =>
                -- a word that the change leaves alone is written as it was read, which is blank
                have hff : ∀ k, p.byte k = 0xff := fun k => Packet.data_blank hblank _
                rw [if_neg fun h => Bool.false_ne_true h.2, applyPacket_of hin.1 hin.2,
                  hff, hff,
                  Change.target_of_not (by rw [hdiv.1]; exact hd),
                  Change.target_of_not (by rw [hdiv.2]; exact hd)]
          · have hnot : ¬ (s = d.offset ∧ d.packet.enables i = true) := by
              intro h
              obtain ⟨hlt, hbit⟩ := enables_iff.mp h.2
              exact hin ⟨h.1.trans hoff.symm, enables_iff.mpr ⟨hlt, hcov i hlt hbit⟩⟩
            have hfill : applyPacket w (p.fill d.target) s i = w s i := applyPacket_of_not hin
            have hold : applyPacket w p s i = w s i := applyPacket_of_not hin
            rw [if_neg hnot]
            exact foldl_word ps (hfill.trans hold.symm)

/-! ### What every write keeps -/

/-- The cells hold a log that may be written on. -/
structure LogInv (c : Mem) (ps : List Packet) : Prop where
  log : Log c 0 ps
  starts : Starts 0 ps
  blankLast : BlankLast ps

theorem starts_logWrite {d : Change} : ∀ {ps : List Packet} {addr : Nat}, Starts addr ps →
    Fits d addr ps → Starts addr (logWrite d ps) := by
  intro ps
  induction ps with
  | nil =>
      intro addr _ hfits
      exact ⟨hfits, trivial⟩
  | cons p ps ih =>
      intro addr hstarts hfits
      rw [logWrite]
      cases ht : p.takes d with
      | true => exact hstarts
      | false => exact ⟨hstarts.1, ih hstarts.2 (hfits.2 ht)⟩

/-- A packet behind a write has the section and the words of one that was there, or is new. -/
theorem mem_logWrite {d : Change} {q : Packet} : ∀ {ps : List Packet}, q ∈ logWrite d ps →
    (∃ p ∈ ps, p.offset = q.offset ∧ p.wordEn = q.wordEn) ∨ q = d.packet := by
  intro ps
  induction ps with
  | nil =>
      intro h
      exact Or.inr (List.mem_singleton.mp h)
  | cons p ps ih =>
      intro h
      rw [logWrite] at h
      cases ht : p.takes d with
      | true =>
          rw [ht, if_pos rfl] at h
          rcases List.mem_cons.mp h with rfl | hq
          · exact Or.inl ⟨p, List.mem_cons_self, rfl, rfl⟩
          · exact Or.inl ⟨q, List.mem_cons_of_mem p hq, rfl, rfl⟩
      | false =>
          rw [ht, if_neg Bool.false_ne_true] at h
          rcases List.mem_cons.mp h with rfl | hq
          · exact Or.inl ⟨q, List.mem_cons_self, rfl, rfl⟩
          · rcases ih hq with ⟨p', hp', hsame⟩ | hnew
            · exact Or.inl ⟨p', List.mem_cons_of_mem p hp', hsame⟩
            · exact Or.inr hnew

theorem blankLast_logWrite {d : Change} : ∀ {ps : List Packet}, BlankLast ps →
    BlankLast (logWrite d ps) := by
  intro ps
  induction ps with
  | nil =>
      intro _
      exact List.pairwise_singleton _ _
  | cons p ps ih =>
      intro h
      obtain ⟨hp, hps⟩ := List.pairwise_cons.mp h
      rw [logWrite]
      cases ht : p.takes d with
      | true =>
          rw [if_pos rfl]
          refine List.pairwise_cons.mpr ⟨?_, hps⟩
          intro q hq _ hoff i hi
          exact hp q hq (takes_iff.mp ht).2.1 hoff i hi
      | false =>
          rw [if_neg Bool.false_ne_true]
          refine List.pairwise_cons.mpr ⟨?_, ih hps⟩
          intro q hq hblank hoff i hi
          rcases mem_logWrite hq with ⟨p', hp', hoff', hword⟩ | rfl
          · have hdis := hp p' hp' hblank (hoff.trans hoff'.symm) i hi
            unfold Packet.enables at hdis ⊢
            rw [← hword]
            exact hdis
          · -- the walk has passed `p`, so it has none of the words
            have hmatch : (d.wordEn ||| p.wordEn) &&& 0x0f = 0x0f := by
              refine not_not.mp fun hne => ?_
              have htrue := takes_iff.mpr ⟨hoff, hblank, hne⟩
              rw [ht] at htrue
              exact Bool.false_ne_true htrue
            have hwords := (match_iff ⟨d.wordEn, d.wordEn_lt⟩ ⟨p.wordEn, p.wordEn_lt⟩).mp hmatch
            refine Bool.eq_false_iff.mpr fun hd => ?_
            obtain ⟨hlt, hbit⟩ := enables_iff.mp hd
            have hset := hwords i hlt hbit
            rw [(enables_iff.mp hi).2] at hset
            exact Bool.false_ne_true hset

theorem Starts.endOf_le : ∀ {ps : List Packet} {addr : Nat}, Starts addr ps →
    endOf addr ps ≤ max addr (packetLimit + 8) := by
  intro ps
  induction ps with
  | nil =>
      intro addr _
      rw [endOf_nil]
      exact Nat.le_max_left _ _
  | cons p ps ih =>
      intro addr h
      have hrest := ih h.2
      have hhdr := h.1
      have hcnts := p.wordCnts_le
      have hlen : p.len = p.hdrLen + efuseCalculateWordCnts p.wordEn * 2 := rfl
      rw [endOf_cons]
      omega

namespace LogInv

variable {c : Mem} {ps : List Packet}

theorem room_lt (h : LogInv c ps) : endOf 0 ps + 6 < realContentLen := by
  have hle := h.starts.endOf_le
  have hlim : packetLimit = 494 := rfl
  have hlen : realContentLen = 512 := rfl
  omega

theorem fuel (h : LogInv c ps) : 3 * ps.length < realContentLen := by
  have hle := length_le_endOf 0 ps
  have hroom := h.room_lt
  omega

/-- **The map behind a write.** -/
theorem efuseMap_write (h : LogInv c ps) {d : Change} (hfits : Fits d 0 ps) {e e' : EfuseState}
    (he : e.cells = c) (h' : LogInv e'.cells (logWrite d ps)) {k : Nat} (hk : k < mapLen) :
    efuseMap e' k
      = if k / 8 = d.offset ∧ d.wordEn.testBit (k % 8 / 2) = false then d.data (k % 8)
        else efuseMap e k := by
  have hold : efuseMap e k = efuseTbl (logWords ps) k := by
    subst he
    exact efuseMap_log h.log h.room_lt hk
  have hword := @foldl_logWrite d (k / 8) (k % 8 / 2) ps 0 (fun _ _ => (0xff, 0xff)) h.blankLast hfits
  have hen : d.packet.enables (k % 8 / 2) = true ↔ d.wordEn.testBit (k % 8 / 2) = false := by
    rw [enables_iff]
    exact and_iff_right (by omega)
  rw [efuseMap_log h'.log h'.room_lt hk, hold]
  unfold efuseTbl logWords
  by_cases hin : k / 8 = d.offset ∧ d.packet.enables (k % 8 / 2) = true
  · rw [if_pos hin] at hword
    rw [hword]
    refine Eq.trans ?_ (if_pos ⟨hin.1, hen.mp hin.2⟩).symm
    split
    · have hk2 : 2 * (k % 8 / 2) = k % 8 := by omega
      dsimp only
      rw [hk2]
    · have hk2 : 2 * (k % 8 / 2) + 1 = k % 8 := by omega
      dsimp only
      rw [hk2]
  · rw [if_neg hin] at hword
    rw [hword]
    exact (if_neg fun hd => hin ⟨hd.1, hen.mpr hd.2⟩).symm

end LogInv

/-! ## The writer -/

theorem dataWrite_blank {c : Mem} {addr wordEn : Nat} {t : Mem}
    (h : ∀ k, addr ≤ k → k < addr + efuseCalculateWordCnts wordEn * 2 → c k = 0xff) :
    halEfuseWordEnableDataWrite c addr wordEn t = (0x0f, c.write addr (packData wordEn t)) := by
  have hwrite := @writeWords_blank wordEn t (List.range 4) addr 0x0f c (by
    rw [length_wordBytes_range]
    exact h)
  exact hwrite

theorem programHeader_blank {e : EfuseState} {addr n : Nat} {v : UInt8} (h : e.cells addr = 0xff)
    (hv : v ≠ 0xff) :
    programHeader addr v (n + 1) e = (v, false, { e with cells := e.cells.write addr [v] }) := by
  have hin : e.cells.write addr [v] addr = v := @Mem.write_inside e.cells addr 0 [v] Nat.zero_lt_one
  rw [programHeader]
  dsimp only
  have hne : e.cells.write addr [v] addr ≠ 0xff := by
    rw [hin]
    exact hv
  rw [efuseOneByteWrite_blank v h, if_pos hne, hin]

/-- The headers as the writer puts them together. -/
theorem shortHeader_bits : ∀ (o : Fin 16) (w : Fin 15),
    UInt8.ofNat (((o.val <<< 4) &&& 0xf0) ||| w.val) = UInt8.ofNat (o.val * 16 + w.val) := by
  decide

theorem longHeader_bits : ∀ (o : Fin 64) (w : Fin 15),
    UInt8.ofNat (((o.val &&& 0x07) <<< 5) ||| 0x0f) = UInt8.ofNat (o.val % 8 * 32 + 15)
      ∧ UInt8.ofNat (((o.val &&& 0x78) <<< 1) ||| w.val) = UInt8.ofNat (o.val / 8 * 16 + w.val) := by
  decide

/-- Words that are left over, if any. -/
theorem rest_iff : ∀ a b : Fin 15,
    0x0f ^^^ ((a.val ^^^ ((a.val ||| b.val) &&& 0x0f)) &&& 0x0f) = 0x0f
      ↔ ∀ i < 4, a.val.testBit i = false → b.val.testBit i = false := by
  decide

/-- The writer on its way through the log, at a header. -/
def Change.walkAt (d : Change) (addr : Nat) : PgWrite :=
  { efuseAddr := addr, wordEn := d.wordEn, wordCnts := efuseCalculateWordCnts d.wordEn }

section

variable {rewrite : Nat → Nat → Mem → EfuseState → EfuseState} {d : Change} {e : EfuseState}
  {p : Packet} {addr : Nat}

theorem pgLoop_stop {offset fuel : Nat} {data : Mem} {v : PgWrite} (h : v.bContinual = false) :
    pgLoop rewrite offset data fuel v e = e := by
  cases fuel with
  | zero => rfl
  | succ n =>
      rw [pgLoop, if_neg]
      intro hv
      rw [h] at hv
      exact Bool.false_ne_true hv.1

/-- At a packet. -/
theorem pgStep_packet (hp : e.cells.read addr p.len = p.bytes) :
    pgStep rewrite d.offset d.target (d.walkAt addr) e
      = pgFound rewrite d.offset d.target p.offset p.wordEn (d.walkAt (addr + p.hdrLen - 1)) e := by
  obtain ⟨hff, hhdr⟩ := header_cases hp
  have hw := p.wordEn_lt
  unfold pgStep
  have hstate : (d.walkAt addr).dataState = false := rfl
  have haddr : (d.walkAt addr).efuseAddr = addr := rfl
  rw [hstate, if_neg Bool.false_ne_true, haddr, if_pos hff]
  unfold pgUsed
  dsimp only
  rw [haddr]
  rcases hhdr with ⟨h1, h2, h3, h4⟩ | ⟨h1, h2, -, h4, h5, h6⟩
  · rw [h2, if_neg Bool.false_ne_true, h3, h4, if_neg (by omega), h1]
    rfl
  · rw [h2, if_pos rfl, h4, if_neg Bool.false_ne_true, h5, h6, h1]
    rfl

/-- A packet that does not take the change is passed. -/
theorem pgStep_skip (hp : e.cells.read addr p.len = p.bytes) (ht : p.takes d = false) :
    pgStep rewrite d.offset d.target (d.walkAt addr) e = (d.walkAt (addr + p.len), e) := by
  have hhdr := p.hdrLen_bounds
  have hlen : p.len = p.hdrLen + efuseCalculateWordCnts p.wordEn * 2 := rfl
  have hnext : addr + p.hdrLen - 1 + efuseCalculateWordCnts p.wordEn * 2 + 1 = addr + p.len := by omega
  have hbehind : addr + p.hdrLen - 1 + 1 = addr + p.hdrLen := by omega
  rw [pgStep_packet hp]
  unfold pgFound Change.walkAt
  dsimp only
  rw [hnext, hbehind, programmed_at hp]
  by_cases hoff : p.offset = d.offset
  · rw [if_neg (not_not.mpr hoff)]
    cases hblank : p.blank with
    | false => exact if_pos rfl
    | true =>
        rw [if_neg (by decide), if_neg]
        intro hne
        have htrue := takes_iff.mpr ⟨hoff, hblank, hne⟩
        rw [ht] at htrue
        exact Bool.false_ne_true htrue
  · rw [if_pos hoff]

/-- The packet that takes the change, and has all its words. -/
theorem pgStep_fill (hp : e.cells.read addr p.len = p.bytes) (ht : p.takes d = true)
    (hcov : p.covers d) :
    (pgStep rewrite d.offset d.target (d.walkAt addr) e).1.bContinual = false
      ∧ (pgStep rewrite d.offset d.target (d.walkAt addr) e).2.cells
        = e.cells.write (addr + p.hdrLen) (packData p.wordEn d.target) := by
  obtain ⟨hoff, hblank, hmatch⟩ := takes_iff.mp ht
  have hhdr := p.hdrLen_bounds
  have hbehind : addr + p.hdrLen - 1 + 1 = addr + p.hdrLen := by omega
  have hcells : ∀ k, addr + p.hdrLen ≤ k →
      k < addr + p.hdrLen + efuseCalculateWordCnts p.wordEn * 2 → e.cells k = 0xff := by
    intro k hk hlt
    have hbyte := @byte_at e.cells addr (k - (addr + p.hdrLen)) p hp (by omega)
    have hsum : addr + p.hdrLen + (k - (addr + p.hdrLen)) = k := by omega
    rw [hsum] at hbyte
    rw [hbyte, Packet.data_blank hblank]
  have hrest := (rest_iff ⟨d.wordEn, d.wordEn_lt⟩ ⟨p.wordEn, p.wordEn_lt⟩).mpr hcov
  rw [pgStep_packet hp]
  unfold pgFound Change.walkAt
  dsimp only
  rw [if_neg (not_not.mpr hoff), hbehind, programmed_at hp, hblank, if_neg (by decide),
    if_pos hmatch, dataWrite_blank hcells]
  dsimp only
  rw [if_neg (not_not.mpr rfl), if_neg (not_not.mpr hrest)]
  exact ⟨rfl, rfl⟩

/-- An extended header, where there is none yet. -/
theorem pgFresh_long (hext : 16 ≤ d.offset) (h0 : e.cells addr = 0xff)
    (h1 : e.cells (addr + 1) = 0xff) :
    pgFresh rewrite d.offset (d.walkAt addr) e
      = ({ d.walkAt (addr + d.packet.hdrLen - 1) with dataState := true },
          { e with cells := e.cells.write addr d.packet.hdr }) := by
  obtain ⟨hb1, hb2⟩ := longHeader_bits ⟨d.offset, d.offset_lt⟩ ⟨d.wordEn, d.wordEn_lt⟩
  obtain ⟨hne1, -, hne2, hall, -, -⟩ := longHeader ⟨d.offset, d.offset_lt⟩ ⟨d.wordEn, d.wordEn_lt⟩
  dsimp only at hb1 hb2 hne1 hne2 hall
  have hhdr : d.packet.hdr = [UInt8.ofNat (d.offset % 8 * 32 + 15)]
      ++ [UInt8.ofNat (d.offset / 8 * 16 + d.wordEn)] := if_pos (decide_eq_true hext)
  have hlen : d.packet.hdrLen = 2 := if_pos (decide_eq_true hext)
  -- the second byte is still blank behind the first one
  have hnext : e.cells.write addr [UInt8.ofNat (d.offset % 8 * 32 + 15)] (addr + 1) = 0xff := by
    have hge : addr + [UInt8.ofNat (d.offset % 8 * 32 + 15)].length ≤ addr + 1 := Nat.le_refl _
    rw [Mem.write_of_ge hge]
    exact h1
  have happ := Mem.write_append e.cells addr [UInt8.ofNat (d.offset % 8 * 32 + 15)]
    [UInt8.ofNat (d.offset / 8 * 16 + d.wordEn)]
  rw [List.length_singleton] at happ
  unfold pgFresh Change.walkAt
  rw [if_pos hext, hlen, hhdr, ← happ]
  dsimp only
  rw [hb1, programHeader_blank h0 hne1]
  dsimp only
  rw [if_pos rfl, hb2, programHeader_blank hnext hne2]
  dsimp only
  rw [hall, if_neg Bool.false_ne_true, if_pos rfl]
  rfl

/-- A header of one byte. -/
theorem pgFresh_short (hext : ¬ 16 ≤ d.offset) (h0 : e.cells addr = 0xff) :
    pgFresh rewrite d.offset (d.walkAt addr) e
      = ({ d.walkAt (addr + d.packet.hdrLen - 1) with dataState := true },
          { e with cells := e.cells.write addr d.packet.hdr }) := by
  have hb := shortHeader_bits ⟨d.offset, Nat.lt_of_not_le hext⟩ ⟨d.wordEn, d.wordEn_lt⟩
  dsimp only at hb
  have hnot : ¬ decide (16 ≤ d.offset) = true := fun h => hext (of_decide_eq_true h)
  have hhdr : d.packet.hdr = [UInt8.ofNat (d.offset * 16 + d.wordEn)] := if_neg hnot
  have hlen : d.packet.hdrLen = 1 := if_neg hnot
  have hin : e.cells.write addr [UInt8.ofNat (d.offset * 16 + d.wordEn)] addr
      = UInt8.ofNat (d.offset * 16 + d.wordEn) :=
    @Mem.write_inside e.cells addr 0 [UInt8.ofNat (d.offset * 16 + d.wordEn)] Nat.zero_lt_one
  unfold pgFresh Change.walkAt
  rw [if_neg hext, hlen, hhdr]
  dsimp only
  rw [hb, efuseOneByteWrite_blank _ h0, if_pos hin]
  rfl

/-- At the end of the log, the header. -/
theorem pgStep_header (hff : ∀ k, addr ≤ k → k < realContentLen → e.cells k = 0xff)
    (hroom : addr + d.packet.hdrLen ≤ packetLimit) :
    pgStep rewrite d.offset d.target (d.walkAt addr) e
      = ({ d.walkAt (addr + d.packet.hdrLen - 1) with dataState := true },
          { e with cells := e.cells.write addr d.packet.hdr }) := by
  have hlim : packetLimit = 494 := rfl
  have hreal : realContentLen = 512 := rfl
  have hbound := d.packet.hdrLen_bounds
  have h0 : e.cells addr = 0xff := hff addr (Nat.le_refl _) (by omega)
  have h1 : e.cells (addr + 1) = 0xff := hff (addr + 1) (Nat.le_succ _) (by omega)
  have hstate : (d.walkAt addr).dataState = false := rfl
  have haddr : (d.walkAt addr).efuseAddr = addr := rfl
  unfold pgStep
  rw [hstate, if_neg Bool.false_ne_true, haddr, if_neg (not_not.mpr h0)]
  by_cases hext : 16 ≤ d.offset
  · exact pgFresh_long hext h0 h1
  · exact pgFresh_short hext h0

/-- Behind its header, the data. -/
theorem pgStep_data (hff : ∀ k, addr + d.packet.hdrLen ≤ k →
      k < addr + d.packet.hdrLen + efuseCalculateWordCnts d.wordEn * 2 → e.cells k = 0xff) :
    (pgStep rewrite d.offset d.target
        { d.walkAt (addr + d.packet.hdrLen - 1) with dataState := true } e).1.bContinual = false
      ∧ (pgStep rewrite d.offset d.target
          { d.walkAt (addr + d.packet.hdrLen - 1) with dataState := true } e).2.cells
        = e.cells.write (addr + d.packet.hdrLen) d.packet.data := by
  have hbound := d.packet.hdrLen_bounds
  have hbehind : addr + d.packet.hdrLen - 1 + 1 = addr + d.packet.hdrLen := by omega
  unfold pgStep
  rw [if_pos rfl]
  unfold pgData Change.walkAt
  dsimp only
  rw [hbehind, dataWrite_blank hff]
  exact ⟨rfl, rfl⟩

theorem Log.congr {c c' : Mem} : ∀ {ps : List Packet} {addr : Nat}, Log c addr ps →
    (∀ k, addr ≤ k → c' k = c k) → Log c' addr ps := by
  intro ps
  induction ps with
  | nil =>
      intro addr h hsame k hk hlt
      rw [hsame k hk]
      exact h k hk hlt
  | cons p ps ih =>
      intro addr h hsame
      have hread : c'.read addr p.len = c.read addr p.len :=
        Mem.read_congr fun i _ => hsame (addr + i) (Nat.le_add_right _ _)
      exact ⟨hread.trans h.1, ih h.2 fun k hk => hsame k (by omega)⟩

/-- **The writer's loop** on a log that starts at `addr` and has a place for the change: behind it the
cells hold the log that `logWrite` says, and those before `addr` are as they were. -/
theorem pgLoop_log : ∀ (ps : List Packet) (addr fuel : Nat), Log e.cells addr ps →
    Starts addr ps → Fits d addr ps → ps.length + 2 ≤ fuel →
    Log (pgLoop rewrite d.offset d.target fuel (d.walkAt addr) e).cells addr (logWrite d ps)
      ∧ ∀ k < addr, (pgLoop rewrite d.offset d.target fuel (d.walkAt addr) e).cells k = e.cells k := by
  have hlim : packetLimit = 494 := rfl
  have hreal : realContentLen = 512 := rfl
  intro ps
  induction ps with
  | nil =>
      intro addr fuel hlog _ hfits hfuel
      obtain ⟨fuel, rfl⟩ : ∃ n, fuel = n + 2 := ⟨fuel - 2, by simp at hfuel; omega⟩
      -- behind the last packet the header is written, and then the data, in two turns
      have hroom : addr + d.packet.hdrLen ≤ packetLimit := hfits
      have hbound := d.packet.hdrLen_bounds
      have hcnts := d.packet.wordCnts_le
      have hword : d.packet.wordEn = d.wordEn := rfl
      have hlen : d.packet.len = d.packet.hdrLen + efuseCalculateWordCnts d.wordEn * 2 := rfl
      rw [hword] at hcnts
      have hblank : ∀ k, addr + d.packet.hdrLen ≤ k →
          k < addr + d.packet.hdrLen + efuseCalculateWordCnts d.wordEn * 2 →
          e.cells.write addr d.packet.hdr k = 0xff := by
        intro k hk hlt
        rw [Mem.write_of_ge (by rw [d.packet.length_hdr]; exact hk)]
        exact hlog k (by omega) (by omega)
      obtain ⟨hstop, hcells⟩ := @pgStep_data rewrite d
        { e with cells := e.cells.write addr d.packet.hdr } addr hblank
      have happ := Mem.write_append e.cells addr d.packet.hdr d.packet.data
      rw [d.packet.length_hdr] at happ
      rw [pgLoop, if_pos ⟨rfl, by show addr < packetLimit; omega⟩, pgStep_header hlog hroom, pgLoop,
        if_pos ⟨rfl, by show addr + d.packet.hdrLen - 1 < packetLimit; omega⟩, pgLoop_stop hstop,
        hcells, happ]
      refine ⟨⟨?_, ?_⟩, ?_⟩
      · rw [← d.packet.length_bytes]
        exact Mem.read_write_self e.cells addr d.packet.bytes
      · intro k hk hlt
        have hbytes : addr + (d.packet.hdr ++ d.packet.data).length ≤ k := by
          have hlb := d.packet.length_bytes
          unfold Packet.bytes at hlb
          omega
        rw [Mem.write_of_ge hbytes]
        exact hlog k (by omega) hlt
      · intro k hk
        exact Mem.write_of_lt hk
  | cons p ps ih =>
      intro addr fuel hlog hstarts hfits hfuel
      rw [List.length_cons] at hfuel
      obtain ⟨fuel, rfl⟩ : ∃ n, fuel = n + 1 := ⟨fuel - 1, by omega⟩
      have hhdr := hstarts.1
      have hbound := p.hdrLen_bounds
      have hlen : p.len = p.hdrLen + efuseCalculateWordCnts p.wordEn * 2 := rfl
      rw [pgLoop, if_pos ⟨rfl, by show addr < packetLimit; omega⟩, logWrite]
      cases ht : p.takes d with
      | false =>
          -- the loop goes on behind the packet, and nothing before that changes
          obtain ⟨ih1, ih2⟩ := ih (addr + p.len) fuel hlog.2 hstarts.2 (hfits.2 ht) (by omega)
          rw [pgStep_skip hlog.1 ht, if_neg Bool.false_ne_true]
          refine ⟨⟨?_, ih1⟩, fun k hk => ih2 k (by omega)⟩
          rw [← hlog.1]
          exact Mem.read_congr fun i hi => ih2 (addr + i) (by omega)
      | true =>
          obtain ⟨hstop, hcells⟩ := @pgStep_fill rewrite d e p addr hlog.1 ht (hfits.1 ht)
          have hpack := length_packData p.wordEn d.target
          rw [pgLoop_stop hstop, hcells, if_pos rfl]
          refine ⟨⟨?_, ?_⟩, fun k hk => Mem.write_of_lt (by omega)⟩
          · -- the header stays, the data are new
            show (e.cells.write (addr + p.hdrLen) (packData p.wordEn d.target)).read addr
              (p.hdrLen + efuseCalculateWordCnts p.wordEn * 2) = p.hdr ++ packData p.wordEn d.target
            rw [Mem.read_write_append _ hpack, hdr_at hlog.1]
          · exact hlog.2.congr fun k hk => Mem.write_of_ge (by
              have hk' : addr + p.len ≤ k := hk
              omega)

end

/-- **`hal_EfusePgPacketWrite_8812A`** on a log that has a place for the change: it fails and programs
nothing, or the log is written on. -/
theorem pgPacketWrite_log {d : Change} {e : EfuseState} {ps : List Packet} (h : LogInv e.cells ps)
    (hfits : Fits d 0 ps) {depth : Nat} {r : Bool × EfuseState}
    (hr : halEfusePgPacketWrite (depth + 1) d.offset d.wordEn d.data e = r) :
    r.1 = false ∧ r.2.cells = e.cells ∨ r.1 = true ∧ LogInv r.2.cells (logWrite d ps) := by
  have hfuel := h.fuel
  rw [halEfusePgPacketWrite] at hr
  dsimp only at hr
  by_cases hsize : packetLimit ≤ (halEfuseGetCurrentSize e).1
  · rw [if_pos hsize] at hr
    subst hr
    exact Or.inl ⟨rfl, rfl⟩
  · rw [if_neg hsize] at hr
    subst hr
    have hlog : Log (halEfuseGetCurrentSize e).2.cells 0 ps := h.log
    exact Or.inr ⟨rfl, (pgLoop_log ps 0 (4 * realContentLen) hlog h.starts hfits (by omega)).1,
      starts_logWrite h.starts hfits, blankLast_logWrite h.blankLast⟩

/-- Without room for any packet it fails. -/
theorem pgPacketWrite_full {d : Change} {e : EfuseState}
    (hsize : packetLimit ≤ (halEfuseGetCurrentSize e).1) {depth : Nat} :
    (halEfusePgPacketWrite (depth + 1) d.offset d.wordEn d.data e).1 = false
      ∧ (halEfusePgPacketWrite (depth + 1) d.offset d.wordEn d.data e).2.cells = e.cells := by
  rw [halEfusePgPacketWrite]
  dsimp only
  rw [if_pos hsize]
  exact ⟨rfl, rfl⟩

end Rtl8812au.Efuse

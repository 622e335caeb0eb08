import Rtl8812au.Efuse.Walk

/-!
# The log of packets

What the cells of an efuse mean: packets one behind the other from the first cell on, and nothing
programmed behind them. `Log` says that cells hold a list of packets, and each walker is shown to
compute a fold over that list.
-/

namespace Rtl8812au.Efuse

/-- A packet as the walkers take it for well formed: a section, at least one enabled word, two
bytes for each, and a header of one byte only for the first sixteen sections. -/
structure Packet where
  offset : Nat
  wordEn : Nat
  ext : Bool
  data : List UInt8
  offset_lt : offset < 64
  wordEn_lt : wordEn < 15
  short : ext = false → offset < 16
  length_data : data.length = efuseCalculateWordCnts wordEn * 2

namespace Packet

variable (p : Packet)

/-- The header. -/
def hdr : List UInt8 :=
  if p.ext then
    [UInt8.ofNat (p.offset % 8 * 32 + 15), UInt8.ofNat (p.offset / 8 * 16 + p.wordEn)]
  else [UInt8.ofNat (p.offset * 16 + p.wordEn)]

def bytes : List UInt8 := p.hdr ++ p.data

def hdrLen : Nat := if p.ext then 2 else 1

def len : Nat := p.hdrLen + efuseCalculateWordCnts p.wordEn * 2

/-- Whether word `i` is enabled. -/
def enables (i : Nat) : Bool := decide (i < 4) && !p.wordEn.testBit i

/-- No byte of the data is programmed. -/
def blank : Bool := p.data.all (· == 0xff)

end Packet

/-- How many enabled words are in front of word `i`. -/
def rank (wordEn i : Nat) : Nat := ((List.range i).filter fun j => !wordEn.testBit j).length

/-- The byte that a packet has for byte `k` of its section, if that is enabled. -/
def Packet.byte (p : Packet) (k : Nat) : UInt8 :=
  p.data.getD (rank p.wordEn (k / 2) * 2 + k % 2) 0xff

/-- The address behind the packets. -/
def endOf (addr : Nat) (ps : List Packet) : Nat := addr + (ps.map Packet.len).sum

/-- From `addr` on the cells hold `ps`, and nothing else below the end of the efuse. -/
def Log (c : Mem) : Nat → List Packet → Prop
  | addr, [] => ∀ k, addr ≤ k → k < realContentLen → c k = 0xff
  | addr, p :: ps => c.read addr p.len = p.bytes ∧ Log c (addr + p.len) ps

theorem endOf_nil (addr : Nat) : endOf addr [] = addr := Nat.add_zero addr

theorem endOf_cons (addr : Nat) (p : Packet) (ps : List Packet) :
    endOf addr (p :: ps) = endOf (addr + p.len) ps := by
  unfold endOf
  rw [List.map_cons, List.sum_cons, Nat.add_assoc]

theorem endOf_ge (addr : Nat) (ps : List Packet) : addr ≤ endOf addr ps := Nat.le_add_right _ _

/-- Behind the packets nothing is programmed. -/
theorem Log.tail {c : Mem} {k : Nat} : ∀ {ps : List Packet} {addr : Nat}, Log c addr ps →
    endOf addr ps ≤ k → k < realContentLen → c k = 0xff := by
  intro ps
  induction ps with
  | nil =>
      intro addr h hk hlt
      rw [endOf_nil] at hk
      exact h k hk hlt
  | cons p ps ih =>
      intro addr h hk hlt
      rw [endOf_cons] at hk
      exact ih h.2 hk hlt

/-! ## Headers -/

/-- What the macros make of the bytes of a header. -/
theorem shortHeader : ∀ (o : Fin 16) (w : Fin 15),
    UInt8.ofNat (o.val * 16 + w.val) ≠ 0xff ∧ extHeader (UInt8.ofNat (o.val * 16 + w.val)) = false
      ∧ hdrOffset (UInt8.ofNat (o.val * 16 + w.val)) = o.val
      ∧ hdrWordEn (UInt8.ofNat (o.val * 16 + w.val)) = w.val := by
  decide +kernel

theorem longHeader : ∀ (o : Fin 64) (w : Fin 15),
    UInt8.ofNat (o.val % 8 * 32 + 15) ≠ 0xff ∧ extHeader (UInt8.ofNat (o.val % 8 * 32 + 15)) = true
      ∧ UInt8.ofNat (o.val / 8 * 16 + w.val) ≠ 0xff
      ∧ allWordsDisabled (UInt8.ofNat (o.val / 8 * 16 + w.val)) = false
      ∧ extOffset (UInt8.ofNat (o.val % 8 * 32 + 15)) (UInt8.ofNat (o.val / 8 * 16 + w.val)) = o.val
      ∧ hdrWordEn (UInt8.ofNat (o.val / 8 * 16 + w.val)) = w.val := by
  decide +kernel

/-- At least one word is enabled, and four at most. -/
theorem wordCnts_bounds : ∀ w : Fin 15,
    0 < efuseCalculateWordCnts w.val ∧ efuseCalculateWordCnts w.val ≤ 4 := by decide +kernel

theorem Packet.wordCnts_pos (p : Packet) : 0 < efuseCalculateWordCnts p.wordEn :=
  (wordCnts_bounds ⟨p.wordEn, p.wordEn_lt⟩).1

theorem Packet.wordCnts_le (p : Packet) : efuseCalculateWordCnts p.wordEn ≤ 4 :=
  (wordCnts_bounds ⟨p.wordEn, p.wordEn_lt⟩).2

theorem Packet.hdrLen_bounds (p : Packet) : 1 ≤ p.hdrLen ∧ p.hdrLen ≤ 2 := by
  unfold Packet.hdrLen
  split
  · decide
  · decide

theorem Packet.length_hdr (p : Packet) : p.hdr.length = p.hdrLen := by
  unfold Packet.hdr Packet.hdrLen
  split
  · rfl
  · rfl

theorem Packet.length_bytes (p : Packet) : p.bytes.length = p.len := by
  unfold Packet.bytes Packet.len
  rw [List.length_append, p.length_hdr, p.length_data]

/-- The header of a packet that stands at `addr`. -/
theorem hdr_at {c : Mem} {addr : Nat} {p : Packet} (h : c.read addr p.len = p.bytes) :
    c.read addr p.hdrLen = p.hdr := by
  have htake := congrArg (List.take p.hdrLen) h
  have hle : p.hdrLen ≤ p.len := Nat.le_add_right _ _
  rw [Mem.take_read _ hle] at htake
  rw [htake]
  unfold Packet.bytes
  rw [← p.length_hdr, List.take_left]

/-- What a walker finds at the header of a packet that stands at `addr`: a header of one byte, or
an extended one. -/
theorem header_cases {c : Mem} {addr : Nat} {p : Packet} (h : c.read addr p.len = p.bytes) :
    c addr ≠ 0xff
      ∧ (p.hdrLen = 1 ∧ extHeader (c addr) = false ∧ hdrOffset (c addr) = p.offset
          ∧ hdrWordEn (c addr) = p.wordEn
        ∨ p.hdrLen = 2 ∧ extHeader (c addr) = true ∧ c (addr + 1) ≠ 0xff
          ∧ allWordsDisabled (c (addr + 1)) = false
          ∧ extOffset (c addr) (c (addr + 1)) = p.offset ∧ hdrWordEn (c (addr + 1)) = p.wordEn) := by
  have hread := hdr_at h
  cases hext : p.ext with
  | false =>
      have hone : p.hdrLen = 1 := by
        unfold Packet.hdrLen
        rw [hext]
        rfl
      have hb : c addr = UInt8.ofNat (p.offset * 16 + p.wordEn) := by
        rw [hone] at hread
        unfold Packet.hdr at hread
        rw [hext] at hread
        exact List.head_eq_of_cons_eq hread
      obtain ⟨h1, h2, h3, h4⟩ := shortHeader ⟨p.offset, p.short hext⟩ ⟨p.wordEn, p.wordEn_lt⟩
      rw [hb]
      exact ⟨h1, Or.inl ⟨hone, h2, h3, h4⟩⟩
  | true =>
      have htwo : p.hdrLen = 2 := by
        unfold Packet.hdrLen
        rw [hext]
        rfl
      have hb : c addr = UInt8.ofNat (p.offset % 8 * 32 + 15)
          ∧ c (addr + 1) = UInt8.ofNat (p.offset / 8 * 16 + p.wordEn) := by
        rw [htwo] at hread
        unfold Packet.hdr at hread
        rw [hext] at hread
        have htail := List.tail_eq_of_cons_eq hread
        exact ⟨List.head_eq_of_cons_eq hread, List.head_eq_of_cons_eq htail⟩
      obtain ⟨h1, h2, h3, h4, h5, h6⟩ := longHeader ⟨p.offset, p.offset_lt⟩ ⟨p.wordEn, p.wordEn_lt⟩
      rw [hb.1, hb.2]
      exact ⟨h1, Or.inr ⟨htwo, h2, h3, h4, h5, h6⟩⟩

/-- The data of a packet that stands at `addr`. -/
theorem data_at {c : Mem} {addr : Nat} {p : Packet} (h : c.read addr p.len = p.bytes) :
    c.read (addr + p.hdrLen) (efuseCalculateWordCnts p.wordEn * 2) = p.data := by
  have hdrop := congrArg (List.drop p.hdrLen) h
  have hle : p.hdrLen ≤ p.len := Nat.le_add_right _ _
  have hlen : p.len - p.hdrLen = efuseCalculateWordCnts p.wordEn * 2 := by
    unfold Packet.len
    omega
  rw [Mem.drop_read _ hle, hlen] at hdrop
  rw [hdrop]
  unfold Packet.bytes
  rw [← p.length_hdr, List.drop_left]

/-- Whether a byte of it is programmed. -/
theorem programmed_at {c : Mem} {addr : Nat} {p : Packet} (h : c.read addr p.len = p.bytes) :
    (c.read (addr + p.hdrLen) (efuseCalculateWordCnts p.wordEn * 2)).any (· != 0xff) = !p.blank := by
  rw [data_at h]
  unfold Packet.blank
  rw [List.not_all_eq_any_not]
  rfl

theorem byte_at {c : Mem} {addr k : Nat} {p : Packet} (h : c.read addr p.len = p.bytes)
    (hk : k < efuseCalculateWordCnts p.wordEn * 2) :
    c (addr + p.hdrLen + k) = p.data.getD k 0xff := by
  rw [← data_at h, List.getD_eq_getElem?_getD, Mem.getElem?_read _ hk]
  rfl

theorem Packet.three_le_len (p : Packet) : 3 ≤ p.len := by
  have h1 := p.wordCnts_pos
  have h2 := p.hdrLen_bounds
  unfold Packet.len
  omega

theorem length_le_endOf (addr : Nat) (ps : List Packet) : addr + 3 * ps.length ≤ endOf addr ps := by
  induction ps generalizing addr with
  | nil => exact Nat.le_refl _
  | cons p ps ih =>
      have h := ih (addr + p.len)
      have hlen := p.three_le_len
      rw [endOf_cons, List.length_cons]
      omega

/-- The cells say which packet it is, -/
theorem packet_unique {c : Mem} {addr : Nat} {p q : Packet} (hp : c.read addr p.len = p.bytes)
    (hq : c.read addr q.len = q.bytes) : p = q := by
  have hdp := data_at hp
  have hdq := data_at hq
  have hhdr : p.offset = q.offset ∧ p.wordEn = q.wordEn ∧ p.hdrLen = q.hdrLen := by
    rcases (header_cases hp).2 with ⟨a1, a2, a3, a4⟩ | ⟨a1, a2, -, -, a5, a6⟩
    · rcases (header_cases hq).2 with ⟨b1, -, b3, b4⟩ | ⟨-, b2, -⟩
      · exact ⟨a3.symm.trans b3, a4.symm.trans b4, a1.trans b1.symm⟩
      · exact absurd (a2.symm.trans b2) Bool.false_ne_true
    · rcases (header_cases hq).2 with ⟨-, b2, -⟩ | ⟨b1, -, -, -, b5, b6⟩
      · exact absurd (b2.symm.trans a2) Bool.false_ne_true
      · exact ⟨a5.symm.trans b5, a6.symm.trans b6, a1.trans b1.symm⟩
  obtain ⟨hoff, hword, hlen⟩ := hhdr
  have hdata : p.data = q.data := by
    rw [← hdp, ← hdq, hword, hlen]
  have hext : p.ext = q.ext := by
    unfold Packet.hdrLen at hlen
    cases hpe : p.ext with
    | false =>
        cases hqe : q.ext with
        | false => rfl
        | true => simp [hpe, hqe] at hlen
    | true =>
        cases hqe : q.ext with
        | false => simp [hpe, hqe] at hlen
        | true => rfl
  cases p
  cases q
  cases hoff
  cases hword
  cases hext
  cases hdata
  rfl

/-- and so there is one log at most. -/
theorem Log.unique {c : Mem} : ∀ {ps qs : List Packet} {addr : Nat}, Log c addr ps → Log c addr qs →
    endOf addr ps < realContentLen → ps = qs := by
  intro ps
  induction ps with
  | nil =>
      intro qs addr hp hq hend
      rw [endOf_nil] at hend
      cases qs with
      | nil => rfl
      | cons q qs => exact absurd (hp addr (Nat.le_refl _) hend) (header_cases hq.1).1
  | cons p ps ih =>
      intro qs addr hp hq hend
      rw [endOf_cons] at hend
      cases qs with
      | nil =>
          have hge := endOf_ge (addr + p.len) ps
          exact absurd (hq addr (Nat.le_refl _) (by omega)) (header_cases hp.1).1
      | cons q qs =>
          obtain rfl := packet_unique hp.1 hq.1
          rw [ih hp.2 hq.2 hend]

/-! ## The end -/

/-- **The first walker finds the end** from any packet on. -/
theorem currentSizeLoop_log {c : Mem} : ∀ (ps : List Packet) (addr fuel : Nat), Log c addr ps →
    endOf addr ps < realContentLen → ps.length < fuel →
    currentSizeLoop c fuel addr = endOf addr ps := by
  intro ps
  induction ps with
  | nil =>
      intro addr fuel hlog hend hfuel
      rw [endOf_nil] at hend ⊢
      obtain ⟨fuel, rfl⟩ : ∃ n, fuel = n + 1 := ⟨fuel - 1, by simp at hfuel; omega⟩
      rw [currentSizeLoop, if_pos hend, if_pos (hlog addr (Nat.le_refl _) hend)]
  | cons p ps ih =>
      intro addr fuel hlog hend hfuel
      obtain ⟨hp, hlog⟩ := hlog
      rw [endOf_cons] at hend ⊢
      have hge := endOf_ge (addr + p.len) ps
      rw [List.length_cons] at hfuel
      obtain ⟨fuel, rfl⟩ : ∃ n, fuel = n + 1 := ⟨fuel - 1, by omega⟩
      have hlen : p.len = p.hdrLen + efuseCalculateWordCnts p.wordEn * 2 := rfl
      obtain ⟨hff, hhdr⟩ := header_cases hp
      rw [currentSizeLoop, if_pos (by omega), if_neg hff]
      rcases hhdr with ⟨h1, h2, -, h4⟩ | ⟨h1, h2, -, h4, -, h6⟩
      · rw [h2, if_neg Bool.false_ne_true]
        dsimp only
        have hnext : addr + efuseCalculateWordCnts p.wordEn * 2 + 1 = addr + p.len := by omega
        rw [h4, hnext]
        exact ih _ _ hlog hend (by omega)
      · rw [h2, if_pos rfl, h4, if_neg Bool.false_ne_true]
        dsimp only
        have hnext : addr + 1 + efuseCalculateWordCnts p.wordEn * 2 + 1 = addr + p.len := by omega
        rw [h6, hnext]
        exact ih _ _ hlog hend (by omega)

/-- From an address behind the end it finds that address. -/
theorem Log.size_behind {c : Mem} {ps : List Packet} (h : Log c 0 ps) {k : Nat}
    (hk : endOf 0 ps ≤ k) (hlt : k < realContentLen) : currentSizeLoop c realContentLen k = k := by
  have hff := h.tail hk hlt
  show currentSizeLoop c (511 + 1) k = k
  rw [currentSizeLoop, if_pos hlt, if_pos hff]

/-! ## The map -/

/-- The map behind a packet. -/
def applyPacket (words : EfuseWords) (p : Packet) : EfuseWords := fun s i =>
  if s = p.offset ∧ p.enables i = true then (p.byte (2 * i), p.byte (2 * i + 1)) else words s i

/-- The map of a log. -/
def logWords (ps : List Packet) : EfuseWords := ps.foldl applyPacket fun _ _ => (0xff, 0xff)

theorem rank_succ (wordEn i : Nat) :
    rank wordEn (i + 1) = rank wordEn i + if wordEn.testBit i then 0 else 1 := by
  unfold rank
  rw [List.range_succ, List.filter_append, List.length_append]
  cases h : wordEn.testBit i with
  | false => simp [h]
  | true => simp [h]

theorem rank_mono {wordEn i j : Nat} (h : i ≤ j) : rank wordEn i ≤ rank wordEn j := by
  induction h with
  | refl => exact Nat.le_refl _
  | step _ ih =>
      rw [rank_succ]
      omega

/-- An enabled word counts. -/
theorem rank_lt {wordEn i : Nat} (hi : i < 4) (hbit : wordEn.testBit i = false) :
    rank wordEn i < efuseCalculateWordCnts wordEn := by
  have hsucc := rank_succ wordEn i
  have hmono : rank wordEn (i + 1) ≤ rank wordEn 4 := rank_mono hi
  have hall : rank wordEn 4 = efuseCalculateWordCnts wordEn := rfl
  rw [hbit, if_neg Bool.false_ne_true] at hsucc
  omega

/-- The enabled words from `i` on are taken in order. -/
theorem readWords_range {c : Mem} {wden b : Nat} : ∀ (n i : Nat) (w : Nat → UInt8 × UInt8),
    b + rank wden i * 2 + 2 * n < realContentLen →
    readWords c wden (List.range' i n) (b + rank wden i * 2) w
      = (b + rank wden (i + n) * 2, fun j =>
          if i ≤ j ∧ j < i + n ∧ wden.testBit j = false then
            (c (b + rank wden j * 2), c (b + rank wden j * 2 + 1))
          else w j) := by
  intro n
  induction n with
  | zero =>
      intro i w _
      rw [List.range'_zero, readWords, Nat.add_zero]
      refine congrArg (Prod.mk _) (funext fun j => ?_)
      rw [if_neg (by omega)]
  | succ n ih =>
      intro i w h
      have hsucc := rank_succ wden i
      have hi : i + 1 + n = i + (n + 1) := by omega
      rw [List.range'_succ, readWords]
      cases hbit : wden.testBit i with
      | true =>
          rw [hbit, if_pos rfl] at hsucc
          have hsame : rank wden i = rank wden (i + 1) := hsucc.symm
          rw [if_pos rfl, hsame, ih (i + 1) w (by omega), hi]
          refine congrArg (Prod.mk _) (funext fun j => ?_)
          -- word `i` itself is not enabled
          by_cases hj : j = i
          · rw [if_neg (by omega), if_neg (by rw [hj, hbit]; simp)]
          · exact if_congr ⟨fun h => ⟨by omega, h.2⟩, fun h => ⟨by omega, h.2⟩⟩ rfl rfl
      | false =>
          rw [hbit, if_neg Bool.false_ne_true] at hsucc
          have hnext : b + rank wden i * 2 + 2 = b + rank wden (i + 1) * 2 := by omega
          rw [if_neg Bool.false_ne_true, if_pos (by omega), if_pos (by omega), hnext,
            ih (i + 1) _ (by omega), hi]
          refine congrArg (Prod.mk _) (funext fun j => ?_)
          by_cases hj : j = i
          · rw [if_neg (by omega), if_pos (by rw [hj]; exact ⟨by omega, by omega, hbit⟩), setWord,
              if_pos hj, hj]
          · rw [setWord, if_neg hj]
            exact if_congr ⟨fun h => ⟨by omega, h.2⟩, fun h => ⟨by omega, h.2⟩⟩ rfl rfl

/-- The words of a packet that stands at `addr`. -/
theorem readPacket_log {c : Mem} {addr : Nat} {p : Packet} {words : EfuseWords}
    (h : c.read addr p.len = p.bytes) (hend : addr + p.hdrLen + 8 < realContentLen) :
    readPacket c p.offset p.wordEn (addr + p.hdrLen) words
      = (addr + p.len, applyPacket words p) := by
  have hlt : p.offset < maxSection := p.offset_lt
  have hread := @readWords_range c p.wordEn (addr + p.hdrLen) 4 0 (words p.offset) (by
    unfold rank
    exact hend)
  have hrange : List.range' 0 4 = [0, 1, 2, 3] := rfl
  have hzero : addr + p.hdrLen + rank p.wordEn 0 * 2 = addr + p.hdrLen := rfl
  have hfour : addr + p.hdrLen + rank p.wordEn (0 + 4) * 2 = addr + p.len := by
    unfold Packet.len
    rw [← Nat.add_assoc]
    rfl
  rw [hrange, hzero, hfour] at hread
  unfold readPacket
  rw [if_pos hlt, hread]
  refine congrArg (Prod.mk _) (funext fun s => funext fun i => ?_)
  unfold applyPacket Packet.enables
  by_cases hs : s = p.offset
  · rw [if_pos hs]
    dsimp only
    by_cases hi : i < 4 ∧ p.wordEn.testBit i = false
    · have hrank : rank p.wordEn i * 2 + 1 < efuseCalculateWordCnts p.wordEn * 2 := by
        have hlt := rank_lt hi.1 hi.2
        omega
      have hlow : p.byte (2 * i) = c (addr + p.hdrLen + rank p.wordEn i * 2) := by
        unfold Packet.byte
        rw [Nat.mul_div_cancel_left i (by decide), Nat.mul_mod_right, Nat.add_zero,
          byte_at h (by omega)]
      have hhigh : p.byte (2 * i + 1) = c (addr + p.hdrLen + rank p.wordEn i * 2 + 1) := by
        have hdiv : (2 * i + 1) / 2 = i := by omega
        have hmod : (2 * i + 1) % 2 = 1 := by omega
        unfold Packet.byte
        rw [hdiv, hmod, Nat.add_assoc, byte_at h hrank]
      rw [if_pos ⟨Nat.zero_le i, by omega, hi.2⟩, if_pos ⟨hs, by simp [hi]⟩, hlow, hhigh]
    · rw [if_neg (fun h => hi ⟨by omega, h.2.2⟩), if_neg (fun h => hi (by simpa using h.2)), hs]
  · rw [if_neg hs, if_neg (fun h => hs h.1)]

/-- **The second walker applies packet after packet**, and stops behind the byte that ends the
log. -/
theorem readLoop_log {c : Mem} : ∀ (ps : List Packet) (addr fuel : Nat) (words : EfuseWords),
    Log c addr ps → endOf addr ps + 6 < realContentLen → ps.length < fuel →
    readLoop c fuel (c addr) (addr + 1) words = (endOf addr ps + 1, ps.foldl applyPacket words) := by
  intro ps
  induction ps with
  | nil =>
      intro addr fuel words hlog hend hfuel
      rw [endOf_nil] at hend ⊢
      obtain ⟨fuel, rfl⟩ : ∃ n, fuel = n + 1 := ⟨fuel - 1, by simp at hfuel; omega⟩
      have hff : c addr = 0xff := hlog addr (Nat.le_refl _) (by omega)
      rw [readLoop, if_neg (fun h => h.1 hff)]
      rfl
  | cons p ps ih =>
      intro addr fuel words hlog hend hfuel
      obtain ⟨hp, hlog⟩ := hlog
      rw [endOf_cons] at hend ⊢
      have hge := endOf_ge (addr + p.len) ps
      rw [List.length_cons] at hfuel
      obtain ⟨fuel, rfl⟩ : ∃ n, fuel = n + 1 := ⟨fuel - 1, by omega⟩
      have hlen : p.len = p.hdrLen + efuseCalculateWordCnts p.wordEn * 2 := rfl
      have hpos := p.wordCnts_pos
      obtain ⟨hff, hhdr⟩ := header_cases hp
      have hpkt := @readPacket_log c addr p words hp (by omega)
      have hrest := ih (addr + p.len) fuel (applyPacket words p) hlog hend (by omega)
      rw [readLoop, if_pos ⟨hff, by omega⟩]
      rcases hhdr with ⟨h1, h2, h3, h4⟩ | ⟨h1, h2, h3, h4, h5, h6⟩
      · rw [h1] at hpkt
        rw [h2, if_neg Bool.false_ne_true, h3, h4, hpkt]
        exact hrest
      · rw [h1] at hpkt
        rw [h2, if_pos rfl]
        dsimp only
        rw [if_pos h3, h4, if_neg Bool.false_ne_true, h5, h6, hpkt]
        exact hrest

/-- The map as it is read, and what is left in `EfuseUsedBytes`. -/
theorem readEFuse_log {c : Mem} {ps : List Packet} (hlog : Log c 0 ps)
    (hroom : endOf 0 ps + 6 < realContentLen) (hne : ps ≠ []) {offset sizeByte used rep : Nat}
    {pbuf : Mem} (hle : offset + sizeByte ≤ mapLen) :
    halEfuseReadEFuse offset sizeByte pbuf ⟨c, used, rep⟩
      = (fun i => if i < sizeByte then efuseTbl (logWords ps) (offset + i) else pbuf i,
          ⟨c, endOf 0 ps + 1, rep⟩) := by
  have hfuel : ps.length < realContentLen := by
    have hlen := length_le_endOf 0 ps
    omega
  obtain ⟨p, qs, rfl⟩ := List.exists_cons_of_ne_nil hne
  have hff := (header_cases hlog.1).1
  have hread := readLoop_log (p :: qs) 0 realContentLen (fun _ _ => (0xff, 0xff)) hlog hroom hfuel
  unfold halEfuseReadEFuse
  rw [if_neg (by omega), if_neg hff]
  dsimp only
  rw [hread]
  rfl

/-- **The map of a log**, read into a buffer that was preset. -/
theorem efuseMap_log {ps : List Packet} {e : EfuseState} (hlog : Log e.cells 0 ps)
    (hroom : endOf 0 ps + 6 < realContentLen) {k : Nat} (hk : k < mapLen) :
    efuseMap e k = efuseTbl (logWords ps) k := by
  obtain ⟨c, used, rep⟩ := e
  unfold efuseMap
  by_cases hne : ps = []
  · have hff : c 0 = 0xff := by
      refine hlog.tail ?_ (by decide)
      rw [hne]
      exact Nat.le_refl _
    unfold halEfuseReadEFuse efuseTbl
    rw [if_neg (by decide), if_pos hff, hne]
    split
    · rfl
    · rfl
  · rw [readEFuse_log hlog hroom hne (by decide)]
    dsimp only
    rw [if_pos hk, Nat.zero_add]

/-! ## One section -/

/-- The byte that the packet buffer has at place `k`. -/
def overlay (p : Packet) (tmpdata : Mem) : Mem := fun k =>
  if k < p.data.length then p.data.getD k 0xff else tmpdata k

/-- What the third walker makes of a packet: `tmpdata` and `data`. -/
def showPacket (s : Nat) (b : Mem × Mem) (p : Packet) : Mem × Mem :=
  if p.offset = s then
    (overlay p b.1,
      if p.blank then b.2 else efuseWordEnableDataRead p.wordEn (overlay p b.1) b.2)
  else b

/-- **The third walker** goes from packet to packet. -/
theorem pgReadLoop_log {c : Mem} {s : Nat} : ∀ (ps : List Packet) (addr fuel : Nat)
    (tmpdata data : Mem), Log c addr ps → endOf addr ps < realContentLen → 2 * ps.length < fuel →
    pgReadLoop c s fuel addr none tmpdata data = (ps.foldl (showPacket s) (tmpdata, data)).2 := by
  intro ps
  induction ps with
  | nil =>
      intro addr fuel tmpdata data hlog hend hfuel
      rw [endOf_nil] at hend
      obtain ⟨fuel, rfl⟩ : ∃ n, fuel = n + 1 := ⟨fuel - 1, by simp at hfuel; omega⟩
      rw [pgReadLoop, if_pos hend, if_pos (hlog addr (Nat.le_refl _) hend)]
      rfl
  | cons p ps ih =>
      intro addr fuel tmpdata data hlog hend hfuel
      obtain ⟨hp, hlog⟩ := hlog
      rw [endOf_cons] at hend
      have hge := endOf_ge (addr + p.len) ps
      rw [List.length_cons] at hfuel
      obtain ⟨fuel, rfl⟩ : ∃ n, fuel = n + 2 := ⟨fuel - 2, by omega⟩
      have hlen : p.len = p.hdrLen + efuseCalculateWordCnts p.wordEn * 2 := rfl
      obtain ⟨hff, hhdr⟩ := header_cases hp
      -- both kinds of header come to the same: the address of its last byte, section and words
      have hparse : (if extHeader (c addr) then
            if allWordsDisabled (c (addr + 1)) then none
            else some (addr + 1, extOffset (c addr) (c (addr + 1)), hdrWordEn (c (addr + 1)))
          else some (addr, hdrOffset (c addr), hdrWordEn (c addr)))
          = some (addr + p.hdrLen - 1, p.offset, p.wordEn) := by
        rcases hhdr with ⟨h1, h2, h3, h4⟩ | ⟨h1, h2, -, h4, h5, h6⟩
        · rw [h2, if_neg Bool.false_ne_true, h1, h3, h4]
          rfl
        · rw [h2, if_pos rfl, h4, if_neg Bool.false_ne_true, h1, h5, h6]
          rfl
      have hhl := p.hdrLen_bounds
      have hdata : addr + p.hdrLen - 1 + 1 = addr + p.hdrLen := by omega
      have hnext : addr + p.hdrLen - 1 + efuseCalculateWordCnts p.wordEn * 2 + 1 = addr + p.len := by
        omega
      have hover : (fun k => if k < efuseCalculateWordCnts p.wordEn * 2
            then c (addr + p.hdrLen + k) else tmpdata k) = overlay p tmpdata := by
        funext k
        unfold overlay
        rw [p.length_data]
        split
        · rename_i hk
          rw [byte_at hp hk]
        · rfl
      have hblank := programmed_at hp
      rw [pgReadLoop, if_pos (by omega), if_neg hff]
      dsimp only
      rw [hparse]
      dsimp only
      rw [hdata, hnext, hover, hblank, List.foldl_cons]
      unfold showPacket
      by_cases hs : p.offset = s
      · rw [if_pos hs, if_pos hs]
        cases hb : p.blank with
        | true =>
            rw [if_neg (by simp), if_pos rfl]
            exact ih _ _ _ _ hlog hend (by omega)
        | false =>
            rw [if_pos (by rfl), if_neg (by simp), pgReadLoop, if_pos (by omega), hnext]
            exact ih _ _ _ _ hlog hend (by omega)
      · rw [if_neg hs, if_neg hs]
        exact ih _ _ _ _ hlog hend (by omega)

end Rtl8812au.Efuse

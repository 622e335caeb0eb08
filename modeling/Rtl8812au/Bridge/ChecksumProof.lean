import Mathlib.Data.Nat.Bitwise
import Rtl8812au.Bridge.RewriteProof

/-!
# Checksums of rewritten frames

The broadcast flag of a DHCP request is added to the checksum with all the flags that stand there
already, so the checksum stays right only where there are none. The checksum of a neighbour discovery
message is computed for a length whose bytes are swapped.
-/

namespace Rtl8812au.Nat25

/-! ## The broadcast flag -/

/-- A whole DHCP request: an IPv4 header, then a UDP datagram in the frame that reaches to the cookie. -/
def DhcpRequest (skb : Skb) : Prop :=
  isDhcpRequest skb.data = true ∧ 5 ≤ (skb.data 14).toNat % 16
    ∧ 248 ≤ skb.data.be16 (udph skb.data + 4) ∧ udph skb.data + skb.data.be16 (udph skb.data + 4) ≤ skb.len

/-- The words that a UDP checksum covers: the pseudo-header and the datagram. -/
def udpSum (m : Mem) : Nat :=
  wordSum (m.read 26 8 ++ ([0, 17] ++ m.read (udph m + 4) 2))
    + wordSum (m.read (udph m) (m.be16 (udph m + 4)))

/-- The checksum of the datagram. -/
def udpCheck (m : Mem) : Nat := m.be16 (udph m + 6)

/-- The flags of the DHCP message. -/
def dhcpFlags (m : Mem) : Nat := m.be16 (dhcph m + 10)

/-- There is a checksum, and it is right. -/
def UdpValid (m : Mem) : Prop := udpCheck m ≠ 0 ∧ SumsUp (udpSum m)

/-- The broadcast flag is set, nothing else but the checksum is changed, and the checksum is right where
it was and 0 where it was. -/
def BroadcastSet (m m' : Mem) : Prop :=
  m' (dhcph m + 10) = m (dhcph m + 10) ||| 0x80
    ∧ (∀ k, k ≠ dhcph m + 10 → k ≠ udph m + 6 → k ≠ udph m + 7 → m' k = m k)
    ∧ (UdpValid m ∧ UdpValid m' ∨ udpCheck m = 0 ∧ udpCheck m' = 0)

/-- The flag is there already, or it is to be set and either there are no flags and a checksum that does
not become 0, or there is no checksum and all the other flags. -/
def BroadcastCounts (dhcpBcstDisable : Bool) (m : Mem) : Prop :=
  0x8000 ≤ dhcpFlags m ∨ dhcpBcstDisable = false
    ∧ (dhcpFlags m = 0 ∧ udpCheck m ≠ 0 ∧ udpCheck m ≠ 0x8000 ∨ dhcpFlags m = 0x7fff ∧ udpCheck m = 0)

theorem or_flag_low {low : Nat} (hlow : low < 128) : low ||| 0x80 = low + 128 := by
  have h : 128 + low = 128 ||| low := Nat.two_pow_add_eq_or_of_lt (i := 7) hlow 1
  rw [Nat.or_comm, ← h, Nat.add_comm]

/-- The flag is added where it is not set. -/
theorem or_flag {low high : Nat} (hlow : low < 128) :
    (low + high * 256) ||| 0x80 = low + high * 256 + 128 := by
  have hword := Nat.two_pow_add_eq_or_of_lt (i := 8) (show low < 2 ^ 8 by omega) high
  have hword' := Nat.two_pow_add_eq_or_of_lt (i := 8) (show low + 128 < 2 ^ 8 by omega) high
  have hsum : low + high * 256 = 2 ^ 8 * high + low := by omega
  rw [hsum, hword, Nat.or_assoc, or_flag_low hlow, ← hword', ← hword]
  omega

theorem and_flag {low high : Nat} (hlow : low < 256) : (low + high * 256) &&& 0x80 = 0 ↔ low < 128 := by
  have hmask : (low + high * 256) &&& 0x80 = _ := Nat.and_two_pow (low + high * 256) 7
  rw [hmask, Nat.testBit_eq_decide_div_mod_eq]
  by_cases hbit : (low + high * 256) / 2 ^ 7 % 2 = 1
  · rw [decide_eq_true hbit]
    simp only [Bool.toNat_true]
    omega
  · rw [decide_eq_false hbit]
    simp only [Bool.toNat_false]
    omega

theorem le16_eq (m : Mem) (a : Nat) : m.le16 a = (m a).toNat + (m (a + 1)).toNat * 256 := rfl

theorem be16_eq (m : Mem) (a : Nat) : m.be16 a = (m a).toNat * 256 + (m (a + 1)).toNat := rfl

theorem wordSum_hostBytes {n : Nat} (h : n < 65536) : wordSum (hostBytes n) = n := by
  unfold hostBytes
  rw [wordSum_two, UInt8.toNat_ofNat', UInt8.toNat_ofNat']
  omega

/-- What the host stores it reads back. -/
theorem le16_write_hostBytes (m : Mem) (a : Nat) {n : Nat} (h : n < 65536) :
    (m.write a (hostBytes n)).le16 a = n := by
  have hread := Mem.read_write_self m a (hostBytes n)
  rw [← wordSum_read_two, show (2 : Nat) = (hostBytes n).length from rfl, hread, wordSum_hostBytes h]

section

variable {m : Mem}

theorem udph_ge (hihl : 5 ≤ (m 14).toNat % 16) : 34 ≤ udph m := by
  unfold udph
  omega

/-- The flags are written, then the checksum. -/
theorem setBroadcast_eq (hclear : (m (dhcph m + 10)).toNat < 128) :
    setBroadcast m = (m.write (dhcph m + 10) (hostBytes (m.le16 (dhcph m + 10) + 128))).write (udph m + 6)
      (hostBytes (65535 - foldCarries (65535 - m.le16 (udph m + 6) + (m.le16 (dhcph m + 10) + 128)))) := by
  have hflags : m.le16 (dhcph m + 10) ||| 0x80 = m.le16 (dhcph m + 10) + 128 := or_flag hclear
  unfold setBroadcast
  rw [hflags]

/-- Where the flag is set nothing but the checksum is changed besides. -/
theorem setBroadcast_bytes (hclear : (m (dhcph m + 10)).toNat < 128) :
    setBroadcast m (dhcph m + 10) = m (dhcph m + 10) ||| 0x80
      ∧ ∀ k, k ≠ dhcph m + 10 → k ≠ udph m + 6 → k ≠ udph m + 7 → setBroadcast m k = m k := by
  have hlow : UInt8.ofNat (m.le16 (dhcph m + 10) + 128) = m (dhcph m + 10) ||| 0x80 := by
    have hor : (m (dhcph m + 10) ||| 0x80).toNat = (m (dhcph m + 10)).toNat + 128 := or_flag_low hclear
    rw [← UInt8.toNat_inj, hor, UInt8.toNat_ofNat', le16_eq]
    omega
  have hhigh : UInt8.ofNat ((m.le16 (dhcph m + 10) + 128) / 256) = m (dhcph m + 10 + 1) := by
    have hbyte := (m (dhcph m + 10 + 1)).toNat_lt
    rw [← UInt8.toNat_inj, UInt8.toNat_ofNat', le16_eq]
    omega
  have hbytes : hostBytes (m.le16 (dhcph m + 10) + 128) = [m (dhcph m + 10) ||| 0x80, m (dhcph m + 10 + 1)] := by
    unfold hostBytes
    rw [hlow, hhigh]
  have hbehind : udph m + 8 = dhcph m := rfl
  rw [setBroadcast_eq hclear, hbytes]
  constructor
  · rw [Mem.write_of_ge (by simp only [hostBytes, List.length_cons, List.length_nil]; omega)]
    exact Mem.write_inside (i := 0) (by simp)
  · intro k hflag hcheck hcheck'
    have hout : ∀ bs : List UInt8, bs.length = 2 → ∀ m' : Mem, m'.write (udph m + 6) bs k = m' k := by
      intro bs hbs m'
      rcases Nat.lt_or_ge k (udph m + 6) with hk | hk
      · exact Mem.write_of_lt hk
      · exact Mem.write_of_ge (by omega)
    rw [hout _ rfl]
    rcases Nat.lt_trichotomy k (dhcph m + 10 + 1) with hk | hk | hk
    · exact Mem.write_of_lt (by omega)
    · rw [hk]
      exact Mem.write_inside (i := 1) (by simp)
    · exact Mem.write_of_ge (by simp only [List.length_cons, List.length_nil]; omega)

/-- **The sum over the datagram** changes by the new checksum and by the flag. -/
theorem udpSum_setBroadcast (hihl : 5 ≤ (m 14).toNat % 16) (hlen : 248 ≤ m.be16 (udph m + 4))
    (hclear : (m (dhcph m + 10)).toNat < 128) :
    udph (setBroadcast m) = udph m
      ∧ (setBroadcast m).le16 (udph m + 6)
        = 65535 - foldCarries (65535 - m.le16 (udph m + 6) + (m.le16 (dhcph m + 10) + 128))
      ∧ udpSum (setBroadcast m) + m.le16 (udph m + 6)
        = udpSum m + (setBroadcast m).le16 (udph m + 6) + 128 := by
  have hu := udph_ge hihl
  have hbehind : dhcph m = udph m + 8 := rfl
  have hsame := (setBroadcast_bytes hclear).2
  have hudph : udph (setBroadcast m) = udph m := by
    unfold udph
    rw [hsame 14 (by omega) (by omega) (by omega)]
  have hflags : m.le16 (dhcph m + 10) + 128 < 65536 := by
    have hhigh := (m (dhcph m + 10 + 1)).toNat_lt
    rw [le16_eq]
    omega
  have hcheck : (setBroadcast m).le16 (udph m + 6)
      = 65535 - foldCarries (65535 - m.le16 (udph m + 6) + (m.le16 (dhcph m + 10) + 128)) := by
    rw [setBroadcast_eq hclear]
    exact le16_write_hostBytes _ _ (by omega)
  refine ⟨hudph, hcheck, ?_⟩
  -- neither the addresses nor the length are written to
  have hpseudo : (setBroadcast m).read 26 8 = m.read 26 8
      ∧ (setBroadcast m).read (udph m + 4) 2 = m.read (udph m + 4) 2 :=
    ⟨Mem.read_congr fun i hi => hsame _ (by omega) (by omega) (by omega),
      Mem.read_congr fun i hi => hsame _ (by omega) (by omega) (by omega)⟩
  have hudplen : (setBroadcast m).be16 (udph m + 4) = m.be16 (udph m + 4) := by
    rw [be16_eq, be16_eq, hsame (udph m + 4) (by omega) (by omega) (by omega),
      hsame (udph m + 4 + 1) (by omega) (by omega) (by omega)]
  have hwords : wordSum ((setBroadcast m).read (udph m) (m.be16 (udph m + 4))) + m.le16 (udph m + 6)
      = wordSum (m.read (udph m) (m.be16 (udph m + 4))) + (setBroadcast m).le16 (udph m + 6) + 128 := by
    -- first the flag, then the checksum, each a word of the datagram
    have hfirst : wordSum ((m.write (udph m + 2 * 9) (hostBytes (m.le16 (dhcph m + 10) + 128))).read (udph m)
        (m.be16 (udph m + 4))) + m.le16 (udph m + 2 * 9)
          = wordSum (m.read (udph m) (m.be16 (udph m + 4)))
            + wordSum (hostBytes (m.le16 (dhcph m + 10) + 128)) := wordSum_read_write rfl (by omega)
    have hsecond : wordSum ((setBroadcast m).read (udph m) (m.be16 (udph m + 4)))
        + (m.write (dhcph m + 10) (hostBytes (m.le16 (dhcph m + 10) + 128))).le16 (udph m + 2 * 3)
          = wordSum ((m.write (dhcph m + 10) (hostBytes (m.le16 (dhcph m + 10) + 128))).read (udph m)
              (m.be16 (udph m + 4))) + wordSum (hostBytes ((setBroadcast m).le16 (udph m + 6))) := by
      rw [hcheck, setBroadcast_eq hclear]
      exact wordSum_read_write (j := 3) rfl (by omega)
    have hold : (m.write (dhcph m + 10) (hostBytes (m.le16 (dhcph m + 10) + 128))).le16 (udph m + 2 * 3)
        = m.le16 (udph m + 6) := by
      rw [le16_eq, Mem.write_of_lt (by omega), Mem.write_of_lt (by omega)]
      rfl
    have hnew : (setBroadcast m).le16 (udph m + 6) < 65536 := by
      rw [hcheck]
      omega
    rw [wordSum_hostBytes hflags] at hfirst
    rw [hold, wordSum_hostBytes hnew] at hsecond
    have hat : udph m + 2 * 9 = dhcph m + 10 := by omega
    rw [hat] at hfirst
    omega
  unfold udpSum
  rw [hudph, hudplen, hpseudo.1, hpseudo.2]
  omega

theorem udpSum_pos (m : Mem) : 0 < udpSum m := by
  have hproto : wordSum ([0, 17] ++ m.read (udph m + 4) 2) = 17 * 256 + wordSum (m.read (udph m + 4) 2) :=
    wordSum_append rfl _
  have haddr : (m.read 26 8).length % 2 = 0 := by rw [Mem.length_read]
  unfold udpSum
  rw [wordSum_append haddr, hproto]
  omega

theorem udpValid_iff (m : Mem) : UdpValid m ↔ udpCheck m ≠ 0 ∧ udpSum m % 65535 = 0 :=
  and_congr_right fun _ => sumsUp_iff (udpSum_pos m)

end

/-- The arithmetic of it, for the flags `F`, the checksums `c` and `c'` and the sums `S` and `S'`. -/
theorem counts_arith {F c c' f S S' : Nat} (hF : F < 65536) (hclear : F % 256 < 128) (hc : c < 65536)
    (hlt : f < 65536) (hpos : 0 < f) (hmod : f % 65535 = (65535 - c + (F + 128)) % 65535)
    (hnew : c' = 65535 - f) (hsum : S' + c = S + c' + 128) (hvalid : c ≠ 0 ∧ S % 65535 = 0 ∨ c = 0) :
    ((c ≠ 0 ∧ S % 65535 = 0) ∧ (c' ≠ 0 ∧ S' % 65535 = 0) ∨ c = 0 ∧ c' = 0)
      ↔ F = 0 ∧ c ≠ 0 ∧ c ≠ 0x80 ∨ F = 0xff7f ∧ c = 0 := by
  by_cases hc0 : c = 0
  · -- without a checksum the flags alone make up the new one
    subst hc0
    omega
  · have hS : S % 65535 = 0 := by omega
    have hlack : (S' + F) % 65535 = 0 := by omega
    constructor
    · rintro (⟨-, hne, hS'⟩ | ⟨h, -⟩)
      · have hF0 : F = 0 := by omega
        exact Or.inl ⟨hF0, hc0, by omega⟩
      · exact absurd h hc0
    · rintro (⟨hF0, -, hne⟩ | ⟨-, h⟩)
      · exact Or.inl ⟨⟨hc0, hS⟩, by omega, by omega⟩
      · exact absurd h hc0

/-- What the flags lack of being zero is missing in the sum. -/
theorem checksum_counts {m m' : Mem} (hvalid : UdpValid m ∨ udpCheck m = 0)
    (hclear : (m (dhcph m + 10)).toNat < 128) (hudph : udph m' = udph m)
    (hcheck : m'.le16 (udph m + 6)
      = 65535 - foldCarries (65535 - m.le16 (udph m + 6) + (m.le16 (dhcph m + 10) + 128)))
    (hsum : udpSum m' + m.le16 (udph m + 6) = udpSum m + m'.le16 (udph m + 6) + 128) :
    (UdpValid m ∧ UdpValid m' ∨ udpCheck m = 0 ∧ udpCheck m' = 0)
      ↔ dhcpFlags m = 0 ∧ udpCheck m ≠ 0 ∧ udpCheck m ≠ 0x8000 ∨ dhcpFlags m = 0x7fff ∧ udpCheck m = 0 := by
  rw [udpValid_iff] at hvalid ⊢
  rw [udpValid_iff]
  have hlt := foldCarries_lt (65535 - m.le16 (udph m + 6) + (m.le16 (dhcph m + 10) + 128))
  have hmod := foldCarries_mod (65535 - m.le16 (udph m + 6) + (m.le16 (dhcph m + 10) + 128))
  have hpos : 0 < foldCarries (65535 - m.le16 (udph m + 6) + (m.le16 (dhcph m + 10) + 128)) :=
    foldCarries_pos (by omega)
  -- in terms of the bytes of the flags and of the two checksums
  have hflags : dhcpFlags m = (m (dhcph m + 10)).toNat * 256 + (m (dhcph m + 10 + 1)).toNat := rfl
  have hflags' := le16_eq m (dhcph m + 10)
  have hold : udpCheck m = (m (udph m + 6)).toNat * 256 + (m (udph m + 6 + 1)).toNat := rfl
  have hold' := le16_eq m (udph m + 6)
  have hnew : udpCheck m' = (m' (udph m + 6)).toNat * 256 + (m' (udph m + 6 + 1)).toNat := by
    unfold udpCheck
    rw [hudph]
    rfl
  have hnew' := le16_eq m' (udph m + 6)
  have hb0 := (m (dhcph m + 10 + 1)).toNat_lt
  have hb1 := (m (udph m + 6)).toNat_lt
  have hb2 := (m (udph m + 6 + 1)).toNat_lt
  have hb3 := (m' (udph m + 6)).toNat_lt
  have hb4 := (m' (udph m + 6 + 1)).toNat_lt
  have hzero : udpCheck m = 0 ↔ m.le16 (udph m + 6) = 0 := by omega
  have hflag : udpCheck m = 0x8000 ↔ m.le16 (udph m + 6) = 0x80 := by omega
  have hzero' : udpCheck m' = 0 ↔ m'.le16 (udph m + 6) = 0 := by omega
  have hnone : dhcpFlags m = 0 ↔ m.le16 (dhcph m + 10) = 0 := by omega
  have hall : dhcpFlags m = 0x7fff ↔ m.le16 (dhcph m + 10) = 0xff7f := by omega
  rw [Ne, hzero] at hvalid
  rw [Ne, Ne, Ne, hzero, hflag, hzero', hnone, hall]
  exact counts_arith (by omega) (by omega) (by omega) hlt hpos hmod hcheck hsum hvalid

/-- **A DHCP request keeps its checksum exactly where the flag counts.** -/
theorem broadcastSet_iff {skb : Skb} (hreq : DhcpRequest skb)
    (hvalid : UdpValid skb.data ∨ udpCheck skb.data = 0) (dhcpBcstDisable : Bool) :
    BroadcastSet skb.data (dhcpFlagBcast dhcpBcstDisable skb.data)
      ↔ BroadcastCounts dhcpBcstDisable skb.data := by
  obtain ⟨hreq, hihl, hlen, -⟩ := hreq
  have hflagByte := (skb.data (dhcph skb.data + 10)).toNat_lt
  have hflagHigh := (skb.data (dhcph skb.data + 10 + 1)).toNat_lt
  have hflags : dhcpFlags skb.data = (skb.data (dhcph skb.data + 10)).toNat * 256
    + (skb.data (dhcph skb.data + 10 + 1)).toNat := rfl
  have hclear_iff : skb.data.le16 (dhcph skb.data + 10) &&& 0x80 = 0
      ↔ (skb.data (dhcph skb.data + 10)).toNat < 128 := and_flag hflagByte
  have hor : ∀ x : BitVec 8, (⟨x⟩ : UInt8) = ⟨x⟩ ||| 0x80 ↔ ¬ x.toNat < 128 := by decide
  unfold BroadcastSet BroadcastCounts
  -- without the flag it is set, unless that is switched off
  by_cases hclear : (skb.data (dhcph skb.data + 10)).toNat < 128
  · cases dhcpBcstDisable with
    | true =>
        have hsame : dhcpFlagBcast true skb.data = skb.data := rfl
        rw [hsame]
        constructor
        · rintro ⟨hset, -⟩
          exact absurd hclear ((hor (skb.data _).toBitVec).mp hset)
        · rintro (hset | ⟨hfalse, -⟩)
          · omega
          · cases hfalse
    | false =>
        have hset : dhcpFlagBcast false skb.data = setBroadcast skb.data := by
          unfold dhcpFlagBcast
          rw [if_pos hreq, if_pos (hclear_iff.mpr hclear)]
          rfl
        rw [hset]
        have hbytes := setBroadcast_bytes hclear
        obtain ⟨hudph, hcheck, hsum⟩ := udpSum_setBroadcast hihl hlen hclear
        -- what is left to ask is the checksum
        have hlast := checksum_counts hvalid hclear hudph hcheck hsum
        constructor
        · rintro ⟨-, -, hright⟩
          exact Or.inr ⟨rfl, hlast.mp hright⟩
        · rintro (hset | ⟨-, hcounts⟩)
          · omega
          · exact ⟨hbytes.1, hbytes.2, hlast.mpr hcounts⟩
  · -- the flag is there, and the frame is left as it is
    have hsame : dhcpFlagBcast dhcpBcstDisable skb.data = skb.data := by
      unfold dhcpFlagBcast
      rw [if_pos hreq, if_neg (fun h => hclear (hclear_iff.mp h)), ite_self]
    rw [hsame]
    refine ⟨fun _ => Or.inl (by omega), fun _ => ⟨(hor (skb.data _).toBitVec).mpr hclear, fun _ _ _ _ => rfl, ?_⟩⟩
    rcases hvalid with h | h
    · exact Or.inl ⟨h, h⟩
    · exact Or.inr ⟨h, h⟩

/-! ## Neighbour discovery -/

/-- The words that an ICMPv6 checksum covers, for a message of `len` bytes. -/
def icmp6Sum (m : Mem) (len : Nat) : Nat :=
  wordSum (pseudoHeader (saddr6 m) (daddr6 m) (UInt32.ofNat len) 58) + wordSum (m.read 54 len)

/-- The checksum of the message is right. -/
def Icmp6Valid (m : Mem) : Prop := SumsUp (icmp6Sum m (m.be16 18))

/-- The handler rewrites the option at `k` bytes behind the first option: the frame is long enough, comes
from an address, carries a whole message with options, and has the option. -/
structure NdRewrites (skb : Skb) (fixed : Nat) (tag : UInt8) (k : Nat) : Prop where
  long : 58 < skb.len
  sent : saddr6 skb.data ≠ List.replicate 16 0
  icmp6 : skb.data 20 = 58
  kind : ndOptions (skb.data 54) = some (fixed, tag)
  fixed_le : fixed ≤ skb.len - 54
  option : LinkOption tag (skb.data.read (54 + fixed) (skb.len - 54 - fixed)) k
  payload : 8 ≤ skb.data.be16 18
  payload_le : 54 + skb.data.be16 18 ≤ skb.len

/-- The frame with the address in the option. -/
def withAddr (skb : Skb) (fixed k : Nat) (myHwaddr : MacAddr) : Mem :=
  skb.data.write (54 + fixed + k + 2) myHwaddr.bytes

/-- The sums over the length and over the length with its bytes swapped agree, with the new address and
without a checksum. -/
def SwappedAgrees (skb : Skb) (fixed k : Nat) (myHwaddr : MacAddr) : Prop :=
  let m := (withAddr skb fixed k myHwaddr).write 56 (hostBytes 0)
  icmp6Sum m (skb.data.be16 18) % 65535 = icmp6Sum m (skb.data.le16 18) % 65535

theorem ndOptions_fixed {icmp6Type : UInt8} {fixed : Nat} {tag : UInt8}
    (h : ndOptions icmp6Type = some (fixed, tag)) : 8 ≤ fixed := by
  unfold ndOptions at h
  split at h
  · cases h
    decide
  · split at h
    · cases h
      decide
    · split at h
      · cases h
        decide
      · split at h
        · cases h
          decide
        · split at h
          · cases h
            decide
          · cases h

/-- **What the handler comes to** where it rewrites the option. -/
theorem insert_rewrites {skb : Skb} {fixed : Nat} {tag : UInt8} {k : Nat} (h : NdRewrites skb fixed tag k)
    (c : KernelCsum) (myHwaddr : MacAddr) :
    ∃ fuel, nat25InsertIpv6 c fuel myHwaddr skb
      = some (.done (0, { skb with data := c.setIcmp6Cksum (withAddr skb fixed k myHwaddr) })) := by
  have hlong := h.long
  have hfixed := h.fixed_le
  have hinside := h.option.le
  rw [Mem.length_read] at hinside
  have hends := ends_of_linkOption h.option (show 54 + fixed + (skb.len - 54 - fixed) = skb.len by omega)
  obtain ⟨fuel, hupdate⟩ := update_some myHwaddr (show 54 < skb.len by omega) h.kind hfixed (by omega) hends
  refine ⟨fuel, ?_⟩
  have haccepted : ¬ (14 ≤ skb.len ∧ skb.len - 14 ≤ 40) := by omega
  rw [nat25InsertIpv6, if_neg haccepted, if_neg h.sent, if_pos ⟨h.icmp6, hlong⟩, hupdate]
  rfl

theorem wordSum_pseudoHeader_pos {saddr daddr : List UInt8} (hs : saddr.length = 16)
    (hd : daddr.length = 16) (len : UInt32) : 0 < wordSum (pseudoHeader saddr daddr len 58) := by
  have hs2 : saddr.length % 2 = 0 := by rw [hs]
  have hd2 : daddr.length % 2 = 0 := by rw [hd]
  have hproto : wordSum [(len >>> 24).toUInt8, (len >>> 16).toUInt8, (len >>> 8).toUInt8, len.toUInt8,
      0, 0, 0, 58] = (len >>> 24).toUInt8.toNat + (len >>> 16).toUInt8.toNat * 256
        + ((len >>> 8).toUInt8.toNat + len.toUInt8.toNat * 256 + (0 + 0 * 256 + (0 + 58 * 256 + 0))) := rfl
  unfold pseudoHeader
  rw [wordSum_append hs2, wordSum_append hd2, hproto]
  omega

/-- **What the checksum is right for.** After `icmp6_cksum` is set the message sums up exactly if the sums
over the two lengths agree. -/
theorem setIcmp6Cksum_sumsUp (c : KernelCsum) (m : Mem) {len : Nat} (hlen : 4 ≤ len) :
    SumsUp (icmp6Sum (c.setIcmp6Cksum m) len)
      ↔ icmp6Sum (m.write 56 (hostBytes 0)) len % 65535
        = icmp6Sum (m.write 56 (hostBytes 0)) (m.le16 18) % 65535 := by
  have hpayload : (m.write 56 (hostBytes 0)).le16 18 = m.le16 18 := by
    rw [le16_eq, Mem.write_of_lt (by decide), Mem.write_of_lt (by decide)]
    rfl
  have hset : c.setIcmp6Cksum m = (m.write 56 (hostBytes 0)).write 56 (hostBytes
      (c.csumIpv6Magic (saddr6 (m.write 56 (hostBytes 0))) (daddr6 (m.write 56 (hostBytes 0)))
        (UInt32.ofNat (m.le16 18)) 58
        (c.csumPartial ((m.write 56 (hostBytes 0)).read 54 (m.le16 18)))).toNat) := by
    rw [← hpayload]
    rfl
  have hzero : (m.write 56 (hostBytes 0)).le16 56 = 0 := le16_write_hostBytes m 56 (by decide)
  rw [hset]
  -- `n` is the message without a checksum, `cksum` what the kernel makes of the swapped length
  generalize m.write 56 (hostBytes 0) = n at hzero ⊢
  have hmagic := c.csumIpv6Magic_sum (saddr6 n) (daddr6 n) (UInt32.ofNat (m.le16 18)) 58
    (c.csumPartial (n.read 54 (m.le16 18))) (Mem.length_read n _ _) (Mem.length_read n _ _)
  have hpart := c.csumPartial_sum (n.read 54 (m.le16 18))
  generalize c.csumIpv6Magic (saddr6 n) (daddr6 n) (UInt32.ofNat (m.le16 18)) 58
    (c.csumPartial (n.read 54 (m.le16 18))) = cksum at hmagic ⊢
  have hword : wordSum (hostBytes cksum.toNat) = cksum.toNat := wordSum_hostBytes cksum.toNat_lt
  have haddrs : saddr6 (n.write 56 (hostBytes cksum.toNat)) = saddr6 n
      ∧ daddr6 (n.write 56 (hostBytes cksum.toNat)) = daddr6 n :=
    ⟨Mem.read_write_disjoint (Or.inl (by decide)), Mem.read_write_disjoint (Or.inl (by decide))⟩
  have hwords : wordSum ((n.write 56 (hostBytes cksum.toNat)).read 54 len) + n.le16 56
      = wordSum (n.read 54 len) + wordSum (hostBytes cksum.toNat) :=
    wordSum_read_write (j := 1) rfl (by omega)
  have hpos := wordSum_pseudoHeader_pos (Mem.length_read n 22 16) (Mem.length_read n 38 16) (UInt32.ofNat len)
  have hsum : icmp6Sum (n.write 56 (hostBytes cksum.toNat)) len = icmp6Sum n len + cksum.toNat := by
    unfold icmp6Sum
    rw [haddrs.1, haddrs.2]
    omega
  have hswapped : (icmp6Sum n (m.le16 18) + cksum.toNat) % 65535 = 0 := by
    unfold icmp6Sum
    omega
  have hpos' : 0 < icmp6Sum n len := Nat.lt_of_lt_of_le hpos (Nat.le_add_right _ _)
  rw [hsum, sumsUp_iff (by omega)]
  omega

/-- What stands in front of the options is not touched. -/
theorem withAddr_of_lt {skb : Skb} {fixed k : Nat} (myHwaddr : MacAddr) (hfixed : 8 ≤ fixed) {a : Nat}
    (ha : a < 64) : withAddr skb fixed k myHwaddr a = skb.data a := Mem.write_of_lt (by omega)

/-- **A rewritten message is right exactly where the sums over the two lengths agree.** -/
theorem icmp6Valid_iff {skb : Skb} {fixed : Nat} {tag : UInt8} {k : Nat} (h : NdRewrites skb fixed tag k)
    (c : KernelCsum) (myHwaddr : MacAddr) :
    Icmp6Valid (c.setIcmp6Cksum (withAddr skb fixed k myHwaddr)) ↔ SwappedAgrees skb fixed k myHwaddr := by
  have hfixed := ndOptions_fixed h.kind
  have hpayload : (withAddr skb fixed k myHwaddr).le16 18 = skb.data.le16 18 := by
    rw [le16_eq, withAddr_of_lt myHwaddr hfixed (by decide), withAddr_of_lt myHwaddr hfixed (by decide)]
    rfl
  have hlen : (c.setIcmp6Cksum (withAddr skb fixed k myHwaddr)).be16 18 = skb.data.be16 18 := by
    unfold KernelCsum.setIcmp6Cksum
    rw [be16_eq, Mem.write_of_lt (by decide), Mem.write_of_lt (by decide), Mem.write_of_lt (by decide),
      Mem.write_of_lt (by decide), withAddr_of_lt myHwaddr hfixed (by decide),
      withAddr_of_lt myHwaddr hfixed (by decide)]
    rfl
  have hlong := h.payload
  unfold Icmp6Valid SwappedAgrees
  rw [hlen, setIcmp6Cksum_sumsUp c _ (by omega), hpayload]

/-- A length whose two bytes are the same may be swapped. -/
theorem swappedAgrees_of_eq {skb : Skb} {fixed k : Nat} {myHwaddr : MacAddr}
    (h : skb.data.be16 18 = skb.data.le16 18) : SwappedAgrees skb fixed k myHwaddr := by
  unfold SwappedAgrees
  rw [h]

/-- **Rewriting keeps the checksums exactly so far.** -/
theorem rewriting_checksums_iff (c : KernelCsum) (myHwaddr : MacAddr) :
    (∀ (dhcpBcstDisable : Bool) (skb : Skb), DhcpRequest skb →
        UdpValid skb.data ∨ udpCheck skb.data = 0 →
        (BroadcastSet skb.data (dhcpFlagBcast dhcpBcstDisable skb.data)
          ↔ BroadcastCounts dhcpBcstDisable skb.data))
      ∧ ∀ (skb : Skb) (fixed : Nat) (tag : UInt8) (k : Nat), NdRewrites skb fixed tag k →
        Icmp6Valid skb.data →
        ∃ fuel skb', nat25InsertIpv6 c fuel myHwaddr skb = some (.done (0, skb'))
          ∧ (Icmp6Valid skb'.data ↔ SwappedAgrees skb fixed k myHwaddr) := by
  refine ⟨fun disable skb hreq hvalid => broadcastSet_iff hreq hvalid disable, ?_⟩
  intro skb fixed tag k h _
  obtain ⟨fuel, hinsert⟩ := insert_rewrites h c myHwaddr
  exact ⟨fuel, _, hinsert, icmp6Valid_iff h c myHwaddr⟩

/-- A DHCP discover message with some flags. -/
def dhcpBytes (flags check : List UInt8) : List UInt8 :=
  [0xff, 0xff, 0xff, 0xff, 0xff, 0xff] ++ [2, 0, 0, 0, 0, 1] ++ [8, 0]
    ++ [0x45, 0, 1, 12, 0, 0, 0, 0, 64, 17, 0, 0, 0, 0, 0, 0, 255, 255, 255, 255]
    ++ [0, 68, 0, 67, 0, 248] ++ check
    ++ [1, 1, 6, 0] ++ [1, 2, 3, 4] ++ [0, 0] ++ flags ++ List.replicate 16 0 ++ [2, 0, 0, 0, 0, 1]
    ++ List.replicate 202 0 ++ [0x63, 0x82, 0x53, 0x63]

def dhcpDiscover (flags check : List UInt8) : Skb where
  data := memOf (dhcpBytes flags check)
  len := 282

theorem udpSum_memOf {bs : List UInt8} {u n : Nat} (hu : udph (memOf bs) = u)
    (hn : (memOf bs).be16 (u + 4) = n) : udpSum (memOf bs)
      = wordSum ((memOf bs).read 26 8 ++ ([0, 17] ++ (memOf bs).read (u + 4) 2))
        + wordSum ((bs.drop u).take n ++ List.replicate (n - (bs.length - u)) 0) := by
  unfold udpSum
  rw [hu, hn, read_memOf bs u]

theorem icmp6Sum_memOf (bs : List UInt8) (len : Nat) : icmp6Sum (memOf bs) len
    = wordSum (pseudoHeader (saddr6 (memOf bs)) (daddr6 (memOf bs)) (UInt32.ofNat len) 58)
      + wordSum ((bs.drop 54).take len ++ List.replicate (len - (bs.length - 54)) 0) := by
  unfold icmp6Sum
  rw [read_memOf]

/-- Whole requests without flags and with the lowest one. -/
theorem dhcpDiscover_request :
    DhcpRequest (dhcpDiscover [0, 0] [57, 138]) ∧ DhcpRequest (dhcpDiscover [0, 1] [57, 137]) := by
  unfold DhcpRequest
  decide

theorem dhcpDiscover_valid :
    UdpValid (dhcpDiscover [0, 0] [57, 138]).data ∧ UdpValid (dhcpDiscover [0, 1] [57, 137]).data := by
  have hu : udph (memOf (dhcpBytes [0, 0] [57, 138])) = 34 := by decide
  have hn : (memOf (dhcpBytes [0, 0] [57, 138])).be16 (34 + 4) = 248 := by decide
  have hu' : udph (memOf (dhcpBytes [0, 1] [57, 137])) = 34 := by decide
  have hn' : (memOf (dhcpBytes [0, 1] [57, 137])).be16 (34 + 4) = 248 := by decide
  refine ⟨(udpValid_iff (memOf (dhcpBytes [0, 0] [57, 138]))).mpr ⟨by decide, ?_⟩,
    (udpValid_iff (memOf (dhcpBytes [0, 1] [57, 137]))).mpr ⟨by decide, ?_⟩⟩
  · rw [udpSum_memOf hu hn]
    decide +kernel
  · rw [udpSum_memOf hu' hn']
    decide +kernel

theorem icmp6Valid_iff_mod (m : Mem) : Icmp6Valid m ↔ icmp6Sum m (m.be16 18) % 65535 = 0 := by
  have hpos := wordSum_pseudoHeader_pos (Mem.length_read m 22 16) (Mem.length_read m 38 16)
    (UInt32.ofNat (m.be16 18))
  exact sumsUp_iff (Nat.lt_of_lt_of_le hpos (Nat.le_add_right _ _))

/-- A solicitation whose first option is the link-layer address. -/
theorem solicitation_rewrites {bs : List UInt8} {len : Nat} (hlong : 86 ≤ len)
    (hsent : saddr6 (memOf bs) ≠ List.replicate 16 0) (hicmp6 : memOf bs 20 = 58) (hkind : memOf bs 54 = 135)
    (hoption : (memOf bs).read 78 8 = [1, 1, 2, 0, 0, 0, 0, 1]) (hpayload : 8 ≤ (memOf bs).be16 18)
    (hle : 54 + (memOf bs).be16 18 ≤ len) : NdRewrites ⟨memOf bs, len⟩ 24 1 0 where
  long := Nat.lt_of_lt_of_le (by decide) hlong
  sent := hsent
  icmp6 := hicmp6
  kind := congrArg ndOptions hkind
  fixed_le := Nat.le_sub_of_add_le (Nat.le_trans (by decide) hlong)
  option := by
    refine ⟨[2, 0, 0, 0, 0, 1], (memOf bs).read (78 + 8) (len - 86), ?_, rfl⟩
    show Skips 1 ((memOf bs).read 78 (len - 54 - 24)) 0 _
    have hn : len - 54 - 24 = 8 + (len - 86) := by omega
    rw [hn, Mem.read_add, hoption]
    exact .start _
  payload := hpayload
  payload_le := hle

theorem foldedPartial_sum (bs : List UInt8) :
    (UInt32.ofNat (foldCarries (wordSum bs))).toNat % 65535 = wordSum bs % 65535 := by
  have hlt := Nat.lt_trans (foldCarries_lt (wordSum bs)) (show 65536 < 2 ^ 32 by decide)
  rw [UInt32.toNat_ofNat_of_lt' hlt, foldCarries_mod]

theorem foldedMagic_sum (saddr daddr : List UInt8) (len : UInt32) (proto : UInt8) (sum : UInt32)
    (_ : saddr.length = 16) (_ : daddr.length = 16) :
    (wordSum (pseudoHeader saddr daddr len proto) + sum.toNat
      + (UInt16.ofNat (65535 - foldCarries (wordSum (pseudoHeader saddr daddr len proto) + sum.toNat))).toNat)
        % 65535 = 0 := by
  have hlt := foldCarries_lt (wordSum (pseudoHeader saddr daddr len proto) + sum.toNat)
  have hmod := foldCarries_mod (wordSum (pseudoHeader saddr daddr len proto) + sum.toNat)
  rw [UInt16.toNat_ofNat']
  omega

/-- The functions of the kernel, with all carries folded. -/
def foldedCsum : KernelCsum where
  csumPartial bs := UInt32.ofNat (foldCarries (wordSum bs))
  csumIpv6Magic saddr daddr len proto sum :=
    UInt16.ofNat (65535 - foldCarries (wordSum (pseudoHeader saddr daddr len proto) + sum.toNat))
  csumPartial_sum := foldedPartial_sum
  csumIpv6Magic_sum := foldedMagic_sum

/-- A solicitation behind whose link-layer address a second option makes the two bytes of the length the
same. -/
abbrev longBytes : List UInt8 := solicitationBytes [8, 8] [99, 178] [1, 1, 2, 0, 0, 0, 0, 1, 14, 253]

/-- A solicitation with the link-layer address alone. -/
abbrev shortBytes : List UInt8 := solicitationBytes [0, 32] [122, 151] [1, 1, 2, 0, 0, 0, 0, 1]

theorem longSolicitation_rewrites : NdRewrites ⟨memOf longBytes, 2110⟩ 24 1 0 :=
  solicitation_rewrites (by decide) (by decide) (by decide) (by decide)
    (by decide) (by decide) (by decide)

theorem shortSolicitation_rewrites : NdRewrites ⟨memOf shortBytes, 86⟩ 24 1 0 :=
  solicitation_rewrites (by decide) (by decide) (by decide) (by decide)
    (by decide) (by decide) (by decide)

/-- The sample's message is right as it comes. -/
theorem longSolicitation_valid : Icmp6Valid (memOf longBytes) := by
  have hlen : (memOf longBytes).be16 18 = 2056 := by decide
  rw [icmp6Valid_iff_mod, hlen, icmp6Sum_memOf]
  decide +kernel

theorem shortSolicitation_valid : Icmp6Valid (memOf shortBytes) := by
  have hlen : (memOf shortBytes).be16 18 = 32 := by decide
  rw [icmp6Valid_iff_mod, hlen, icmp6Sum_memOf]
  decide

theorem rewriting_checksums_sample :
    BroadcastSet (dhcpDiscover [0, 0] [57, 138]).data (dhcpFlagBcast false (dhcpDiscover [0, 0] [57, 138]).data)
      ∧ ∃ fuel skb', nat25InsertIpv6 foldedCsum fuel ⟨2, 0, 0, 0, 0, 9⟩ ⟨memOf longBytes, 2110⟩
        = some (.done (0, skb')) ∧ Icmp6Valid skb'.data := by
  obtain ⟨hdhcp, hnd⟩ := rewriting_checksums_iff foldedCsum ⟨2, 0, 0, 0, 0, 9⟩
  constructor
  · refine (hdhcp false _ dhcpDiscover_request.1 (Or.inl dhcpDiscover_valid.1)).mpr ?_
    exact Or.inr ⟨rfl, Or.inl ⟨by decide, by decide, by decide⟩⟩
  · obtain ⟨fuel, skb', hinsert, hiff⟩ := hnd _ 24 1 0 longSolicitation_rewrites longSolicitation_valid
    have hswapped : (memOf longBytes).be16 18 = (memOf longBytes).le16 18 := by decide
    exact ⟨fuel, skb', hinsert, hiff.mpr (swappedAgrees_of_eq hswapped)⟩

/-- The short solicitation with the new address and without a checksum. -/
theorem shortSolicitation_cleared :
    (withAddr ⟨memOf shortBytes, 86⟩ 24 0 ⟨2, 0, 0, 0, 0, 9⟩).write 56 (hostBytes 0)
      = memOf (solicitationBytes [0, 32] [0, 0] [1, 1, 2, 0, 0, 0, 0, 9]) := by
  have hbehind : ∀ bs : List UInt8, bs.length = 86 → ∀ k, 86 ≤ k → memOf bs k = 0 := by
    intro bs hbs k hk
    rw [memOf, List.getElem?_eq_none (by omega)]
    rfl
  have hinside : ∀ k < 86, (withAddr ⟨memOf shortBytes, 86⟩ 24 0 ⟨2, 0, 0, 0, 0, 9⟩).write 56 (hostBytes 0) k
      = memOf (solicitationBytes [0, 32] [0, 0] [1, 1, 2, 0, 0, 0, 0, 9]) k := by decide
  funext k
  rcases Nat.lt_or_ge k 86 with hk | hk
  · exact hinside k hk
  · have hout : ∀ (m : Mem) (a : Nat) (bs : List UInt8), a + bs.length ≤ 86 → m.write a bs k = m k :=
      fun m a bs h => Mem.write_of_ge (by omega)
    rw [hout _ _ _ (by decide), withAddr, hout _ _ _ (by decide), hbehind _ rfl k hk]
    exact hbehind _ rfl k hk

theorem shortSolicitation_lens : (memOf shortBytes).be16 18 = 32 ∧ (memOf shortBytes).le16 18 = 8192 := by
  decide

theorem swappedAgrees_congr {skb : Skb} {fixed k len len' : Nat} {myHwaddr : MacAddr} {m : Mem}
    (hm : (withAddr skb fixed k myHwaddr).write 56 (hostBytes 0) = m) (hlen : skb.data.be16 18 = len)
    (hlen' : skb.data.le16 18 = len') :
    SwappedAgrees skb fixed k myHwaddr ↔ icmp6Sum m len % 65535 = icmp6Sum m len' % 65535 := by
  unfold SwappedAgrees
  rw [hm, hlen, hlen']

/-- The lowest flag is counted twice, and the sum of a message of 32 bytes is taken over 8192. -/
theorem rewriting_checksums_wrong :
    (DhcpRequest (dhcpDiscover [0, 1] [57, 137]) ∧ UdpValid (dhcpDiscover [0, 1] [57, 137]).data
        ∧ ¬ BroadcastSet (dhcpDiscover [0, 1] [57, 137]).data
          (dhcpFlagBcast false (dhcpDiscover [0, 1] [57, 137]).data))
      ∧ Icmp6Valid (memOf shortBytes)
        ∧ ∃ fuel skb', nat25InsertIpv6 foldedCsum fuel ⟨2, 0, 0, 0, 0, 9⟩ ⟨memOf shortBytes, 86⟩
          = some (.done (0, skb')) ∧ ¬ Icmp6Valid skb'.data := by
  refine ⟨⟨dhcpDiscover_request.2, dhcpDiscover_valid.2, ?_⟩, shortSolicitation_valid, ?_⟩
  · rw [broadcastSet_iff dhcpDiscover_request.2 (Or.inl dhcpDiscover_valid.2)]
    unfold BroadcastCounts
    decide
  · obtain ⟨fuel, hinsert⟩ := insert_rewrites shortSolicitation_rewrites foldedCsum ⟨2, 0, 0, 0, 0, 9⟩
    refine ⟨fuel, _, hinsert, ?_⟩
    show ¬ Icmp6Valid (foldedCsum.setIcmp6Cksum (withAddr ⟨memOf shortBytes, 86⟩ 24 0 ⟨2, 0, 0, 0, 0, 9⟩))
    rw [icmp6Valid_iff shortSolicitation_rewrites, swappedAgrees_congr shortSolicitation_cleared
      shortSolicitation_lens.1 shortSolicitation_lens.2, icmp6Sum_memOf, icmp6Sum_memOf]
    decide +kernel

end Rtl8812au.Nat25

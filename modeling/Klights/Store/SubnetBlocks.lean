import Klights.Store.NodeSubnets
import Mathlib.Data.Set.Lattice
import Mathlib.Order.CompletePartialOrder

/-!
# Addresses and their texts

An IPv4 address and its dotted text determine each other, and the `/24` blocks of a cluster CIDR are aligned ranges of
addresses inside it.

- `parseIpv4Addr_ipv4Text`: the text of an address parses back;
- `parsePodSubnet_subnetText`: the text an allocation stores parses to its block, so the source's `expect` holds;
- `blockBase_fits`, `block_addresses_subset`: the blocks of a CIDR lie inside it and within 32 bits;
- `blocks_disjoint`: different blocks share no address.
-/

namespace Klights.Store

open Lib ClusterCidr List Nat

variable {n addr ba : Nat}

/-! ## Texts -/

theorem digitChar_digit : ∀ k < 10, isAsciiDigit k.digitChar ∧ k.digitChar.toNat - '0'.toNat = k ∧
    (k.digitChar = '0' → k = 0) := by
  decide

theorem octet_digits {c : Char} (h : c ∈ (toString n).toList) : isAsciiDigit c := by
  change c ∈ n.repr.toList at h
  rw [toList_repr] at h
  exact isDigit_of_mem_toDigits (by decide) (by decide) h

theorem toString_octet (h : n < 256) : (n < 10 ∧ (toString n).toList = [n.digitChar]) ∨
      (10 ≤ n ∧ n < 100 ∧ (toString n).toList = [(n / 10).digitChar, (n % 10).digitChar]) ∨
      (100 ≤ n ∧ (toString n).toList = [(n / 10 / 10).digitChar, (n / 10 % 10).digitChar, (n % 10).digitChar]) := by
  have hx : (toString n).toList = Nat.toDigits 10 n := toList_repr
  rw [hx]
  rcases lt_or_ge n 10 with ho | hten
  · exact .inl ⟨ho, toDigits_of_lt_base ho⟩
  · rw [toDigits_of_base_le (by decide) hten]
    rcases lt_or_ge n 100 with ht | hhun
    · rw [toDigits_of_lt_base (by omega)]
      exact .inr (.inl ⟨hten, ht, rfl⟩)
    · rw [toDigits_of_base_le (by decide) (by omega), toDigits_of_lt_base (by omega)]
      exact .inr (.inr ⟨hhun, rfl⟩)

theorem parseOctet_eq {ds : List Char} (hne : ds ≠ []) (hg : ds.length ≤ 3)
    (hd : ds.all isAsciiDigit) (hl : ds.length ≤ 1 ∨ ds.head? ≠ some '0')
    (hv : digitsValue ds = n) (hn : n < 256) : parseOctet ds = some n := by
  have he : ds.isEmpty = false := by simpa using hne
  have hl' : ¬ (ds.length > 1 ∧ ds.head? = some '0') := by
    rintro ⟨hlo, h0⟩
    rcases hl with hs | ho
    · omega
    · exact ho h0
  have hs : ¬ ds.length > 3 := by omega
  have hf : ¬ n > 255 := by omega
  simp [parseOctet, he, hs, hd, hl', hv, hf]

theorem parseOctet_toString (h : n < 256) : parseOctet (toString n).toList = some n := by
  rcases toString_octet h with ⟨hn, hx⟩ | ⟨hg, hlt, hx⟩ | ⟨hg, hx⟩ <;> rw [hx]
  · obtain ⟨hd, hv, -⟩ := digitChar_digit n hn
    refine parseOctet_eq (by simp) (by simp) (by simp [hd]) (.inl (by simp)) ?_ h
    simp only [digitsValue, foldl_cons, foldl_nil, hv]
    omega
  · obtain ⟨ht, ha, h0⟩ := digitChar_digit (n / 10) (by omega)
    obtain ⟨hu, huv, -⟩ := digitChar_digit (n % 10) (by omega)
    have hl : (n / 10).digitChar ≠ '0' := fun heq => absurd (h0 heq) (by omega)
    refine parseOctet_eq (by simp) (by simp) (by simp [ht, hu]) (.inr (by simpa using hl)) ?_ h
    simp only [digitsValue, foldl_cons, foldl_nil, ha, huv]
    omega
  · obtain ⟨hhu, hh, h0⟩ := digitChar_digit (n / 10 / 10) (by omega)
    obtain ⟨ht, ha, -⟩ := digitChar_digit (n / 10 % 10) (by omega)
    obtain ⟨hu, huv, -⟩ := digitChar_digit (n % 10) (by omega)
    have hl : (n / 10 / 10).digitChar ≠ '0' := fun heq => absurd (h0 heq) (by omega)
    refine parseOctet_eq (by simp) (by simp) (by simp [hhu, ht, hu]) (.inr (by simpa using hl)) ?_ h
    simp only [digitsValue, foldl_cons, foldl_nil, hh, ha, huv]
    omega

theorem octet_noPoint : ∀ c ∈ (toString n).toList, (c == '.') = false := by
  intro c hc
  rw [beq_eq_false_iff_ne]
  rintro rfl
  exact absurd (octet_digits hc) (by decide)

theorem splitOn_octets {a b c d : List Char} (ha : ∀ x ∈ a, (x == '.') = false) (hb : ∀ x ∈ b, (x == '.') = false)
    (hc : ∀ x ∈ c, (x == '.') = false) (hd : ∀ x ∈ d, (x == '.') = false) :
    (a ++ '.' :: (b ++ '.' :: (c ++ '.' :: d))).splitOn '.' = [a, b, c, d] := by
  unfold List.splitOn
  rw [splitOnP_append_cons_of_forall_mem ha '.' rfl, splitOnP_append_cons_of_forall_mem hb '.' rfl,
    splitOnP_append_cons_of_forall_mem hc '.' rfl, splitOnP_eq_singleton hd]

theorem ipv4Text_toList (addr : Nat) : (ipv4Text addr).toList =
    (toString (addr / 2 ^ 24 % 256)).toList ++ '.' :: ((toString (addr / 2 ^ 16 % 256)).toList ++
      '.' :: ((toString (addr / 2 ^ 8 % 256)).toList ++ '.' :: (toString (addr % 256)).toList)) := by
  simp [ipv4Text, String.toList_append]

theorem parseIpv4Addr_ipv4Text (h : addr < 2 ^ 32) : parseIpv4Addr (ipv4Text addr) = some addr := by
  have hlt : ∀ n : Nat, n % 256 < 256 := fun n => mod_lt _ (by decide)
  unfold parseIpv4Addr
  rw [ipv4Text_toList, splitOn_octets octet_noPoint octet_noPoint octet_noPoint octet_noPoint]
  simp only [map_cons, map_nil, parseOctet_toString (hlt _)]
  congr 1
  omega

theorem ipv4Text_noSlash {c : Char} (h : c ∈ (ipv4Text addr).toList) : c ≠ '/' := by
  have ho : ∀ n : Nat, c ∈ (toString n).toList → c ≠ '/' := by
    rintro n hc rfl
    exact absurd (octet_digits hc) (by decide)
  rw [ipv4Text_toList] at h
  simp only [mem_append, mem_cons] at h
  rcases h with h | rfl | h | rfl | h | rfl | h
  · exact ho _ h
  · decide
  · exact ho _ h
  · decide
  · exact ho _ h
  · decide
  · exact ho _ h

def subnetText (base : Nat) : String := ipv4Text base ++ "/24"

theorem parseClusterCidr_subnetText (h : ba < 2 ^ 32) : parseClusterCidr (subnetText ba) = .ok ⟨ba, 24⟩ := by
  have hh : (subnetText ba).toList = (ipv4Text ba).toList ++ ['/', '2', '4'] := by
    simp [subnetText, String.toList_append]
  have ha : (subnetText ba).toList.takeWhile (· ≠ '/') = (ipv4Text ba).toList := by
    rw [hh, takeWhile_append_of_pos]
    · simp
    · intro c hc
      simpa using ipv4Text_noSlash hc
  have hr : (subnetText ba).toList.drop ((ipv4Text ba).toList.length + 1) = ['2', '4'] := by
    rw [hh, drop_append]
    simp
  have hs : (subnetText ba).toList.contains '/' := by
    rw [hh]
    simp
  unfold parseClusterCidr
  dsimp only
  rw [ha, hr, hs, String.ofList_toList, parseIpv4Addr_ipv4Text h]
  rfl

/-! ## Pod subnets -/

structure PodSubnet where
  base : Nat
  prefixLen : Nat

def parsePodSubnet (cidr : String) : Except String PodSubnet :=
  match parseClusterCidr cidr with
  | .error err => .error err
  | .ok parsed =>
    if parsed.prefixLen < 1 ∨ 30 < parsed.prefixLen then
      .error ("PodSubnet prefix must be in /1..=/30, got /" ++ toString parsed.prefixLen ++ " in " ++ cidr)
    else .ok ⟨parsed.network, parsed.prefixLen⟩

theorem parsePodSubnet_subnetText (h : ba < 2 ^ 32) (ha : ba % 2 ^ 8 = 0) :
    parsePodSubnet (subnetText ba) = .ok ⟨ba, 24⟩ := by
  unfold parsePodSubnet
  rw [parseClusterCidr_subnetText h]
  simp only [network]
  rw [if_neg (by decide)]
  congr 2
  omega

theorem subnetText_inj {base' : Nat} (h : ba < 2 ^ 32) (h' : base' < 2 ^ 32)
    (hq : subnetText ba = subnetText base') : ba = base' := by
  have hp := parseClusterCidr_subnetText h
  rw [hq, parseClusterCidr_subnetText h'] at hp
  exact (mk.inj (Except.ok.inj hp)).1.symm

/-! ## Blocks of a cluster CIDR -/

def PodSubnet.addresses (subnet : PodSubnet) : Set Nat :=
  fun addr => subnet.base ≤ addr ∧ addr < subnet.base + 2 ^ (32 - subnet.prefixLen)

def ClusterCidr.addresses (cluster : ClusterCidr) : Set Nat :=
  fun addr => cluster.network ≤ addr ∧ addr < cluster.network + 2 ^ (32 - cluster.prefixLen)

def ClusterCidr.blockCount (cluster : ClusterCidr) : Nat := 2 ^ (24 - cluster.prefixLen)

def ClusterCidr.blockBase (cluster : ClusterCidr) (i : Nat) : Nat := cluster.network + i * 2 ^ 8

variable {cl : ClusterCidr}

theorem parseIpv4Addr_lt {tx : String} (h : parseIpv4Addr tx = some addr) : addr < 2 ^ 32 := by
  have ho : ∀ {ds : List Char} {n : Nat}, parseOctet ds = some n → n ≤ 255 := by
    intro ds n hn
    unfold parseOctet at hn
    split at hn
    · cases hn
    · split at hn
      · cases hn
      · split at hn
        · cases hn
        · cases hn
          omega
  unfold parseIpv4Addr at h
  split at h
  · rename_i a b c d ht
    have hle : ∀ n ∈ [a, b, c, d], n ≤ 255 := by
      intro n hn
      have hm : some n ∈ (tx.toList.splitOn '.').map parseOctet := by
        rw [ht]
        simpa using hn
      obtain ⟨ds, -, hg⟩ := mem_map.1 hm
      exact ho hg
    have ha := hle a (by simp)
    have hb := hle b (by simp)
    have hc := hle c (by simp)
    have hd := hle d (by simp)
    cases h
    omega
  · cases h

theorem parseClusterCidr_base_lt {c : String} (h : parseClusterCidr c = .ok cl) : cl.base < 2 ^ 32 := by
  unfold parseClusterCidr at h
  dsimp only at h
  split at h
  · cases h
  · split at h
    · cases h
    · split at h
      · cases h
      · split at h
        · cases h
        · rename_i ba hba
          cases h
          exact parseIpv4Addr_lt hba

theorem blockCount_mul (hlen : cl.prefixLen ≤ 24) : cl.blockCount * 2 ^ 8 = 2 ^ (32 - cl.prefixLen) := by
  unfold blockCount
  rw [← pow_add]
  congr 1
  omega

theorem network_add_le (hba : cl.base < 2 ^ 32) (hlen : cl.prefixLen ≤ 24) :
    cl.network + 2 ^ (32 - cl.prefixLen) ≤ 2 ^ 32 := by
  have hs : 2 ^ (32 - cl.prefixLen) * 2 ^ cl.prefixLen = 2 ^ 32 := by
    rw [← Nat.pow_add]
    congr 1
    omega
  have hlt : cl.base / 2 ^ (32 - cl.prefixLen) < 2 ^ cl.prefixLen := by
    apply Nat.div_lt_of_lt_mul
    rwa [hs]
  calc cl.network + 2 ^ (32 - cl.prefixLen)
      = (cl.base / 2 ^ (32 - cl.prefixLen) + 1) * 2 ^ (32 - cl.prefixLen) := by
        rw [network, Nat.succ_mul]
    _ ≤ 2 ^ cl.prefixLen * 2 ^ (32 - cl.prefixLen) := Nat.mul_le_mul_right _ hlt
    _ = 2 ^ 32 := by rw [Nat.mul_comm, hs]

theorem network_aligned (hlen : cl.prefixLen ≤ 24) : cl.network % 2 ^ 8 = 0 := by
  unfold network
  rw [← blockCount_mul hlen, ← mul_assoc]
  exact mul_mod_left _ _

section

variable {i : Nat} (hba : cl.base < 2 ^ 32) (hlen : cl.prefixLen ≤ 24) (hi : i < cl.blockCount)
include hba hlen hi

theorem blockBase_fits : i * 2 ^ 8 < 2 ^ 32 ∧ cl.network ≤ cl.blockBase i ∧
      cl.blockBase i + 2 ^ 8 ≤ cl.network + 2 ^ (32 - cl.prefixLen) ∧
      cl.blockBase i + 2 ^ 8 ≤ 2 ^ 32 ∧ cl.blockBase i % 2 ^ 8 = 0 := by
  have he := network_add_le hba hlen
  have ha := network_aligned hlen
  have hb : (i + 1) * 2 ^ 8 ≤ 2 ^ (32 - cl.prefixLen) := by
    rw [← blockCount_mul hlen]
    exact mul_le_mul_right _ hi
  unfold blockBase
  refine ⟨by omega, by omega, by omega, by omega, by omega⟩

theorem block_addresses_subset : PodSubnet.addresses ⟨cl.blockBase i, 24⟩ ⊆ cl.addresses := by
  obtain ⟨-, hl, hh, -, -⟩ := blockBase_fits hba hlen hi
  rintro addr ⟨hle, hlt⟩
  simp only at hle hlt
  exact ⟨hl.trans hle, by omega⟩

end

theorem blocks_disjoint {b' : Nat} (h : ba % 2 ^ 8 = 0) (h' : b' % 2 ^ 8 = 0) (hn : ba ≠ b') :
    Disjoint (PodSubnet.addresses ⟨ba, 24⟩) (PodSubnet.addresses ⟨b', 24⟩) := by
  rw [Set.disjoint_left]
  rintro addr ⟨hle, hlt⟩ ⟨hle', hlt'⟩
  simp only at hle hlt hle' hlt'
  omega

end Klights.Store

import Klights.Network.Policy
import Mathlib.Algebra.Group.Nat.Defs
import Mathlib.Data.Finset.Card

/-!
# Rules of the service chain

The rules that send a connection to an endpoint of a Service (`append_random_rules` in `service_routing/nft_table.rs`).
Registers and constants are compared byte by byte from the first one, as the kernel does.

- `fires_card`: for how many random values a step of the ladder fires. A threshold is written in native byte order, so
  its last byte counts most.
- `ladder_step_even`: the share of a step is even exactly if its threshold reads the same in both byte orders.
-/

namespace Klights.Network

open List

/-- One service port and its endpoints, with IPv4 addresses as numbers. -/
structure PortSpec where
  servicePort : Nat
  targetPort : Nat
  nodePort : Option Nat
  protocol : Protocol
  endpoints : List Nat
  deriving DecidableEq

/-! ## Rules -/

def beBytes (n : Nat) : List Nat := [n / 256 % 256, n % 256]

def octets (n : Nat) : List Nat := [n / 2 ^ 24 % 256, n / 2 ^ 16 % 256, n / 256 % 256, n % 256]

/-- `to_ne_bytes` of a 32-bit number on a little-endian machine. -/
def neBytes (n : Nat) : List Nat := (octets n).reverse

inductive Load where
  | daddr
  | protocol
  | dport
  | random

inductive RegisterCmp where
  | eq
  | lt

def RegisterCmp.holds (register value : List Nat) : RegisterCmp → Bool
  | .eq => register = value
  | .lt => register < value

/-- Comparisons of what is loaded, and the address and port that the destination is changed to. -/
structure DnatRule where
  exprs : List (Load × RegisterCmp × List Nat)
  target : Nat × Nat

/-- A new connection. -/
structure Connection where
  daddr : Nat
  protocol : Protocol
  dport : Nat

/-- The bytes that an expression loads into the register. -/
def Connection.load (c : Connection) (random : Nat) : Load → List Nat
  | .daddr => octets c.daddr
  | .protocol => [c.protocol.ipProto.toNat]
  | .dport => beBytes c.dport
  | .random => neBytes random

/-- The rule changes the destination, for a draw of `meta random`. -/
def DnatRule.fires (rule : DnatRule) (c : Connection) (random : Nat) : Bool :=
  rule.exprs.all fun (load, op, value) => op.holds (c.load random load) value

def probabilityForLadderStep (endpointsRemaining : Nat) : Nat := (2 ^ 32 - 1) / (endpointsRemaining % 2 ^ 32)

def servicePortMatch (matchDaddr : Option Nat) (protocol : Protocol) (port : Nat) :
    List (Load × RegisterCmp × List Nat) :=
  (match matchDaddr with
    | some daddr => [(.daddr, .eq, octets daddr)]
    | none => []) ++ [(.protocol, .eq, [protocol.ipProto.toNat]), (.dport, .eq, beBytes port)]

def ruleDnatEndpoint (matchDaddr : Option Nat) (protocol : Protocol) (port : Nat) (endpoint : Nat × Nat)
    (probability : Option Nat) : DnatRule :=
  ⟨servicePortMatch matchDaddr protocol port ++ (match probability with
    | some threshold => [(.random, .lt, neBytes threshold)]
    | none => []), endpoint⟩

/-- The threshold of an endpoint in the ladder of a port; the last one has none. -/
def ladderProbability (n i : Nat) : Option Nat :=
  if 1 < n ∧ i + 1 < n then some (probabilityForLadderStep (n - i)) else none

def ladderRule (matchDaddr : Option Nat) (port : PortSpec) (number endpoint i : Nat) : DnatRule :=
  ruleDnatEndpoint matchDaddr port.protocol number (endpoint, port.targetPort)
    (ladderProbability port.endpoints.length i)

/-! ## The share of a step -/

/-- A 32-bit number with its bytes in the other order. -/
def byteSwap (n : Nat) : Nat :=
  n % 256 * 2 ^ 24 + n / 256 % 256 * 2 ^ 16 + n / 2 ^ 16 % 256 * 256 + n / 2 ^ 24 % 256

theorem byteSwap_lt (n : Nat) : byteSwap n < 2 ^ 32 := by
  unfold byteSwap
  omega

theorem byteSwap_bytes {a b c d : Nat} (ha : a < 256) (hb : b < 256) (hc : c < 256) (hd : d < 256) :
    byteSwap (a + b * 256 + c * 2 ^ 16 + d * 2 ^ 24) = d + c * 256 + b * 2 ^ 16 + a * 2 ^ 24 := by
  unfold byteSwap
  omega

theorem byteSwap_byteSwap {n : Nat} (h : n < 2 ^ 32) : byteSwap (byteSwap n) = n := by
  obtain ⟨a, b, c, d, ha, hb, hc, hd, rfl⟩ : ∃ a b c d, a < 256 ∧ b < 256 ∧ c < 256 ∧ d < 256 ∧
      n = a + b * 256 + c * 2 ^ 16 + d * 2 ^ 24 :=
    ⟨n % 256, n / 256 % 256, n / 2 ^ 16 % 256, n / 2 ^ 24, by omega⟩
  rw [byteSwap_bytes ha hb hc hd, byteSwap_bytes hd hc hb ha]

/-- The byte order of two lists of four bytes is the order of their numbers, first byte first. -/
theorem bytes_lt_bytes {a b c d a' b' c' d' : Nat} (hb : b < 256) (hc : c < 256) (hd : d < 256) (hb' : b' < 256)
    (hc' : c' < 256) (hd' : d' < 256) : [a, b, c, d] < [a', b', c', d'] ↔
      a * 2 ^ 24 + b * 2 ^ 16 + c * 256 + d < a' * 2 ^ 24 + b' * 2 ^ 16 + c' * 256 + d' := by
  simp only [cons_lt_cons_iff, List.not_lt_nil, and_false, or_false]
  omega

theorem neBytes_lt_neBytes {a b : Nat} : neBytes a < neBytes b ↔ byteSwap a < byteSwap b := by
  have hm (n : Nat) : n % 256 < 256 := Nat.mod_lt _ (by decide)
  exact bytes_lt_bytes (hm _) (hm _) (hm _) (hm _) (hm _) (hm _)

/-- A comparison with a threshold holds for as many values as its swapped bytes say. -/
theorem card_neBytes_lt (t : Nat) :
    ((Finset.range (2 ^ 32)).filter fun ra => neBytes ra < neBytes t).card = byteSwap t := by
  rw [← Finset.card_range (byteSwap t)]
  refine Finset.card_nbij' byteSwap byteSwap ?_ ?_ ?_ ?_
  · intro ra hr
    simpa [neBytes_lt_neBytes] using (Finset.mem_filter.1 hr).2
  · intro n hn
    have hlt := Finset.mem_range.1 hn
    have hf := hlt.trans (byteSwap_lt t)
    refine Finset.mem_filter.2 ⟨Finset.mem_range.2 (byteSwap_lt n), ?_⟩
    rwa [neBytes_lt_neBytes, byteSwap_byteSwap hf]
  · intro ra hr
    exact byteSwap_byteSwap (Finset.mem_range.1 (Finset.mem_filter.1 hr).1)
  · intro n hn
    exact byteSwap_byteSwap ((Finset.mem_range.1 hn).trans (byteSwap_lt t))

variable {matchDaddr : Option Nat} {port : PortSpec} {number endpoint i : Nat} {c : Connection}

/-- A step of the ladder fires for as many random values as its threshold says with its bytes swapped. -/
theorem fires_card (hk : 2 ≤ port.endpoints.length - i)
    (hto : ∀ random,
      (ruleDnatEndpoint matchDaddr port.protocol number (endpoint, port.targetPort) none).fires c random) :
    ((Finset.range (2 ^ 32)).filter fun random => (ladderRule matchDaddr port number endpoint i).fires c random).card =
      byteSwap (probabilityForLadderStep (port.endpoints.length - i)) := by
  rw [← card_neBytes_lt]
  refine congrArg Finset.card (Finset.filter_congr fun random _ => ?_)
  have hs : ladderProbability port.endpoints.length i =
      some (probabilityForLadderStep (port.endpoints.length - i)) := if_pos (by omega)
  have ha := hto random
  simp only [DnatRule.fires, ruleDnatEndpoint, append_nil] at ha
  simp only [ladderRule, hs, DnatRule.fires, ruleDnatEndpoint, all_append, ha, all_cons, all_nil, Bool.true_and,
    Bool.and_true]
  exact decide_eq_true_iff

/-- A 32-bit number other than zero is not zero with its bytes swapped. -/
theorem byteSwap_eq_zero {n : Nat} (h : n < 2 ^ 32) (h0 : byteSwap n = 0) : n = 0 := by
  have hs := byteSwap_byteSwap h
  rw [h0] at hs
  exact hs.symm

/-- **Even shares.** A step with `k` endpoints remaining fires for `(2 ^ 32 - 1) / k` of the random values exactly if
`k` fits in 32 bits and its threshold is the same number in both byte orders. Where `k` wraps to zero the threshold is
a division by zero. -/
theorem ladder_step_even (hk : 2 ≤ port.endpoints.length - i)
    (hto : ∀ random,
      (ruleDnatEndpoint matchDaddr port.protocol number (endpoint, port.targetPort) none).fires c random) :
    ((port.endpoints.length - i) % 2 ^ 32 ≠ 0 ∧
      ((Finset.range (2 ^ 32)).filter fun random =>
        (ladderRule matchDaddr port number endpoint i).fires c random).card =
          (2 ^ 32 - 1) / (port.endpoints.length - i)) ↔
      port.endpoints.length - i < 2 ^ 32 ∧
        byteSwap ((2 ^ 32 - 1) / (port.endpoints.length - i)) = (2 ^ 32 - 1) / (port.endpoints.length - i) := by
  rw [fires_card hk hto, probabilityForLadderStep]
  generalize port.endpoints.length - i = k at hk
  by_cases hfits : k < 2 ^ 32
  · rw [Nat.mod_eq_of_lt hfits]
    exact ⟨fun h => ⟨hfits, h.2⟩, fun h => ⟨by omega, h.2⟩⟩
  · refine iff_of_false (fun ⟨hnz, hcard⟩ => ?_) fun h => hfits h.1
    -- the count should be zero, but the threshold of the wrapped number is not
    have hzero : (2 ^ 32 - 1) / k = 0 := Nat.div_eq_of_lt (by omega)
    rw [hzero] at hcard
    have hle : k % 2 ^ 32 ≤ 2 ^ 32 - 1 := Nat.le_pred_of_lt (Nat.mod_lt _ (by decide))
    have hpos : 0 < (2 ^ 32 - 1) / (k % 2 ^ 32) := Nat.div_pos hle (Nat.pos_of_ne_zero hnz)
    have hlt : (2 ^ 32 - 1) / (k % 2 ^ 32) < 2 ^ 32 := Nat.lt_of_le_of_lt (Nat.div_le_self _ _) (by omega)
    exact hpos.ne' (byteSwap_eq_zero hlt hcard)

def samplePort (n : Nat) : PortSpec := ⟨80, 8080, none, .tcp, range' 1 n⟩

def sampleConnection : Connection := ⟨7, .tcp, 80⟩

theorem samplePort_fires (n : Nat) (random : Nat) :
    (ruleDnatEndpoint (some 7) (samplePort n).protocol 80 (1, (samplePort n).targetPort) none).fires sampleConnection
      random := rfl

theorem ladder_step_even_three : byteSwap ((2 ^ 32 - 1) / 3) = (2 ^ 32 - 1) / 3 ∧
      ((Finset.range (2 ^ 32)).filter fun random => (ladderRule (some 7) (samplePort 3) 80 1 0).fires sampleConnection
        random).card = (2 ^ 32 - 1) / 3 :=
  ⟨by decide, ((ladder_step_even (by decide) (samplePort_fires 3)).2 ⟨by decide, by decide⟩).2⟩

/-- Of two endpoints the first one gets nearly everything. -/
theorem ladder_step_uneven :
    ((Finset.range (2 ^ 32)).filter fun random => (ladderRule (some 7) (samplePort 2) 80 1 0).fires sampleConnection
      random).card = 4294967167 ∧ (2 ^ 32 - 1) / 2 = 2147483647 :=
  ⟨(fires_card (by decide) (samplePort_fires 2)).trans (by decide), by decide⟩

end Klights.Network

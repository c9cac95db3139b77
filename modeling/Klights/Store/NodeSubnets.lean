import Klights.Lib.Table
import Klights.Store.LogApply

/-!
# Node subnets

The tables `node_subnets` and `node_dataplane` with their statements (`live_apply/state/network.rs`), and the address
parsing behind the allocation of a `/24` per node (`klights-types/src/network.rs`).

- `allocateNodeSubnetRow` returns the row a node already has, else the first free block of the cluster CIDR;
- `putNodeSubnet` refuses a block another node holds, `putNodeDataplane` unknown modes.
-/

namespace Klights.Store

open Lib

/-! ## Parsing -/

def trimText (s : String) : String :=
  String.ofList (((s.toList.dropWhile isWhitespace).reverse.dropWhile isWhitespace).reverse)

def isAsciiDigit (c : Char) : Bool := '0' ≤ c && c ≤ '9'

def isNodeNameChar (c : Char) : Bool :=
  isAsciiDigit c || ('a' ≤ c && c ≤ 'z') || ('A' ≤ c && c ≤ 'Z') || c = '-' || c = '.'

def digitsValue (digits : List Char) : Nat := digits.foldl (fun n c => 10 * n + (c.toNat - '0'.toNat)) 0

def parseNodeName (name : String) : Except String String :=
  let trimmed := trimText name
  let chars := trimmed.toList
  if chars.isEmpty then .error "Node name cannot be empty"
  else if trimmed.utf8ByteSize > 253 then
    .error ("Node name too long (max 253 chars), got " ++ toString trimmed.utf8ByteSize)
  else if !chars.all isNodeNameChar then
    .error ("Node name must be alphanumeric, hyphen, or dot, got: " ++ trimmed)
  else if chars.head? = some '-' ∨ chars.getLast? = some '-' then
    .error "Node name cannot start or end with hyphen"
  else .ok trimmed

/-- One decimal octet: at most three digits, no leading zero, at most 255. -/
def parseOctet (digits : List Char) : Option Nat :=
  if digits.isEmpty ∨ digits.length > 3 ∨ !digits.all isAsciiDigit then none
  else if digits.length > 1 ∧ digits.head? = some '0' then none
  else if digitsValue digits > 255 then none
  else some (digitsValue digits)

def parseIpv4Addr (s : String) : Option Nat :=
  match (s.toList.splitOn '.').map parseOctet with
  | [some a, some b, some c, some d] => some (((a * 256 + b) * 256 + c) * 256 + d)
  | _ => none

def ipv4Text (addr : Nat) : String :=
  toString (addr / 2 ^ 24 % 256) ++ "." ++ toString (addr / 2 ^ 16 % 256) ++ "." ++ toString (addr / 2 ^ 8 % 256) ++
    "." ++ toString (addr % 256)

/-- `u8::from_str`: an optional plus sign, then digits. -/
def parseU8 (text : List Char) : Option Nat :=
  let digits := if text.head? = some '+' then text.tail else text
  if digits.isEmpty ∨ !digits.all isAsciiDigit then none
  else if digitsValue digits > 255 then none
  else some (digitsValue digits)

structure ClusterCidr where
  base : Nat
  prefixLen : Nat
  deriving DecidableEq

def ClusterCidr.network (cidr : ClusterCidr) : Nat := cidr.base / 2 ^ (32 - cidr.prefixLen) * 2 ^ (32 - cidr.prefixLen)

def parseClusterCidr (cidr : String) : Except String ClusterCidr :=
  let chars := cidr.toList
  if !chars.contains '/' then .error ("CIDR must be in the form a.b.c.d/prefix, got: " ++ cidr)
  else
    let address := chars.takeWhile (· ≠ '/')
    match parseU8 (chars.drop (address.length + 1)) with
    | none => .error ("Invalid prefix length in CIDR: " ++ cidr)
    | some prefixLen =>
      if prefixLen > 32 then .error ("IPv4 CIDR prefix must be in /0..=/32: " ++ cidr)
      else
        match parseIpv4Addr (String.ofList address) with
        | none => .error ("Invalid IPv4 address in CIDR: " ++ cidr)
        | some base => .ok ⟨base, prefixLen⟩

/-! ## Statements -/

abbrev NodeSubnets : Type := Table LogApplyNodeSubnetRow.nodeName

variable (subnets : NodeSubnets)

def putNodeSubnet (row : LogApplyNodeSubnetRow) : Except DbError NodeSubnets :=
  if subnets.rows.any fun other => other.subnet = row.subnet && other.nodeName ≠ row.nodeName then
    .error (.sqlite "UNIQUE constraint failed: node_subnets.subnet")
  else .ok (subnets.put row)

/-- The row of a node, allocated if it has none: the first `/24` of the cluster CIDR that no row holds. -/
def allocateNodeSubnetRow (allocation : LogApplyNodeSubnetAllocation) : Except DbError LogApplyNodeSubnetRow :=
  match parseNodeName allocation.nodeName with
  | .error err => .error (.other ("Invalid node name " ++ allocation.nodeName ++ ": " ++ err))
  | .ok nodeName =>
    match parseIpv4Addr allocation.nodeIp with
    | none => .error (.other ("Invalid node IP " ++ allocation.nodeIp ++ ": invalid IPv4 address syntax"))
    | some nodeIp =>
      match parseClusterCidr allocation.clusterCidr with
      | .error err => .error (.other ("Invalid cluster CIDR " ++ allocation.clusterCidr ++ ": " ++ err))
      | .ok cluster =>
        if cluster.prefixLen > 24 then
          .error (.other ("cluster CIDR prefix must be <= /24 (got /" ++ toString cluster.prefixLen ++ ")"))
        else
          match subnets.find nodeName with
          | some existing => .ok existing
          | none =>
            let allocated := subnets.rows.map LogApplyNodeSubnetRow.subnetBaseInt
            let subnetCount := 2 ^ (24 - cluster.prefixLen)
            let bases := (List.range subnetCount).map fun i => cluster.network + i * 2 ^ 8
            match bases.find? fun base => !allocated.contains base with
            | some base =>
              .ok ⟨nodeName, ipv4Text base ++ "/24", base, ipv4Text base, ipv4Text nodeIp, "root", none⟩
            | none => .error (.sqlite "Query returned no rows")

def allocateNodeSubnet (allocation : LogApplyNodeSubnetAllocation) : Except DbError NodeSubnets := do
  let row ← allocateNodeSubnetRow subnets allocation
  putNodeSubnet subnets row

def deleteNodeSubnet (nodeName : String) : NodeSubnets :=
  subnets.deleteWhere fun row => row.nodeName = nodeName

abbrev NodeDataplanes : Type := Table LogApplyNodeDataplaneRow.nodeName

/-- The upsert of a node's dataplane row, with the `CHECK` constraints of the table. -/
def putNodeDataplane (dataplanes : NodeDataplanes) (row : LogApplyNodeDataplaneRow) :
    Except DbError NodeDataplanes :=
  if row.mode ≠ "root" ∧ row.mode ≠ "rootless" then
    .error (.sqlite "CHECK constraint failed: mode IN ('root','rootless')")
  else if row.encryption ≠ "enabled" ∧ row.encryption ≠ "disabled" then
    .error (.sqlite "CHECK constraint failed: encryption IN ('enabled','disabled')")
  else .ok (dataplanes.put row)

def deleteNodeDataplane (dataplanes : NodeDataplanes) (nodeName : String) : NodeDataplanes :=
  dataplanes.deleteWhere fun row => row.nodeName = nodeName

end Klights.Store

import Mathlib.Data.List.Basic

/-!
# Packet filter rules

A rule is a list of expressions run over one register: load a header field, mask it, compare it, end with a verdict. A
failed comparison leaves the rule. A chain runs its rules in order until one of them gives a verdict.

- `evalRule_guarded`: a block of comparisons in front of a verdict is a guard on it;
- `evalChain_append`: chains are tried one after the other;
- `evalChain_guarded`: a run of rules with one verdict gives that verdict iff some rule matches.
-/

namespace Klights.Lib.Nft

open List

inductive Field where
  | saddr
  | daddr
  | protocol
  | dport

inductive CmpOp where
  | eq
  | neq
  | gte
  | lte

/-- Registers compare as unsigned big-endian values. -/
def CmpOp.holds (op : CmpOp) (register value : BitVec 32) : Bool :=
  match op with
  | .eq => register = value
  | .neq => register ≠ value
  | .gte => value ≤ register
  | .lte => register ≤ value

inductive Verdict where
  | accept
  | drop
  | ret
  deriving DecidableEq

inductive Expr where
  | payload (field : Field)
  | bitwise (mask xor : BitVec 32)
  | cmp (op : CmpOp) (value : BitVec 32)
  | verdict (v : Verdict)

abbrev Header := Field → BitVec 32

/-- Run a rule. `none`: a comparison failed, or the rule has no verdict. -/
def evalRule (header : Header) (register : BitVec 32) : List Expr → Option Verdict
  | [] => none
  | .payload field :: rest => evalRule header (header field) rest
  | .bitwise mask xor :: rest => evalRule header ((register &&& mask) ^^^ xor) rest
  | .cmp op value :: rest => if op.holds register value then evalRule header register rest else none
  | .verdict v :: _ => some v

def evalChain (header : Header) (rules : List (List Expr)) : Option Verdict :=
  rules.findSome? fun rule => evalRule header 0 rule

variable {ha : Header}

/-- Rules that do not read the register they start with. -/
def Fresh (header : Header) (rule : List Expr) : Prop :=
  ∀ register register', evalRule header register rule = evalRule header register' rule

theorem fresh_payload (f : Field) (tl : List Expr) : Fresh ha (.payload f :: tl) := fun _ _ => rfl

theorem fresh_verdict (v : Verdict) (tl : List Expr) : Fresh ha (.verdict v :: tl) := fun _ _ => rfl

/-- A block of expressions acts as a guard: it lets the rest run iff `holds`. -/
def Guards (header : Header) (block : List Expr) (holds : Bool) : Prop :=
  ∀ rest, Fresh header rest → Fresh header (block ++ rest) ∧
    ∀ register, evalRule header register (block ++ rest) = if holds then evalRule header register rest else none

theorem guards_nil : Guards ha [] true := fun _ h => ⟨h, fun _ => rfl⟩

theorem Guards.append {bl b' : List Expr} {a b : Bool} (h : Guards ha bl a)
    (h' : Guards ha b' b) : Guards ha (bl ++ b') (a && b) := by
  intro tl hr
  obtain ⟨hfr', he'⟩ := h' tl hr
  obtain ⟨hfr, he⟩ := h (b' ++ tl) hfr'
  rw [append_assoc]
  refine ⟨hfr, fun re => ?_⟩
  rw [he, he']
  cases a <;> rfl

theorem guards_cmp (f : Field) (op : CmpOp) (vl : BitVec 32) :
    Guards ha [.payload f, .cmp op vl] (op.holds (ha f) vl) := by
  intro tl hr
  refine ⟨fresh_payload _ _, fun re => ?_⟩
  simp only [cons_append, nil_append, evalRule]
  split
  · exact hr _ _
  · rfl

theorem guards_masked_cmp (f : Field) (mask : BitVec 32) (op : CmpOp) (vl : BitVec 32) :
    Guards ha [.payload f, .bitwise mask 0, .cmp op vl] (op.holds (ha f &&& mask) vl) := by
  intro tl hr
  refine ⟨fresh_payload _ _, fun re => ?_⟩
  have hx : (ha f &&& mask) ^^^ 0 = ha f &&& mask := BitVec.xor_zero
  simp only [cons_append, nil_append, evalRule, hx]
  split
  · exact hr _ _
  · rfl

theorem evalRule_guarded {bl : List Expr} {hl : Bool} (h : Guards ha bl hl) (v : Verdict)
    (r : BitVec 32) : evalRule ha r (bl ++ [.verdict v]) = if hl then some v else none :=
  (h _ (fresh_verdict v [])).2 r

theorem evalChain_append (ru r' : List (List Expr)) :
    evalChain ha (ru ++ r') = (evalChain ha ru).or (evalChain ha r') := by
  simp [evalChain, findSome?_append]

theorem evalChain_guarded {α : Type} {v : Verdict} (r : α → List Expr) (hl : α → Bool) :
    ∀ it : List α, (∀ item ∈ it, evalRule ha 0 (r item) = if hl item then some v else none) →
      evalChain ha (it.map r) = if it.any hl then some v else none
  | [], _ => rfl
  | item :: it, h => by
    have ht := h item mem_cons_self
    have hr := evalChain_guarded r hl it fun i hi => h i (mem_cons_of_mem _ hi)
    unfold evalChain at hr ⊢
    rw [map_cons, findSome?_cons, ht, any_cons]
    cases hl item with
    | true => rfl
    | false => exact hr

end Klights.Lib.Nft

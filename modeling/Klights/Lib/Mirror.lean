import Klights.Lib.Runs
import Mathlib.Data.List.ReduceOption

/-!
# Mirroring the selected part of a keyed state

A source changes one key at a time: a value appears, changes or disappears. A reader who only wants the values that
are selected holds the selected part of the state. For them an update that makes a value selected is an addition, and
one that makes it unselected is a deletion: `relay` rewrites a change from what the reader holds.

- `relay_legal`, `replay_relay`: of a change that is legal at the source, the reader is told one that is legal for what
  they hold, and then holds the selected part of the new state;
- `mirror`, `told_legal`: the same along a log, after every change;
- `relay_mapKey`, `afterChanges_mapKey`: readers who name the keys differently are told the same and hold the same.
-/

namespace Klights.Lib.Mirror

open Function

/-! ## Changes -/

inductive ChangeKind where
  | added
  | modified
  | deleted
  deriving DecidableEq

structure KeyChange (κ α : Type) where
  kind : ChangeKind
  key : κ
  value : α

open KeyChange

namespace KeyChange

variable {κ α : Type}

def outcome (change : KeyChange κ α) : Option α :=
  match change.kind with
  | .deleted => none
  | .added | .modified => some change.value

theorem outcome_of_deleted {change : KeyChange κ α} (h : change.kind = .deleted) : change.outcome = none := by
  simp [outcome, h]

theorem outcome_of_kept {change : KeyChange κ α} (h : change.kind ≠ .deleted) : change.outcome = some change.value := by
  cases hk : change.kind with
  | added => simp [outcome, hk]
  | modified => simp [outcome, hk]
  | deleted => exact absurd hk h

def mapKey {κ' : Type} (f : κ → κ') (change : KeyChange κ α) : KeyChange κ' α :=
  ⟨change.kind, f change.key, change.value⟩

/-- An absent key is added, a present one modified or deleted. -/
def Legal (state : κ → Option α) (change : KeyChange κ α) : Prop :=
  (state change.key).isSome = true ↔ change.kind ≠ .added

instance (state : κ → Option α) (change : KeyChange κ α) : Decidable (change.Legal state) :=
  inferInstanceAs (Decidable (_ ↔ _))

end KeyChange

variable {κ α : Type} [DecidableEq κ] (sel : α → Bool)

abbrev afterChanges (state : κ → Option α) (log : List (KeyChange κ α)) : κ → Option α :=
  replay key outcome state log

def selected (state : κ → Option α) : κ → Option α := fun key => (state key).filter sel

omit [DecidableEq κ] in
def relay (held : κ → Option α) (change : KeyChange κ α) : Option (KeyChange κ α) :=
  match change.kind, held change.key with
  | .deleted, prior => if prior.isSome || sel change.value then some change else none
  | _, some prior => some (if sel change.value then change else { change with kind := .deleted, value := prior })
  | _, none => if sel change.value then some { change with kind := .added } else none

/-- What a reader is told of each change of a log. -/
def relayAll (held : κ → Option α) : List (KeyChange κ α) → List (Option (KeyChange κ α))
  | [] => []
  | change :: rest =>
    relay sel held change :: relayAll (afterChanges held (relay sel held change).toList) rest

/-- The value that a deletion carries is not selected unless the deleted one was. -/
def DeletesSelected (state : κ → Option α) (change : KeyChange κ α) : Prop :=
  change.kind = .deleted → sel change.value = true → (selected sel state change.key).isSome = true

omit [DecidableEq κ] in
instance (state : κ → Option α) (change : KeyChange κ α) : Decidable (DeletesSelected sel state change) :=
  inferInstanceAs (Decidable (_ → _ → _))

variable {sel} {st hd : κ → Option α} {change c told : KeyChange κ α} {log : List (KeyChange κ α)}

theorem afterChanges_cons : afterChanges st (change :: log) = afterChanges (afterChanges st [change]) log := rfl

/-! ## One change -/

section Cases

omit [DecidableEq κ]

theorem relay_deleted (hi : c.kind = .deleted) :
    relay sel hd c = if (hd c.key).isSome || sel c.value then some c else none := by
  unfold relay
  split
  · rfl
  · exact absurd hi ‹_›
  · exact absurd hi ‹_›

theorem relay_held {prior : α} (hk : change.kind ≠ .deleted) (hh : hd change.key = some prior) : relay sel hd change =
      some (if sel change.value then change else { change with kind := .deleted, value := prior }) := by
  unfold relay
  split
  · exact absurd ‹_› hk
  · rename_i hp hn
    rw [hh] at hp
    cases hp
    rfl
  · rename_i hp hn
    rw [hh] at hp
    cases hp

theorem relay_absent (hk : change.kind ≠ .deleted) (hh : hd change.key = none) :
    relay sel hd change = if sel change.value then some { change with kind := .added } else none := by
  unfold relay
  split
  · exact absurd ‹_› hk
  · rename_i hp hn
    rw [hh] at hp
    cases hp
  · rfl

end Cases

omit [DecidableEq κ] in
theorem relay_key (h : relay sel hd c = some told) : told.key = c.key := by
  unfold relay at h
  split at h
  · split at h
    · cases h; rfl
    · cases h
  · cases h
    split <;> rfl
  · split at h
    · cases h; rfl
    · cases h

omit [DecidableEq κ] in
/-- The reader is told the new value, or the one they hold. -/
theorem relay_value (h : relay sel hd c = some told) : told.value = c.value ∨ hd c.key = some told.value := by
  unfold relay at h
  split at h
  · split at h
    · cases h; exact .inl rfl
    · cases h
  · rename_i pr hh hk
    cases h
    split
    · exact .inl rfl
    · exact .inr hh
  · split at h
    · cases h; exact .inl rfl
    · cases h

omit [DecidableEq κ] in
/-- For the reader the key becomes what it is at the source, if that is selected. -/
theorem relay_outcome : ((relay sel hd c).elim (hd c.key) outcome) = c.outcome.filter sel := by
  unfold relay
  split
  · -- a deletion is passed on unless the reader does not hold the key
    rename_i hk
    rw [outcome_of_deleted hk]
    split
    · exact outcome_of_deleted hk
    · rename_i hn
      cases hh : hd c.key with
      | none => rfl
      | some pr => simp [hh] at hn
  · rename_i pr hh hk
    rw [outcome_of_kept hk, Option.filter_some]
    split
    · exact outcome_of_kept hk
    · rfl
  · rename_i hh hk
    rw [outcome_of_kept hk, Option.filter_some]
    split
    · rfl
    · exact hh

omit [DecidableEq κ] in
theorem relay_legal (hl : c.Legal st) (he : DeletesSelected sel st c)
    (h : relay sel (selected sel st) c = some told) : told.Legal (selected sel st) := by
  unfold relay at h
  split at h
  · -- a deletion is passed on if the reader holds the key, or else if its value is selected
    rename_i hi
    split at h
    · rename_i hp
      cases h
      have hh : (selected sel st c.key).isSome :=
        ((Bool.or_eq_true _ _).mp hp).elim id (he hi)
      simp [KeyChange.Legal, hh, hi]
    · cases h
  · rename_i pr hh hi
    have hs : (st c.key).isSome := by
      rw [(Option.filter_eq_some_iff.1 hh).1]; rfl
    have hk := hl.1 hs
    cases h
    split
    · simp [KeyChange.Legal, hh, hk]
    · simp [KeyChange.Legal, hh]
  · rename_i hh hi
    split at h
    · cases h
      simp [KeyChange.Legal, hh]
    · cases h

/-- A reader who is told what becomes of the selected part of the key holds the selected part of the new state. -/
theorem replay_told {told : Option (KeyChange κ α)} (hk : ∀ c', told = some c' → c'.key = c.key)
    (ho : told.elim (selected sel st c.key) outcome = c.outcome.filter sel) :
    afterChanges (selected sel st) told.toList = selected sel (afterChanges st [c]) := by
  funext key
  have hn : selected sel (afterChanges st [c]) key = (Function.update st c.key c.outcome key).filter sel := rfl
  rw [hn]
  by_cases heq : key = c.key
  · rw [heq, update_self, ← ho]
    cases told with
    | none => rfl
    | some told =>
      show Function.update (selected sel st) told.key told.outcome c.key = told.outcome
      rw [hk told rfl, update_self]
  · rw [update_of_ne heq]
    cases told with
    | none => rfl
    | some told =>
      show Function.update (selected sel st) told.key told.outcome key = _
      rw [hk told rfl, update_of_ne heq]
      rfl

theorem replay_relay : afterChanges (selected sel st) (relay sel (selected sel st) c).toList =
    selected sel (afterChanges st [c]) :=
  replay_told (fun _ ht => relay_key ht) relay_outcome

omit [DecidableEq κ] in
/-- Where every value is selected the reader is told what happens. -/
theorem relay_of_selected (hl : change.Legal hd) (hs : sel change.value) : relay sel hd change = some change := by
  by_cases hk : change.kind = .deleted
  · rw [relay_deleted hk, hs, Bool.or_true, if_pos rfl]
  · cases hh : hd change.key with
    | some pr => rw [relay_held hk hh, if_pos hs]
    | none =>
      have ha : change.kind = .added := by
        by_contra hne
        have ho := hl.2 hne
        rw [hh] at ho
        cases ho
      rw [relay_absent hk hh, if_pos hs, ← ha]

/-! ## A log -/

theorem length_relayAll (log : List (KeyChange κ α)) : (relayAll sel hd log).length = log.length := by
  induction log generalizing hd with
  | nil => rfl
  | cons c tl ih => rw [relayAll, List.length_cons, List.length_cons, ih]

theorem mirror (log : List (KeyChange κ α)) (n : Nat) :
    afterChanges (selected sel st) ((relayAll sel (selected sel st) log).take n).reduceOption =
      selected sel (afterChanges st (log.take n)) := by
  induction log generalizing st n with
  | nil => simp [relayAll, afterChanges, replay]
  | cons c tl ih =>
    cases n with
    | zero => rfl
    | succ n =>
      simp only [relayAll, List.take_succ_cons]
      rw [afterChanges_cons, replay_relay, ← ih]
      cases hr : relay sel (selected sel st) c with
      | none =>
        rw [List.reduceOption_cons_of_none, ← replay_relay, hr]
        rfl
      | some told =>
        rw [List.reduceOption_cons_of_some, afterChanges_cons, ← replay_relay, hr]
        rfl

theorem told_legal {n : Nat} (hl : Along (fun st change => afterChanges st [change]) KeyChange.Legal st log)
    (he : Along (fun st change => afterChanges st [change]) (DeletesSelected sel) st log)
    (ho : (relayAll sel (selected sel st) log)[n]? = some (some told)) :
    told.Legal (selected sel (afterChanges st (log.take n))) := by
  induction log generalizing st n with
  | nil => cases ho
  | cons change tl ih =>
    cases n with
    | zero =>
      have hr : relay sel (selected sel st) change = some told := by simpa [relayAll] using ho
      exact relay_legal hl.1 he.1 hr
    | succ n =>
      refine ih hl.2 he.2 ?_
      rwa [relayAll, replay_relay] at ho

/-! ## Two names for a key -/

variable {κ' : Type} [DecidableEq κ'] {f : κ → κ'} {hd' : κ' → Option α}

omit [DecidableEq κ] [DecidableEq κ'] in
theorem relay_mapKey (hh : ∀ k, hd' (f k) = hd k) : relay sel hd' (c.mapKey f) = (relay sel hd c).map (mapKey f) := by
  obtain ⟨kd, k, v⟩ := c
  show relay sel hd' ⟨kd, f k, v⟩ = _
  unfold relay
  simp only [hh k]
  split
  · by_cases hp : ((hd k).isSome || sel v)
    · rw [if_pos hp, if_pos hp]; rfl
    · rw [if_neg hp, if_neg hp]; rfl
  · by_cases hs : sel v
    · rw [if_pos hs, if_pos hs]; rfl
    · rw [if_neg hs, if_neg hs]; rfl
  · by_cases hs : sel v
    · rw [if_pos hs, if_pos hs]; rfl
    · rw [if_neg hs, if_neg hs]; rfl

theorem afterChanges_mapKey (hf : Function.Injective f) (hh : ∀ key, hd' (f key) = hd key)
    (told : Option (KeyChange κ α)) (key : κ) :
    afterChanges hd' (told.map (mapKey f)).toList (f key) = afterChanges hd told.toList key := by
  cases told with
  | none => exact hh key
  | some told =>
    show Function.update hd' (f told.key) (told.mapKey f).outcome (f key) = Function.update hd told.key told.outcome key
    by_cases hk : key = told.key
    · rw [hk, update_self, update_self]
      rfl
    · rw [update_of_ne hk, update_of_ne fun heq => hk (hf heq), hh]

end Klights.Lib.Mirror

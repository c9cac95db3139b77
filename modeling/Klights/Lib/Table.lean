import Mathlib.Data.List.Nodup

/-!
# Tables with a primary key

A `Table key` is a list of rows no two of which have the same key. The operations are the SQL statements on one
table: `find` is `SELECT .. WHERE key = ?`, `put` is `INSERT .. ON CONFLICT DO UPDATE`, `deleteWhere` is
`DELETE .. WHERE`, `updateWhere` is `UPDATE .. WHERE`.

- rows and lookups are the same thing (`find_eq_some_iff`, `find_eq_none_iff`);
- each operation in terms of rows (`mem_put`, `mem_deleteWhere`, `mem_updateWhere`) and of lookups
  (`find_put`, `find_deleteWhere`);
- `Versioned.Seen`: a copy that was read from a cell at some time.
-/

namespace Klights.Lib

open List

/-- A table with a primary key: rows in insertion order, no two with the same key. -/
@[ext]
structure Table {κ ρ : Type} (key : ρ → κ) where
  rows : List ρ
  nodup : (rows.map key).Nodup

section Upsert

variable {κ ρ : Type} [DecidableEq κ]

def upsert (key : ρ → κ) (row : ρ) : List ρ → List ρ
  | [] => [row]
  | r :: rest => if key r = key row then row :: rest else r :: upsert key row rest

theorem map_upsert (key : ρ → κ) (row : ρ) :
    ∀ rs, (upsert key row rs).map key = if key row ∈ rs.map key then rs.map key else rs.map key ++ [key row]
  | [] => by simp [upsert]
  | r :: rest => by
    unfold upsert
    by_cases h : key r = key row
    · simp [h]
    · have h' : ¬key row = key r := fun e => h e.symm
      simp only [h, if_false, map_cons, map_upsert key row rest, mem_cons, h', false_or]
      split <;> simp

theorem nodup_upsert (key : ρ → κ) (row : ρ) {rs : List ρ} (h : (rs.map key).Nodup) :
    ((upsert key row rs).map key).Nodup := by
  rw [map_upsert]
  split
  · exact h
  · rename_i hn
    exact h.append (nodup_singleton _) (by simpa using hn)

theorem mem_upsert (key : ρ → κ) (row : ρ) {r : ρ} :
    ∀ {rs : List ρ}, (rs.map key).Nodup → (r ∈ upsert key row rs ↔ r = row ∨ (r ∈ rs ∧ key r ≠ key row))
  | [], _ => by simp [upsert]
  | s :: rest, h => by
    obtain ⟨hs, he⟩ := nodup_cons.1 (map_cons ▸ h)
    unfold upsert
    by_cases hk : key s = key row
    · -- the head is replaced, and no other row has its key
      have hne : r ∈ rest → key r ≠ key row := fun hr e =>
        hs (by rw [hk, ← e]; exact mem_map_of_mem hr)
      simp only [hk, if_true, mem_cons]
      constructor
      · rintro (rfl | hr)
        · exact .inl rfl
        · exact .inr ⟨.inr hr, hne hr⟩
      · rintro (rfl | ⟨rfl | hr, hk'⟩)
        · exact .inl rfl
        · exact absurd hk hk'
        · exact .inr hr
    · simp only [hk, if_false, mem_cons, mem_upsert key row he]
      constructor
      · rintro (rfl | rfl | ⟨hr, hk'⟩)
        · exact .inr ⟨.inl rfl, hk⟩
        · exact .inl rfl
        · exact .inr ⟨.inr hr, hk'⟩
      · rintro (rfl | ⟨rfl | hr, hk'⟩)
        · exact .inr (.inl rfl)
        · exact .inl rfl
        · exact .inr (.inr ⟨hr, hk'⟩)

theorem upsert_of_new (key : ρ → κ) (row : ρ) :
    ∀ {rs : List ρ}, (∀ r ∈ rs, key r ≠ key row) → upsert key row rs = rs ++ [row]
  | [], _ => rfl
  | r :: rest, h => by
    rw [upsert, if_neg (h r (by simp)), upsert_of_new key row fun s hs => h s (by simp [hs])]
    rfl

end Upsert

namespace Table

variable {κ ρ : Type} {key : ρ → κ} {t : Table key} {r row : ρ} {k : κ} {rs : List ρ}

instance [DecidableEq ρ] : DecidableEq (Table key) := fun t u =>
  decidable_of_iff (t.rows = u.rows) Table.ext_iff.symm

/-- The table without rows. -/
def empty : Table key := ⟨[], by simp⟩

instance : Inhabited (Table key) := ⟨empty⟩

def deleteWhere (t : Table key) (p : ρ → Bool) : Table key :=
  ⟨t.rows.filter fun r => !p r, (filter_sublist.map key).nodup t.nodup⟩

def updateWhere (t : Table key) (p : ρ → Bool) (f : ρ → ρ) (hkey : ∀ r, key (f r) = key r) : Table key :=
  ⟨t.rows.map fun r => if p r then f r else r, by
    have h : (t.rows.map fun r => if p r then f r else r).map key = t.rows.map key := by
      rw [map_map]
      refine map_congr_left fun r _ => ?_
      simp only [Function.comp_apply]
      split
      · exact hkey r
      · rfl
    rw [h]
    exact t.nodup⟩

@[simp] theorem rows_empty : (empty : Table key).rows = [] := rfl

@[simp] theorem mem_deleteWhere {p : ρ → Bool} : r ∈ (t.deleteWhere p).rows ↔ r ∈ t.rows ∧ p r = false := by
  simp [deleteWhere]

theorem mem_updateWhere {p : ρ → Bool} {f : ρ → ρ} {hk : ∀ r, key (f r) = key r} :
    r ∈ (t.updateWhere p f hk).rows ↔ ∃ o ∈ t.rows, (if p o then f o else o) = r := by
  simp [updateWhere]

variable [DecidableEq κ]

def find (t : Table key) (k : κ) : Option ρ := t.rows.find? fun r => key r = k

/-- `INSERT .. ON CONFLICT DO UPDATE`. -/
def put (t : Table key) (row : ρ) : Table key := ⟨upsert key row t.rows, nodup_upsert key row t.nodup⟩

/-! ## Lookups and rows -/

theorem find_eq_some_iff : t.find k = some r ↔ r ∈ t.rows ∧ key r = k := by
  unfold find
  constructor
  · intro h
    exact ⟨mem_of_find?_eq_some h, by simpa using find?_some h⟩
  · rintro ⟨hr, rfl⟩
    cases h : t.rows.find? fun s => key s = key r with
    | none => exact absurd (find?_eq_none.1 h r hr) (by simp)
    | some s =>
      -- two rows with one key are one row
      have hs : key s = key r := by simpa using find?_some h
      exact congrArg some (inj_on_of_nodup_map t.nodup (mem_of_find?_eq_some h) hr hs)

theorem find_eq_none_iff : t.find k = none ↔ ∀ r ∈ t.rows, key r ≠ k := by
  simp [find, find?_eq_none]

theorem find_mem (h : t.find k = some r) : r ∈ t.rows :=
  (find_eq_some_iff.1 h).1

theorem find_key (h : t.find k = some r) : key r = k :=
  (find_eq_some_iff.1 h).2

theorem find_of_mem (h : r ∈ t.rows) : t.find (key r) = some r :=
  find_eq_some_iff.2 ⟨h, rfl⟩

@[simp] theorem find_empty (k : κ) : (empty : Table key).find k = none := rfl

/-- A lookup among what some rows are mapped to, under their keys. -/
theorem find?_filterMap {σ : Type} (t : Table key) {f : ρ → Option σ} {k' : σ → κ}
    (he : ∀ r s, f r = some s → k' s = key r) (k : κ) :
    (t.rows.filterMap f).find? (fun s => k' s = k) = (t.find k).bind f := by
  -- what is found comes from the row with the key
  have hc : ∀ s ∈ t.rows.filterMap f, k' s = k → ∃ r, t.find k = some r ∧ f r = some s := by
    intro s hs hk
    obtain ⟨r, hr, hf⟩ := mem_filterMap.1 hs
    exact ⟨r, find_eq_some_iff.2 ⟨hr, (he r s hf).symm.trans hk⟩, hf⟩
  cases ho : (t.rows.filterMap f).find? fun s => k' s = k with
  | none =>
    cases hw : t.find k with
    | none => rfl
    | some r =>
      cases hf : f r with
      | none => exact hf.symm
      | some s =>
        have hm : s ∈ t.rows.filterMap f := mem_filterMap.2 ⟨r, find_mem hw, hf⟩
        have hk : k' s = k := (he r s hf).trans (find_key hw)
        exact absurd (decide_eq_true hk) (find?_eq_none.1 ho s hm)
  | some s =>
    obtain ⟨r, hw, hf⟩ := hc s (mem_of_find?_eq_some ho) (by simpa using find?_some ho)
    rw [hw, Option.bind_some, hf]

/-! ## Operations -/

theorem mem_put : r ∈ (t.put row).rows ↔ r = row ∨ (r ∈ t.rows ∧ key r ≠ key row) :=
  mem_upsert key row t.nodup

theorem old_or_new (h : r ∈ (t.put row).rows) : r ∈ t.rows ∨ r = row :=
  (mem_put.1 h).symm.imp_left And.left

theorem find_put (t : Table key) (row : ρ) (k : κ) :
    (t.put row).find k = if key row = k then some row else t.find k := by
  split
  · rename_i h
    exact find_eq_some_iff.2 ⟨mem_put.2 (.inl rfl), h⟩
  · rename_i h
    refine Option.ext fun r => ?_
    simp only [find_eq_some_iff, mem_put]
    constructor
    · rintro ⟨rfl | ⟨hr, -⟩, hk⟩
      · exact absurd hk h
      · exact ⟨hr, hk⟩
    · rintro ⟨hr, rfl⟩
      exact ⟨.inr ⟨hr, fun e => h e.symm⟩, rfl⟩

@[simp] theorem find_put_self (t : Table key) (row : ρ) : (t.put row).find (key row) = some row := by
  simp [find_put]

theorem find_put_ne (h : key row ≠ k) : (t.put row).find k = t.find k := by
  simp [find_put, h]

theorem find_deleteWhere (t : Table key) (p : ρ → Bool) (k : κ) :
    (t.deleteWhere p).find k = (t.find k).filter fun r => !p r := by
  refine Option.ext fun r => ?_
  simp only [find_eq_some_iff, mem_deleteWhere, Option.filter_eq_some_iff]
  constructor
  · rintro ⟨⟨hr, hp⟩, hk⟩; exact ⟨⟨hr, hk⟩, by simp [hp]⟩
  · rintro ⟨⟨hr, hk⟩, hp⟩; exact ⟨⟨hr, by simpa using hp⟩, hk⟩

theorem find_deleteWhere_key (t : Table key) (g k : κ) :
    (t.deleteWhere fun r => key r = g).find k = if g = k then none else t.find k := by
  rw [find_deleteWhere]
  cases hf : t.find k with
  | none => simp
  | some r =>
    have hk : key r = k := find_key hf
    by_cases h : g = k
    · simp [h, hk]
    · simpa [h, hk] using fun e : k = g => h e.symm

theorem find_updateWhere (t : Table key) (p : ρ → Bool) (f : ρ → ρ) (he : ∀ r, key (f r) = key r) (k : κ) :
    (t.updateWhere p f he).find k = (t.find k).map fun r => if p r then f r else r := by
  have hr : ∀ r, key (if p r then f r else r) = key r := by
    intro r
    split
    · exact he r
    · rfl
  refine Option.ext fun r => ?_
  rw [find_eq_some_iff, mem_updateWhere, Option.map_eq_some_iff]
  constructor
  · rintro ⟨⟨ol, ho, rfl⟩, hk⟩
    exact ⟨ol, find_eq_some_iff.2 ⟨ho, (hr ol).symm.trans hk⟩, rfl⟩
  · rintro ⟨ol, ho, rfl⟩
    obtain ⟨hm, hk⟩ := find_eq_some_iff.1 ho
    exact ⟨⟨ol, hm, rfl⟩, (hr ol).trans hk⟩

theorem mem_foldl_put (hd : (rs.map key).Nodup) :
    r ∈ (rs.foldl put t).rows ↔ r ∈ rs ∨ (r ∈ t.rows ∧ key r ∉ rs.map key) := by
  induction rs generalizing t with
  | nil => simp
  | cons row rs ih =>
    obtain ⟨hr, hrs⟩ := nodup_cons.1 (map_cons ▸ hd)
    rw [foldl_cons, ih hrs, mem_put, map_cons, mem_cons, mem_cons, not_or]
    constructor
    · rintro (h | ⟨rfl | ⟨hin, hne⟩, ho⟩)
      · exact .inl (.inr h)
      · exact .inl (.inl rfl)
      · exact .inr ⟨hin, hne, ho⟩
    · rintro ((rfl | h) | ⟨hin, hne, ho⟩)
      · exact .inr ⟨.inl rfl, hr⟩
      · exact .inl h
      · exact .inr ⟨.inr ⟨hin, hne⟩, ho⟩

theorem of_mem_foldl_put (h : r ∈ (rs.foldl put t).rows) : r ∈ rs ∨ r ∈ t.rows := by
  induction rs generalizing t with
  | nil => exact .inr h
  | cons row rs ih =>
    rcases ih h with hr | hr
    · exact .inl (mem_cons_of_mem row hr)
    · rcases mem_put.1 hr with rfl | ⟨hr, -⟩
      · exact .inl mem_cons_self
      · exact .inr hr

/-- The keys that are there after storing rows one by one, whatever replaced what. -/
theorem key_mem_foldl_put :
    (∃ r ∈ (rs.foldl put t).rows, key r = k) ↔ (∃ r ∈ t.rows, key r = k) ∨ ∃ r ∈ rs, key r = k := by
  induction rs generalizing t with
  | nil => simp
  | cons row rs ih =>
    have hp : (∃ r ∈ (t.put row).rows, key r = k) ↔ (∃ r ∈ t.rows, key r = k) ∨ key row = k := by
      constructor
      · rintro ⟨r, hr, hk⟩
        rcases mem_put.1 hr with rfl | ⟨hr, -⟩
        · exact .inr hk
        · exact .inl ⟨r, hr, hk⟩
      · rintro (⟨r, hr, hk⟩ | hk)
        · by_cases ho : key r = key row
          · exact ⟨row, mem_put.2 (.inl rfl), ho.symm.trans hk⟩
          · exact ⟨r, mem_put.2 (.inr ⟨hr, ho⟩), hk⟩
        · exact ⟨row, mem_put.2 (.inl rfl), hk⟩
    rw [foldl_cons, ih, hp, or_assoc]
    simp

/-- A table of one key holds at most the row of that key. -/
theorem rows_of_one_key (h : ∀ r ∈ t.rows, key r = k) : t.rows = (t.find k).toList := by
  obtain ⟨rs, hnd⟩ := t
  cases rs with
  | nil => rfl
  | cons row tl =>
    have hr : key row = k := h row (by simp)
    cases tl with
    | nil => simp [find, hr]
    | cons o tl =>
      -- two rows of one key
      have ho : key o = k := h o (by simp)
      simp [hr, ho] at hnd

end Table

/-! ## Optimistic writes -/

/-- A value with the version of its last write. A write names the version that its writer has read. -/
structure Versioned (α : Type*) where
  value : α
  version : Nat

namespace Versioned

variable {α : Type*} {cell copy : Versioned α}

def write (cell : Versioned α) (value : α) : Versioned α := ⟨value, cell.version + 1⟩

/-- The copy is no newer than the cell, and is the cell if it is as new. -/
def Seen (cell copy : Versioned α) : Prop :=
  copy.version ≤ cell.version ∧ (copy.version = cell.version → copy = cell)

theorem Seen.refl (cell : Versioned α) : Seen cell cell := ⟨Nat.le_refl _, fun _ => rfl⟩

theorem Seen.write (h : Seen cell copy) (v : α) : Seen (cell.write v) copy := by
  have hle : copy.version ≤ cell.version := h.1
  refine ⟨Nat.le_succ_of_le hle, fun heq => ?_⟩
  have hnew : copy.version = cell.version + 1 := heq
  omega

theorem Seen.eq (h : Seen cell copy) (hr : copy.version = cell.version) : copy = cell := h.2 hr

/-- A copy is behind the cell once it is written. -/
theorem Seen.ne_write (h : Seen cell copy) (v : α) : copy.version ≠ (cell.write v).version :=
  Nat.ne_of_lt (Nat.lt_succ_of_le h.1)

end Versioned

end Klights.Lib

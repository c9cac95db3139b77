import Mathlib.Tactic.Common

/-!
# Transactions with savepoints

Code that runs inside a database transaction. An error does not undo what was written before it: a savepoint that is
rolled back does, or the end of the transaction.

- `TxM σ ε α` computes over a `Transaction σ`, the working state and the savepoints still open;
- `savepoint`, `rollbackTo` and `release` go by name and act on the newest savepoint of that name; `attempt` hands an
  error to its caller; `transact` keeps the state of a computation that ends well and drops the other;
- `Yields x tx r`: from `tx` the computation ends as the state-passing result `r` says and leaves the savepoints alone;
  after an error the working state may be anything. Its rules follow the shape of a program;
- `Ends x tx r` is the same for a computation that may leave a savepoint open when it fails;
- a failed attempt that is rolled back leaves no trace (`attempt_rollback`), and a transaction ends where its
  state-passing result says, or where it began (`transact_eq`).
-/

namespace Klights.Lib

/-- The working state of a transaction and its open savepoints, newest first. -/
structure Transaction (σ : Type) where
  state : σ
  savepoints : List (String × σ)

def Transaction.saved {σ : Type} (tx : Transaction σ) (name : String) : Transaction σ :=
  ⟨tx.state, (name, tx.state) :: tx.savepoints⟩

def TxM (σ ε α : Type) : Type := Transaction σ → Except ε α × Transaction σ

namespace TxM

variable {σ ε α β : Type} {state s : σ} {r : Except ε (σ × β)}

instance : Monad (TxM σ ε) where
  pure a := fun tx => (.ok a, tx)
  bind x k := fun tx =>
    match x tx with
    | (.ok a, tx) => k a tx
    | (.error err, tx) => (.error err, tx)

def fail (err : ε) : TxM σ ε α := fun tx => (.error err, tx)

/-- A computation that reads and writes nothing. -/
def lift (result : Except ε α) : TxM σ ε α := fun tx => (result, tx)

def read : TxM σ ε σ := fun tx => (.ok tx.state, tx)

def write (state : σ) : TxM σ ε Unit := fun tx => (.ok (), { tx with state })

/-- The result of a computation as a value; its writes stay. -/
def attempt (x : TxM σ ε α) : TxM σ ε (Except ε α) := fun tx => (.ok (x tx).1, (x tx).2)

/-! ## Savepoints -/

def savepoint (name : String) : TxM σ ε Unit :=
  fun tx => (.ok (), { tx with savepoints := (name, tx.state) :: tx.savepoints })

def savepointsFrom (name : String) (savepoints : List (String × σ)) : List (String × σ) :=
  savepoints.dropWhile fun saved => saved.1 ≠ name

/-- Back to the newest savepoint of a name, which stays open. -/
def rollbackTo (missing : ε) (name : String) : TxM σ ε Unit := fun tx =>
  match savepointsFrom name tx.savepoints with
  | [] => (.error missing, tx)
  | saved :: older => (.ok (), ⟨saved.2, saved :: older⟩)

/-- Close the newest savepoint of a name; the writes since stay. -/
def release (missing : ε) (name : String) : TxM σ ε Unit := fun tx =>
  match savepointsFrom name tx.savepoints with
  | [] => (.error missing, tx)
  | _ :: older => (.ok (), { tx with savepoints := older })

/-- Run a computation as one transaction: committed if it ends well, dropped otherwise. -/
def transact (x : TxM σ ε α) (state : σ) : Except ε α × σ :=
  match x ⟨state, []⟩ with
  | (.ok a, tx) => (.ok a, tx.state)
  | (.error err, _) => (.error err, state)

/-! ## State-passing results -/

/-- From `tx` the computation ends as `r` says, with the savepoints it found. -/
inductive Yields (x : TxM σ ε α) (tx : Transaction σ) : Except ε (σ × α) → Prop
  | ok {state : σ} {a : α} (h : x tx = (.ok a, { tx with state })) : Yields x tx (.ok (state, a))
  | error {err : ε} (h : (x tx).1 = .error err) (hsaved : (x tx).2.savepoints = tx.savepoints) :
      Yields x tx (.error err)

/-- From `tx` the computation ends as `r` says; a failure may leave savepoints open. -/
inductive Ends (x : TxM σ ε α) (tx : Transaction σ) : Except ε (σ × α) → Prop
  | ok {state : σ} {a : α} (h : x tx = (.ok a, { tx with state })) : Ends x tx (.ok (state, a))
  | error {err : ε} (h : (x tx).1 = .error err) : Ends x tx (.error err)

variable {x : TxM σ ε α} {k : α → TxM σ ε β} {tx : Transaction σ} {err e : ε}

theorem bind_ok {a : α} {tx' : Transaction σ} (h : x tx = (.ok a, tx')) : (x >>= k) tx = k a tx' := by
  simp [bind, h]

theorem bind_error (h : (x tx).1 = .error e) : (x >>= k) tx = (.error e, (x tx).2) := by
  obtain ⟨tx', hx⟩ : ∃ tx', x tx = (.error e, tx') := ⟨(x tx).2, Prod.ext h rfl⟩
  simp [bind, hx]

theorem yields_pure (a : α) : Yields (pure a : TxM σ ε α) tx (.ok (tx.state, a)) := .ok rfl

theorem yields_fail : Yields (fail err : TxM σ ε α) tx (.error err) := .error rfl rfl

theorem Yields.bind_ok {a : α} (hx : Yields x tx (.ok (state, a))) (hk : Yields (k a) { tx with state } r) :
    Yields (x >>= k) tx r := by
  cases hx with
  | ok hx =>
    have hr : (x >>= k) tx = k a { tx with state } := TxM.bind_ok hx
    cases hk with
    | ok h => exact .ok (hr.trans h)
    | error h hsv => exact .error (by rw [hr]; exact h) (by rw [hr]; exact hsv)

theorem Yields.bind_error (hx : Yields x tx (.error e)) : Yields (x >>= k) tx (.error e) := by
  cases hx with
  | error h hsv =>
    exact .error (by rw [TxM.bind_error h]) (by rw [TxM.bind_error h]; exact hsv)

theorem yields_read {k : σ → TxM σ ε β} (hk : Yields (k tx.state) tx r) : Yields (read >>= k) tx r :=
  Yields.bind_ok (.ok rfl) hk

theorem yields_write {k : Unit → TxM σ ε β} (hk : Yields (k ()) { tx with state } r) :
    Yields (write state >>= k) tx r :=
  Yields.bind_ok (.ok rfl) hk

theorem yields_lift {re : Except ε α} {g : α → Except ε (σ × β)}
    (hk : ∀ a, re = .ok a → Yields (k a) tx (g a)) : Yields (lift re >>= k) tx (re >>= g) := by
  cases re with
  | error e => exact .error rfl rfl
  | ok a => exact Yields.bind_ok (.ok rfl) (hk a rfl)

theorem Yields.ends {r : Except ε (σ × α)} (h : Yields x tx r) : Ends x tx r := by
  cases h with
  | ok h => exact .ok h
  | error h _ => exact .error h

theorem ends_read {k : σ → TxM σ ε β} (hk : Ends (k tx.state) tx r) : Ends (read >>= k) tx r := by
  cases hk with
  | ok h => exact .ok h
  | error h => exact .error h

theorem ends_lift {re : Except ε α} {g : α → Except ε (σ × β)}
    (hk : ∀ a, re = .ok a → Ends (k a) tx (g a)) : Ends (lift re >>= k) tx (re >>= g) := by
  cases re with
  | error e => exact .error rfl
  | ok a => exact hk a rfl

/-! ## Rolling back -/

section Rollback

variable {nm : String} {m : ε} {sd : σ} {older o : List (String × σ)}

theorem savepointsFrom_newest : savepointsFrom nm ((nm, sd) :: older) = (nm, sd) :: older := by
  simp [savepointsFrom]

theorem rollbackTo_newest {k : Unit → TxM σ ε β} (h : tx.savepoints = (nm, sd) :: o) :
    (rollbackTo m nm >>= k) tx = k () ⟨sd, (nm, sd) :: o⟩ := by
  apply bind_ok
  simp [rollbackTo, h, savepointsFrom_newest]

theorem release_newest {k : Unit → TxM σ ε β} (h : tx.savepoints = (nm, sd) :: o) :
    (release m nm >>= k) tx = k () ⟨tx.state, o⟩ := by
  apply bind_ok
  simp [release, h, savepointsFrom_newest]

/-- An attempt that ends well goes on inside its savepoint. -/
theorem attempt_ok {a : α} {k : Except ε α → TxM σ ε β} (h : Yields x (tx.saved nm) (.ok (s, a))) :
    (savepoint nm >>= fun _ => attempt x >>= k) tx = k (.ok a) ⟨s, (nm, tx.state) :: tx.savepoints⟩ := by
  have hs : (savepoint nm >>= fun _ => attempt x >>= k) tx = (attempt x >>= k) (tx.saved nm) := bind_ok rfl
  rw [hs]
  apply bind_ok
  cases h with
  | ok h =>
    simp only [attempt, h]
    rfl

theorem attempt_rollback {k : Except ε α → TxM σ ε β} {ha : TxM σ ε β} (h : Yields x (tx.saved nm) (.error e))
    (hk : k (.error e) = (rollbackTo m nm >>= fun _ => release m nm >>= fun _ => ha)) :
    (savepoint nm >>= fun _ => attempt x >>= k) tx = ha tx := by
  have hs : (savepoint nm >>= fun _ => attempt x >>= k) tx = (attempt x >>= k) (tx.saved nm) := bind_ok rfl
  cases h with
  | error he hsv =>
    have ht : (attempt x >>= k) (tx.saved nm) = k (.error e) (x (tx.saved nm)).2 := by
      apply bind_ok
      simp [attempt, he]
    rw [hs, ht, hk, rollbackTo_newest hsv, release_newest rfl]

end Rollback

/-- The end of a transaction with a given state-passing result. -/
def settle (state : σ) : Except ε (σ × α) → Except ε α × σ
  | .ok (state', a) => (.ok a, state')
  | .error err => (.error err, state)

theorem transact_eq {r : Except ε (σ × α)} (h : Ends x ⟨s, []⟩ r) : transact x s = settle s r := by
  unfold transact
  cases h with
  | ok h => simp only [h, settle]
  | error h =>
    rw [show x ⟨s, []⟩ = (.error _, (x ⟨s, []⟩).2) from Prod.ext h rfl]
    rfl

end TxM

end Klights.Lib

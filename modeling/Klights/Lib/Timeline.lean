import Mathlib.Data.Int.Order.Basic
import Mathlib.Data.List.Basic

/-!
# Lists with increasing times

A list whose elements carry increasing times, read from one time on: `upTo` is what has happened by a time, `next` the
first element after it.

- `upTo_next`: the next element extends what has happened by one;
- `upTo_before_next`: nothing happens before the next element.
-/

namespace Klights.Lib

open List

variable {τ : Type} (time : τ → Int)

def upTo (elements : List τ) (t : Int) : List τ := elements.filter fun element => time element ≤ t

def next (elements : List τ) (t : Int) : Option τ := elements.find? fun element => t < time element

variable {time} {elements : List τ} {element : τ} {t u : Int}

theorem next_mem (h : next time elements t = some element) : element ∈ elements := mem_of_find?_eq_some h

theorem lt_next (h : next time elements t = some element) : t < time element := by
  simpa using find?_some h

theorem upTo_eq_nil (h : ∀ element ∈ elements, u < time element) : upTo time elements u = [] := by
  rw [upTo, filter_eq_nil_iff]
  intro element hm
  have := h element hm
  simpa using this

section

variable (hsor : elements.Pairwise fun a b => time a < time b) (h : next time elements t = some element)
include hsor h

/-- Between a time and the next element nothing happens; at it, it does. -/
theorem upTo_cases (htu : t ≤ u) (hu : u ≤ time element) :
    upTo time elements u = upTo time elements t ++ if u = time element then [element] else [] := by
  induction elements with
  | nil => cases h
  | cons first tl ih =>
    obtain ⟨hf1, hr⟩ := pairwise_cons.1 hsor
    by_cases hpa : t < time first
    · -- the first element is the next one, and all others come after it
      have hf : first = element := by
        rw [next, find?_cons_of_pos (by simpa using hpa)] at h
        exact Option.some.inj h
      subst hf
      have hl : ∀ v, v ≤ time first → upTo time tl v = [] := fun v hv =>
        upTo_eq_nil fun o ho => lt_of_le_of_lt hv (hf1 o ho)
      have hn : upTo time (first :: tl) t = [] := by
        rw [upTo, filter_cons_of_neg (by simpa using hpa)]
        exact hl t (le_of_lt hpa)
      rw [hn, nil_append]
      split
      · rename_i hat
        rw [upTo, filter_cons_of_pos (by simp [hat])]
        exact congrArg (first :: ·) (hl u hu)
      · rename_i hb
        have hlt : u < time first := lt_of_le_of_ne hu hb
        rw [upTo, filter_cons_of_neg (by simpa using hlt)]
        exact hl u hu
    · have he : next time tl t = some element := by
        rwa [next, find?_cons_of_neg (by simpa using hpa)] at h
      have hn : time first ≤ t := not_lt.1 hpa
      have ht : time first ≤ u := le_trans hn htu
      rw [upTo, filter_cons_of_pos (by simpa using ht), upTo, filter_cons_of_pos (by simpa using hn)]
      exact congrArg (first :: ·) (ih hr he)

theorem upTo_next : upTo time elements (time element) = upTo time elements t ++ [element] := by
  rw [upTo_cases hsor h (le_of_lt (lt_next h)) le_rfl, if_pos rfl]

theorem upTo_before_next (htu : t ≤ u) (hu : u < time element) : upTo time elements u = upTo time elements t := by
  rw [upTo_cases hsor h htu (le_of_lt hu), if_neg (ne_of_lt hu), append_nil]

end

/-! ## Broadcast channels

A channel is the list of everything sent on it, and keeps the last `capacity` events. A receiver is the position of the
next event it will be given; one that is further behind is told that it lags. -/

section Broadcast

inductive Received (ε : Type) where
  | event (e : ε)
  | lagged
  | nothing

def receive {ε : Type} (capacity : Nat) (sent : List ε) (next : Nat) : Received ε :=
  match sent[next]? with
  | none => .nothing
  | some e => if capacity < sent.length - next then .lagged else .event e

variable {ε : Type} {c n : Nat} {s : List ε} {e : ε}

theorem receive_event (h : receive c s n = .event e) : s.drop n = e :: s.drop (n + 1) := by
  unfold receive at h
  split at h
  · cases h
  · rename_i hget
    obtain ⟨hlt, hget⟩ := List.getElem?_eq_some_iff.1 hget
    split at h
    · cases h
    · cases h
      rw [← hget]
      exact List.drop_eq_getElem_cons hlt

end Broadcast

end Klights.Lib

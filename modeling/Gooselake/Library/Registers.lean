import Mathlib.Data.List.Induction

/-!
Registers that events overwrite. A run goes through its events from first to last, and what a register holds in the end
was put there by the latest of the events that write it.
-/

namespace Gooselake.Library

universe u v w

set_option autoImplicit false

variable {Event : Type u} {State : Type v} {Value : Type w}

/-- The last of the events that meet `p`. -/
def latest (p : Event → Bool) (events : List Event) : Option Event := (events.filter p).getLast?

theorem latest_concat (p : Event → Bool) (events : List Event) (e : Event) :
    latest p (events ++ [e]) = if p e then some e else latest p events := by
  unfold latest
  rw [List.filter_append]
  by_cases he : p e = true
  · rw [List.filter_cons_of_pos he, if_pos he, List.filter_nil, List.getLast?_concat]
  · rw [List.filter_cons_of_neg he, if_neg he, List.filter_nil, List.append_nil]

theorem latest_meets {p : Event → Bool} {events : List Event} {e : Event} (h : latest p events = some e) :
    e ∈ events ∧ p e = true :=
  List.mem_filter.mp (List.mem_of_getLast? h)

theorem latest_eq_none {p : Event → Bool} {events : List Event} :
    latest p events = none ↔ ∀ e ∈ events, ¬p e = true := by
  rw [latest, List.getLast?_eq_none_iff, List.filter_eq_nil_iff]

/-- The latest event of a kind is also the latest of a narrower kind that it belongs to. -/
theorem latest_of_latest {p q : Event → Bool} {events : List Event} {e : Event}
    (hpq : ∀ e, q e = true → p e = true) (h : latest p events = some e) (hq : q e = true) :
    latest q events = some e := by
  induction events using List.reverseRecOn with
  | nil => cases h
  | append_singleton events last ih =>
    rw [latest_concat] at h ⊢
    by_cases hlast : p last = true
    · rw [if_pos hlast] at h
      obtain rfl := Option.some.inj h
      rw [if_pos hq]
    · rw [if_neg hlast] at h
      have hnot : ¬q last = true := fun hq => hlast (hpq last hq)
      rw [if_neg hnot]
      exact ih h

/-- What a register holds after a run, from what one event does to it. -/
theorem register_foldl (read : State → Value) (step : State → Event → State) (writes : Event → Bool)
    (value : Event → Value) (hstep : ∀ s e, read (step s e) = if writes e then value e else read s)
    (events : List Event) (s : State) :
    read (events.foldl step s) = ((latest writes events).map value).getD (read s) := by
  induction events using List.reverseRecOn with
  | nil => rfl
  | append_singleton events e ih =>
    rw [List.foldl_append, List.foldl_cons, List.foldl_nil, hstep, latest_concat]
    by_cases he : writes e = true
    · rw [if_pos he, if_pos he]
      rfl
    · rw [if_neg he, if_neg he]
      exact ih

end Gooselake.Library

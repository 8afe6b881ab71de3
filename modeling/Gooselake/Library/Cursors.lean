import Mathlib.Data.List.Nodup
import Mathlib.Data.List.Infix

/-!
Reading a list page by page from a cursor that names the entry read last. The cursor is looked up by position, so the
list needs no order; it may grow at its end while it is read.
-/

namespace Gooselake.Library

set_option autoImplicit false

variable {α κ : Type} (key : α → κ)

/-! ## Pages -/

section

variable [DecidableEq κ]

/-- Where a page starts: after the entry the cursor names, which may not be there. -/
def startAfter (l : List α) : Option κ → Option ℕ
  | none => some 0
  | some k => (l.findIdx? fun a => key a = k).map (· + 1)

/-- A page and the cursor of the next one, which is given when the page does not reach the end. -/
def cursorPage (l : List α) (cursor : Option κ) (limit : ℕ) : Option (List α × Option κ) :=
  (startAfter key l cursor).map fun start =>
    let page := (l.drop start).take limit
    (page, if page.length < l.length - start then page.getLast?.map key else none)

theorem startAfter_eq_none_iff (l : List α) (k : κ) : startAfter key l (some k) = none ↔ k ∉ l.map key := by
  rw [startAfter, Option.map_eq_none_iff, List.findIdx?_eq_none_iff]
  simp only [decide_eq_false_iff_not, List.mem_map, not_exists, not_and]

theorem startAfter_le {l : List α} {cursor : Option κ} {start : ℕ} (h : startAfter key l cursor = some start) :
    start ≤ l.length := by
  cases cursor with
  | none =>
    obtain rfl := Option.some.inj h
    exact Nat.zero_le _
  | some k =>
    obtain ⟨i, hi, rfl⟩ := Option.map_eq_some_iff.mp h
    obtain ⟨hlt, -⟩ := List.findIdx?_eq_some_iff_getElem.mp hi
    exact hlt

/-- With the last entry read as the cursor the page starts where the entries read end. -/
theorem startAfter_getLast? {before rest : List α} (hkeys : ((before ++ rest).map key).Nodup) :
    startAfter key (before ++ rest) (before.getLast?.map key) = some before.length := by
  induction before using List.reverseRecOn with
  | nil => rfl
  | append_singleton init a _ =>
    have hnot : ∀ b ∈ init, key b ≠ key a := by
      intro b hb he
      rw [List.map_append, List.map_append, List.nodup_append] at hkeys
      have hinit := (List.nodup_append.mp hkeys.1).2.2
      exact hinit (key b) (List.mem_map_of_mem hb) (key a) (List.mem_singleton_self _) he
    have hinit : init.findIdx? (fun b => key b = key a) = none := by
      rw [List.findIdx?_eq_none_iff]
      exact fun b hb => decide_eq_false (hnot b hb)
    rw [List.getLast?_append, List.getLast?_singleton, Option.some_or, Option.map_some, startAfter, List.append_assoc,
      List.findIdx?_append, hinit, List.singleton_append, List.findIdx?_cons]
    simp

/-- The page after the entries read. -/
theorem cursorPage_getLast? {before rest : List α} (hkeys : ((before ++ rest).map key).Nodup) (limit : ℕ) :
    cursorPage key (before ++ rest) (before.getLast?.map key) limit =
      some (rest.take limit, if limit < rest.length then (rest.take limit).getLast?.map key else none) := by
  have hlength : (rest.take limit).length < (before ++ rest).length - before.length ↔ limit < rest.length := by
    rw [List.length_take, List.length_append]
    omega
  rw [cursorPage, startAfter_getLast? key hkeys, Option.map_some, List.drop_left]
  simp only [hlength]

/-- Whatever entry the cursor names, no cursor is returned exactly when the page ends where the list does. -/
theorem cursorPage_end {l page : List α} {cursor next : Option κ} {limit : ℕ} (hlimit : 0 < limit)
    (h : cursorPage key l cursor limit = some (page, next)) :
    ∃ before after, l = before ++ page ++ after ∧ (next = none ↔ after = []) := by
  obtain ⟨start, hstart, he⟩ := Option.map_eq_some_iff.mp h
  obtain ⟨rfl, rfl⟩ := Prod.mk.inj he
  have hle := startAfter_le key hstart
  refine ⟨l.take start, (l.drop start).drop limit, ?_, ?_⟩
  · rw [List.append_assoc, List.take_append_drop, List.take_append_drop]
  · rw [List.drop_eq_nil_iff, List.length_drop, List.length_take, List.length_drop]
    split
    · next hmore =>
      have hpage : (l.drop start).take limit ≠ [] := by
        rw [← List.length_pos_iff, List.length_take, List.length_drop]
        omega
      rw [List.getLast?_eq_some_getLast hpage, Option.map_some]
      simp only [reduceCtorEq, false_iff]
      omega
    · next hend =>
      simp only [true_iff]
      omega

end

/-! ## Following the cursors -/

/-- A reader that goes on with the cursor it gets: what it has visited, in how many pages, and the cursor of its next
page; none when it got no cursor and is done. -/
structure Following (α κ : Type) where
  next : Option (Option κ)
  visited : List α
  pages : ℕ

namespace Following

def start (α κ : Type) : Following α κ := ⟨some none, [], 0⟩

def turn (f : Following α κ) (answer : List α × Option κ) : Following α κ where
  next := answer.2.map some
  visited := f.visited ++ answer.1
  pages := f.pages + 1

/-- What holds of a reader while the list is `l`. -/
structure Sound (l : List α) (f : Following α κ) : Prop where
  visited : f.visited <+: l
  cursor : ∀ cursor, f.next = some cursor → cursor = f.visited.getLast?.map key
  pages : f.next ≠ none → f.pages ≤ f.visited.length
  more : f.next ≠ none → f.visited ≠ [] → f.visited.length < l.length

theorem sound_start (l : List α) : Sound key l (start α κ) where
  visited := List.nil_prefix
  cursor cursor h := by
    obtain rfl := Option.some.inj h
    rfl
  pages _ := Nat.le_refl _
  more _ h := absurd rfl h

variable {key} {l l' : List α} {f : Following α κ}

/-- The list grows. -/
theorem Sound.grow (h : f.Sound key l) (hgrow : l <+: l') : f.Sound key l' where
  visited := h.visited.trans hgrow
  cursor := h.cursor
  pages := h.pages
  more hnext hvisited := Nat.lt_of_lt_of_le (h.more hnext hvisited) hgrow.length_le

/-- A page is read: it is there, it goes on where the last one ended, and the reader is done when it is at the end. -/
theorem Sound.turn [DecidableEq κ] (h : f.Sound key l) (hkeys : (l.map key).Nodup) {cursor : Option κ}
    (hnext : f.next = some cursor) {limit : ℕ} (hlimit : 0 < limit) :
    ∃ answer, cursorPage key l cursor limit = some answer ∧ (f.turn answer).Sound key l ∧
      ((f.turn answer).next = none ↔ (f.turn answer).visited = l) := by
  obtain ⟨rest, rfl⟩ := h.visited
  obtain rfl := h.cursor cursor hnext
  have hpages := h.pages (by rw [hnext]; exact Option.some_ne_none _)
  have hpage := cursorPage_getLast? key hkeys limit
  by_cases hmore : limit < rest.length
  · rw [if_pos hmore] at hpage
    have hlength : (rest.take limit).length = limit := by
      rw [List.length_take]
      omega
    have hpos : rest.take limit ≠ [] := by
      intro he
      rw [he, List.length_nil] at hlength
      omega
    have hlast : (f.visited ++ rest.take limit).getLast? = (rest.take limit).getLast? := by
      rw [List.getLast?_append, List.getLast?_eq_some_getLast hpos, Option.some_or]
    refine ⟨_, hpage, ⟨?_, fun cursor' hcursor => ?_, fun _ => ?_, fun _ _ => ?_⟩, ?_⟩
    · exact (List.prefix_append_right_inj _).mpr (List.take_prefix limit rest)
    · obtain ⟨k, hk, rfl⟩ := Option.map_eq_some_iff.mp hcursor
      rw [← hk, Following.turn, hlast]
    · show f.pages + 1 ≤ (f.visited ++ rest.take limit).length
      rw [List.length_append]
      omega
    · show (f.visited ++ rest.take limit).length < (f.visited ++ rest).length
      rw [List.length_append, List.length_append]
      omega
    · refine iff_of_false ?_ fun he => ?_
      · rw [Following.turn, List.getLast?_eq_some_getLast hpos]
        exact Option.some_ne_none _
      · have hsame : rest.take limit = rest := List.append_cancel_left he
        rw [hsame] at hlength
        omega
  · rw [if_neg hmore] at hpage
    have htake : rest.take limit = rest := List.take_of_length_le (by omega)
    refine ⟨_, hpage, ⟨?_, fun _ hcursor => ?_, fun hopen => absurd rfl hopen, fun hopen => absurd rfl hopen⟩, ?_⟩
    · exact (List.prefix_append_right_inj _).mpr (List.take_prefix limit rest)
    · cases hcursor
    · exact iff_of_true rfl (congrArg (f.visited ++ ·) htake)

/-- A reader that is not done has read fewer pages than the list has entries, or no page at all. -/
theorem Sound.stops (h : f.Sound key l) (hpages : max 1 l.length ≤ f.pages) : f.next = none := by
  by_contra hnext
  have hread := h.pages hnext
  have hvisited : f.visited ≠ [] := by
    intro he
    rw [he] at hread
    simp only [List.length_nil] at hread
    omega
  have hmore := h.more hnext hvisited
  omega

end Following

end Gooselake.Library

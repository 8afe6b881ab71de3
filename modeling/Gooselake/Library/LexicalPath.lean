import Mathlib.Data.List.Basic

/-!
Paths read by their text alone: components between slashes, where "." stands for the directory it is in and ".." for
the one above. A name joined to a path leads into it unless it is one of these.
-/

namespace Gooselake.Library

set_option autoImplicit false

/-- A component of a path. -/
abbrev PathPart : Type := List Char

/-- Where a path leads: from the root or from where one is, and through which directories, the last one first. A
relative path may begin with "..". -/
structure Place where
  absolute : Bool
  down : List PathPart
  deriving DecidableEq, Repr

namespace Place

/-- One component further. -/
def enter (p : Place) (part : PathPart) : Place :=
  if part = [] ∨ part = ['.'] then p
  else if part = ['.', '.'] then
    match p.down with
    | [] => if p.absolute then p else { p with down := [part] }
    | last :: rest => if last = ['.', '.'] then { p with down := part :: p.down } else { p with down := rest }
  else { p with down := part :: p.down }

/-- The place a text names. -/
def ofText (text : List Char) : Place :=
  (text.splitOn '/').foldl enter ⟨text.head? = some '/', []⟩

/-- Strictly below `p`, and nowhere out of it. -/
def StrictlyInside (p q : Place) : Prop :=
  q.absolute = p.absolute ∧ ∃ below, below ≠ [] ∧ ['.', '.'] ∉ below ∧ q.down = below ++ p.down

/-- One directory below `p`. -/
def DirectChild (p q : Place) : Prop :=
  q.absolute = p.absolute ∧ ∃ part, part ≠ ['.', '.'] ∧ q.down = part :: p.down

/-- A name that leads into a directory. -/
def IsName (part : PathPart) : Prop := part ≠ [] ∧ part ≠ ['.'] ∧ part ≠ ['.', '.']

instance (part : PathPart) : Decidable (IsName part) := inferInstanceAs (Decidable (_ ∧ _ ∧ _))

theorem enter_name (p : Place) {part : PathPart} (h : IsName part) :
    p.enter part = { p with down := part :: p.down } := by
  obtain ⟨hempty, hdot, hup⟩ := h
  rw [enter, if_neg (by simp [hempty, hdot]), if_neg hup]

theorem StrictlyInside.trans {p q r : Place} (h : p.StrictlyInside q) (h' : q.StrictlyInside r) :
    p.StrictlyInside r := by
  obtain ⟨habsolute, below, hne, hup, hdown⟩ := h
  obtain ⟨habsolute', below', -, hup', hdown'⟩ := h'
  refine ⟨habsolute'.trans habsolute, below' ++ below, ?_, ?_, ?_⟩
  · exact fun he => hne (List.append_eq_nil_iff.mp he).2
  · rw [List.mem_append, not_or]
    exact ⟨hup', hup⟩
  · rw [hdown', hdown, List.append_assoc]

theorem DirectChild.strictlyInside {p q : Place} (h : p.DirectChild q) : p.StrictlyInside q := by
  obtain ⟨habsolute, part, hup, hdown⟩ := h
  refine ⟨habsolute, [part], List.cons_ne_nil _ _, ?_, hdown⟩
  rw [List.mem_singleton]
  exact Ne.symm hup

theorem directChild_enter (p : Place) {part : PathPart} (h : IsName part) : p.DirectChild (p.enter part) := by
  rw [enter_name p h]
  exact ⟨rfl, part, h.2.2, rfl⟩

/-- What is no name stays where it is, leads up, or is kept because there is nothing to lead up from. -/
theorem enter_of_not_name (p : Place) {part : PathPart} (h : ¬ IsName part) :
    (p.enter part).down.length ≤ p.down.length ∨ (p.enter part).down = ['.', '.'] :: p.down := by
  unfold enter
  split
  · exact .inl (Nat.le_refl _)
  · next hmoves =>
    have hup : part = ['.', '.'] := by
      by_contra hne
      exact h ⟨fun he => hmoves (.inl he), fun he => hmoves (.inr he), hne⟩
    rw [if_pos hup, hup]
    split
    · next hnil =>
      split
      · exact .inl (Nat.le_refl _)
      · exact .inr (by rw [hnil])
    · next last rest hcons =>
      split
      · exact .inr rfl
      · refine .inl ?_
        rw [hcons, List.length_cons]
        exact Nat.le_succ _

/-- One step leads into a directory exactly when it is by a name. -/
theorem strictlyInside_enter_iff (p : Place) (part : PathPart) : p.StrictlyInside (p.enter part) ↔ IsName part := by
  constructor
  · rintro ⟨-, below, hne, hup, hdown⟩
    by_contra hname
    rcases enter_of_not_name p hname with hlength | hkept
    · rw [hdown, List.length_append] at hlength
      have hpos := List.length_pos_iff.mpr hne
      omega
    · rw [hkept] at hdown
      have hbelow : [['.', '.']] = below := List.append_cancel_right hdown
      exact hup (hbelow ▸ List.mem_singleton_self _)
  · intro h
    exact (directChild_enter p h).strictlyInside

/-! ## Joining -/

/-- A relative component put after a path. -/
def joinText (text part : List Char) : List Char :=
  if text = [] then part else if text.getLast? = some '/' then text ++ part else text ++ '/' :: part

/-- A component without slashes that is joined to a path is entered from it. -/
theorem ofText_joinText (text : List Char) {part : PathPart} (hpart : '/' ∉ part) :
    ofText (joinText text part) = (ofText text).enter part := by
  have hsingle : part.splitOn '/' = [part] := List.splitOn_eq_singleton hpart
  have hempty : ∀ p : Place, p.enter [] = p := fun p => if_pos (.inl rfl)
  unfold joinText
  split
  · next hnil =>
    have hrelative : part.head? ≠ some '/' := fun he => hpart (List.mem_of_head? he)
    rw [ofText, hsingle, hnil, ofText, List.splitOn_nil]
    simp [hempty, hrelative]
  · next hne =>
    have hhead : ∀ rest, (text ++ rest).head? = text.head? := fun rest => by
      obtain ⟨c, cs, rfl⟩ := List.exists_cons_of_ne_nil hne
      rfl
    split
    · next hlast =>
      -- the empty component after the last slash
      obtain ⟨init, hinit⟩ := List.getLast?_eq_some_iff.mp hlast
      have hsplit : text.splitOn '/' = init.splitOn '/' ++ [[]] := by
        rw [hinit, List.splitOn_append_cons_self, List.splitOn_nil]
      have hjoined : (text ++ part).splitOn '/' = init.splitOn '/' ++ [part] := by
        rw [hinit, List.append_assoc, List.singleton_append, List.splitOn_append_cons_self, hsingle]
      rw [ofText, ofText, hsplit, hjoined, hhead, List.foldl_append, List.foldl_append, List.foldl_cons,
        List.foldl_cons, hempty]
      rfl
    · rw [ofText, List.splitOn_append_cons_self, List.foldl_append, hsingle, hhead]
      rfl

end Place

end Gooselake.Library

import Mathlib.Data.List.Basic

/-!
Command lines, read by the usual convention. An argument that starts with `-` is an option, and some options take the next
argument as their value; the others are positional, and so is all that stands after `--`.
-/

namespace Gooselake.Library

set_option autoImplicit false

structure ArgConvention where
  takesValue : String → Bool
  /-- A value may start with `-`. -/
  hyphenValues : Bool

/-- The options with their values, and the positional arguments. -/
@[ext]
structure ArgReading where
  options : List (String × Option String)
  positionals : List String
  deriving DecidableEq, Repr

namespace ArgReading

def nil : ArgReading := ⟨[], []⟩

def append (r r' : ArgReading) : ArgReading := ⟨r.options ++ r'.options, r.positionals ++ r'.positionals⟩

def option (name : String) (value : Option String) : ArgReading := ⟨[(name, value)], []⟩

def positional (arg : String) : ArgReading := ⟨[], [arg]⟩

end ArgReading

open ArgReading

def isOption (arg : String) : Bool := arg.toList.head? = some '-'

/-- How a command line reads under the convention. -/
def readArgs (c : ArgConvention) : List String → ArgReading
  | [] => nil
  | arg :: args =>
    if arg = "--" then ⟨[], args⟩
    else if isOption arg = false then (positional arg).append (readArgs c args)
    else if c.takesValue arg = false then (option arg none).append (readArgs c args)
    else
      match args with
      | [] => option arg none
      | value :: rest =>
        if c.hyphenValues || !isOption value then (option arg (some value)).append (readArgs c rest)
        else (option arg none).append (readArgs c (value :: rest))

section

variable {c : ArgConvention} {arg name value : String} {args : List String} {r r' : ArgReading}

theorem ArgReading.append_left_inj (r : ArgReading) {x y : ArgReading} : r.append x = r.append y ↔ x = y := by
  constructor
  · intro h
    obtain ⟨hoptions, hpositionals⟩ := ArgReading.mk.inj h
    exact ArgReading.ext (List.append_cancel_left hoptions) (List.append_cancel_left hpositionals)
  · rintro rfl
    rfl

theorem readArgs_positional (h : isOption arg = false) (args : List String) :
    readArgs c (arg :: args) = (positional arg).append (readArgs c args) := by
  have hne : arg ≠ "--" := by
    rintro rfl
    cases h
  rw [readArgs.eq_def]
  dsimp only
  rw [if_neg hne, if_pos h]

theorem readArgs_flag (h : isOption arg = true) (hne : arg ≠ "--") (hflag : c.takesValue arg = false)
    (args : List String) : readArgs c (arg :: args) = (option arg none).append (readArgs c args) := by
  rw [readArgs.eq_def]
  dsimp only
  rw [if_neg hne, if_neg (by rw [h]; exact nofun), if_pos hflag]

/-- An option has its value just when the next argument can be one. -/
theorem readArgs_valued_iff (h : isOption name = true) (hne : name ≠ "--") (hvalued : c.takesValue name = true) :
    readArgs c (name :: value :: args) = (option name (some value)).append r ↔
      (c.hyphenValues = true ∨ isOption value = false) ∧ readArgs c args = r := by
  rw [readArgs, if_neg hne, if_neg (by rw [h]; exact nofun), if_neg (by rw [hvalued]; exact nofun)]
  split
  · next htakes =>
    rw [append_left_inj]
    have htakes' : c.hyphenValues = true ∨ isOption value = false := by simpa using htakes
    exact ⟨fun hr => ⟨htakes', hr⟩, And.right⟩
  · next htakes =>
    constructor
    · intro hr
      have hhead := (List.cons.inj (ArgReading.mk.inj hr).1).1
      cases hhead
    · rintro ⟨htakes', -⟩
      exact absurd (by simpa using htakes') htakes

/-- All arguments are positional just when none starts with `-`. -/
theorem readArgs_eq_positionals_iff : readArgs c args = ⟨[], args⟩ ↔ ∀ arg ∈ args, isOption arg = false := by
  induction args with
  | nil => exact ⟨fun _ => nofun, fun _ => rfl⟩
  | cons arg args ih =>
    rw [List.forall_mem_cons, ← ih]
    by_cases h : isOption arg = false
    · have hcons : (⟨[], arg :: args⟩ : ArgReading) = (positional arg).append ⟨[], args⟩ := rfl
      rw [readArgs_positional h, hcons, append_left_inj]
      exact ⟨fun hr => ⟨h, hr⟩, And.right⟩
    · refine ⟨fun hr => ?_, fun hr => absurd hr.1 h⟩
      rw [readArgs.eq_def] at hr
      dsimp only at hr
      by_cases hend : arg = "--"
      · rw [if_pos hend] at hr
        have hlength := congrArg List.length (ArgReading.mk.inj hr).2
        rw [List.length_cons] at hlength
        omega
      · rw [if_neg hend, if_neg h] at hr
        split at hr
        · cases hr
        · split at hr
          · cases hr
          · split at hr <;> cases hr

end

end Gooselake.Library

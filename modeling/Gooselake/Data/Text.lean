import Mathlib.Data.List.Basic
import Mathlib.Data.List.DropRight

/-! The text operations of the source's languages that the modelled functions call. -/

namespace Gooselake.Data

set_option autoImplicit false

/-- Pairs of texts, such as a repository and a branch in it, are looked up in lists. -/
instance lawfulBEqPair : LawfulBEq (String × String) := inferInstance

/-- The Unicode property `White_Space`, which Rust's `char::is_whitespace` tests. -/
def isWhitespace (c : Char) : Bool :=
  (9 ≤ c.toNat && c.toNat ≤ 13) || c.toNat = 0x20 || c.toNat = 0x85 || c.toNat = 0xA0 ||
    c.toNat = 0x1680 || (0x2000 ≤ c.toNat && c.toNat ≤ 0x200A) || c.toNat = 0x2028 ||
    c.toNat = 0x2029 || c.toNat = 0x202F || c.toNat = 0x205F || c.toNat = 0x3000

/-- Drop the characters that meet `p` at both ends. -/
def trimBy (p : Char → Bool) (s : String) : String :=
  String.ofList ((s.toList.dropWhile p).reverse.dropWhile p).reverse

/-- Rust's `str::trim`. -/
def trim (s : String) : String := trimBy isWhitespace s

/-- Rust's `str::to_ascii_lowercase`. -/
def toAsciiLowercase (s : String) : String := String.ofList (s.toList.map Char.toLower)

/-- Rust's `str::starts_with`. -/
def startsWith (head s : String) : Bool := head.toList.isPrefixOf s.toList

/-- The trimmed text, unless nothing is left of it: `map(str::trim).filter(|v| !v.is_empty())`. -/
def trimmedNonEmpty (s : String) : Option String :=
  let t := trim s
  if t = "" then none else some t

theorem toList_trimBy (p : Char → Bool) (s : String) : (trimBy p s).toList = (s.toList.dropWhile p).rdropWhile p := by
  rw [trimBy, String.toList_ofList, List.rdropWhile]

/-! ## Trimming twice -/

theorem trimBy_trimBy (p : Char → Bool) (s : String) : trimBy p (trimBy p s) = trimBy p s := by
  -- what is left starts and ends with a character that stays
  have hdrop : ∀ l : List Char, (l.dropWhile p).dropWhile p = l.dropWhile p :=
    List.dropWhile_idempotent p
  have hfront : ∀ l : List Char,
      ((l.dropWhile p).reverse.dropWhile p).reverse.dropWhile p = ((l.dropWhile p).reverse.dropWhile p).reverse := by
    intro l
    have hsuffix := List.dropWhile_suffix p (l := (l.dropWhile p).reverse)
    have hprefix : ((l.dropWhile p).reverse.dropWhile p).reverse <+: l.dropWhile p := by
      have h := List.reverse_prefix.mpr hsuffix
      rwa [List.reverse_reverse] at h
    obtain ⟨rest, hrest⟩ := hprefix
    cases hl : ((l.dropWhile p).reverse.dropWhile p).reverse with
    | nil => rfl
    | cons c cs =>
      have hhead : (l.dropWhile p).head? = some c := by rw [← hrest, hl]; rfl
      have hc : p c = false := by
        have h := List.head?_dropWhile_not p l
        rw [hhead] at h
        simpa using h
      rw [List.dropWhile_cons_of_neg (by simp [hc])]
  simp only [trimBy, String.toList_ofList, hfront, List.reverse_reverse, hdrop]

theorem trim_trim (s : String) : trim (trim s) = trim s := trimBy_trimBy _ s

theorem trim_of_solid {s : String} (h : ∀ c ∈ s.toList, isWhitespace c = false) : trim s = s := by
  have hkeep : ∀ l : List Char, (∀ c ∈ l, isWhitespace c = false) → l.dropWhile isWhitespace = l := by
    intro l hl
    cases l with
    | nil => rfl
    | cons c cs => exact List.dropWhile_cons_of_neg (by simp [hl c List.mem_cons_self])
  rw [trim, trimBy, hkeep _ h, hkeep _ fun c hc => h c (List.mem_reverse.mp hc), List.reverse_reverse,
    String.ofList_toList]

theorem mem_trimBy {p : Char → Bool} {s : String} {c : Char} (h : c ∈ (trimBy p s).toList) : c ∈ s.toList := by
  rw [trimBy, String.toList_ofList, List.mem_reverse] at h
  have hback := (List.dropWhile_sublist p).subset h
  exact (List.dropWhile_sublist p).subset (List.mem_reverse.mp hback)

theorem isWhitespace_of_isAlphanum {c : Char} (h : c.isAlphanum = true) : isWhitespace c = false := by
  change ((decide (65 ≤ c.val ∧ c.val ≤ 90) || (97 ≤ c.val && c.val ≤ 122)) || (48 ≤ c.val && c.val ≤ 57)) = true at h
  simp only [Bool.or_eq_true, Bool.and_eq_true, decide_eq_true_eq, UInt32.le_iff_toNat_le] at h
  have hn : c.toNat = c.val.toNat := rfl
  have hrange : 48 ≤ c.toNat ∧ c.toNat ≤ 122 := by
    rcases h with (h | h) | h <;> simp at h <;> omega
  simp only [isWhitespace, Bool.or_eq_false_iff, Bool.and_eq_false_iff, decide_eq_false_iff_not]
  omega

theorem trimmedNonEmpty_of_trimmed {s t : String} (h : trimmedNonEmpty s = some t) : trimmedNonEmpty t = some t := by
  simp only [trimmedNonEmpty] at h ⊢
  split at h
  · cases h
  · next hne =>
    obtain rfl := Option.some.inj h
    rw [trim_trim, if_neg hne]

end Gooselake.Data

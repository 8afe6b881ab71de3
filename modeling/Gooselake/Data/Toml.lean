import Mathlib.Data.List.Basic
import Mathlib.Algebra.Order.Ring.Nat

/-!
TOML text as the adapters write it: basic strings with their escapes, and keys that are quoted only when they have
to be. A text can be read back from the string that is written for it.
-/

namespace Gooselake.Data.Toml

set_option autoImplicit false

/-- Rust's `char::is_control`. -/
def isControl (c : Char) : Bool := c.toNat < 0x20 || (0x7F ≤ c.toNat && c.toNat < 0xA0)

/-- The last `n` hexadecimal digits of a number. -/
def hexDigits : ℕ → ℕ → List Char
  | 0, _ => []
  | n + 1, m => hexDigits n (m / 16) ++ [Nat.digitChar (m % 16)]

def escapeChar (c : Char) : List Char :=
  if c = '\\' then ['\\', '\\']
  else if c = '"' then ['\\', '"']
  else if c = '\n' then ['\\', 'n']
  else if c = '\r' then ['\\', 'r']
  else if c = '\t' then ['\\', 't']
  else if isControl c then '\\' :: 'u' :: hexDigits 4 c.toNat
  else [c]

def tomlString (value : String) : String := "\"" ++ String.ofList (value.toList.flatMap escapeChar) ++ "\""

def isBareKey (value : String) : Bool := value.toList.all fun c => c.isAlphanum || c = '_' || c = '-'

def tomlKeySegment (value : String) : String := if isBareKey value then value else tomlString value

/-! ## Reading a string back -/

theorem digitChar_inj {m n : ℕ} (hm : m < 16) (hn : n < 16) (h : Nat.digitChar m = Nat.digitChar n) : m = n := by
  have hall : ∀ a b : Fin 16, Nat.digitChar a = Nat.digitChar b → a = b := by decide
  exact congrArg Fin.val (hall ⟨m, hm⟩ ⟨n, hn⟩ h)

theorem length_hexDigits (n m : ℕ) : (hexDigits n m).length = n := by
  induction n generalizing m with
  | zero => rfl
  | succ n ih => rw [hexDigits, List.length_append, ih]; rfl

theorem hexDigits_inj {n a b : ℕ} (ha : a < 16 ^ n) (hb : b < 16 ^ n) (h : hexDigits n a = hexDigits n b) : a = b := by
  induction n generalizing a b with
  | zero =>
    rw [pow_zero] at ha hb
    omega
  | succ n ih =>
    rw [pow_succ] at ha hb
    have hlen : (hexDigits n (a / 16)).length = (hexDigits n (b / 16)).length := by
      rw [length_hexDigits, length_hexDigits]
    obtain ⟨hhigh, hlow⟩ := List.append_inj h hlen
    have hquot := ih (by omega) (by omega) hhigh
    have hrem := digitChar_inj (Nat.mod_lt _ (by omega)) (Nat.mod_lt _ (by omega)) (List.cons.inj hlow).1
    omega

theorem escapeChar_append_inj {c d : Char} {xs ys : List Char} (h : escapeChar c ++ xs = escapeChar d ++ ys) :
    c = d ∧ xs = ys := by
  have hcode : ∀ a b : Char, isControl a = true → isControl b = true →
    hexDigits 4 a.toNat ++ xs = hexDigits 4 b.toNat ++ ys →
      a = b ∧ xs = ys := by
    intro a b ha hb hab
    simp only [isControl, Bool.or_eq_true, Bool.and_eq_true, decide_eq_true_eq] at ha hb
    obtain ⟨hdigits, hrest⟩ := List.append_inj hab (by rw [length_hexDigits, length_hexDigits])
    exact ⟨Char.toNat_inj.mp (hexDigits_inj (by omega) (by omega) hdigits), hrest⟩
  unfold escapeChar at h
  split_ifs at h <;> simp only [List.cons_append, List.nil_append, List.cons.injEq] at h <;> grind

theorem flatMap_escapeChar_inj {xs ys : List Char} (h : xs.flatMap escapeChar = ys.flatMap escapeChar) : xs = ys := by
  have hne : ∀ c, escapeChar c ≠ [] := by
    intro c
    unfold escapeChar
    split_ifs <;> simp
  induction xs generalizing ys with
  | nil =>
    cases ys with
    | nil => rfl
    | cons d ys =>
      rw [List.flatMap_nil, List.flatMap_cons] at h
      exact absurd (List.append_eq_nil_iff.mp h.symm).1 (hne d)
  | cons c xs ih =>
    cases ys with
    | nil =>
      rw [List.flatMap_nil, List.flatMap_cons] at h
      exact absurd (List.append_eq_nil_iff.mp h).1 (hne c)
    | cons d ys =>
      rw [List.flatMap_cons, List.flatMap_cons] at h
      obtain ⟨rfl, hrest⟩ := escapeChar_append_inj h
      rw [ih hrest]

theorem tomlString_inj {a b : String} (h : tomlString a = tomlString b) : a = b := by
  have hchars := congrArg String.toList h
  simp only [tomlString, String.toList_append, String.toList_ofList] at hchars
  have hbody := List.append_cancel_left (List.append_cancel_right hchars)
  exact String.toList_inj.mp (flatMap_escapeChar_inj hbody)

end Gooselake.Data.Toml

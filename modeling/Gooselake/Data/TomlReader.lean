import Gooselake.Data.Toml
import Mathlib.Data.Char

/-!
Reading TOML. This is the part of the grammar in which every expression stands on one line: comments, table headers, and
keys with a basic string, a boolean or an array of these; keys are bare or quoted, and those of headers may be dotted.
Whatever else the grammar has is not read.
-/

namespace Gooselake.Data.Toml

set_option autoImplicit false

/-! ## Tokens -/

inductive Token where
  | bare (word : String)
  | string (value : String)
  | dot
  | equals
  | comma
  | openBracket
  | closeBracket
  deriving DecidableEq, Repr

inductive Mode where
  | idle
  | bare (word : List Char)
  | basic (read : List Char)
  /-- behind a backslash -/
  | escape (read : List Char)
  /-- `left` digits of a code are still to come -/
  | code (read : List Char) (left code : ℕ)
  | comment
  deriving DecidableEq, Repr

structure Lexer where
  tokens : List Token
  mode : Mode
  deriving DecidableEq, Repr

def isBareChar (c : Char) : Bool := c.isAlphanum || c = '_' || c = '-'

def isRefused (c : Char) : Bool := (c.toNat < 0x20 && c ≠ '\t') || c.toNat = 0x7F

def punctuation (c : Char) : Option Token :=
  if c = '.' then some .dot
  else if c = '=' then some .equals
  else if c = ',' then some .comma
  else if c = '[' then some .openBracket
  else if c = ']' then some .closeBracket
  else none

def hexValue (c : Char) : Option ℕ :=
  if c.isDigit then some (c.toNat - 48)
  else if 97 ≤ c.toNat && c.toNat ≤ 102 then some (c.toNat - 87)
  else if 65 ≤ c.toNat && c.toNat ≤ 70 then some (c.toNat - 55)
  else none

def unescaped (c : Char) : Option Char :=
  if c = 'b' then some (Char.ofNat 8)
  else if c = 't' then some '\t'
  else if c = 'n' then some '\n'
  else if c = 'f' then some (Char.ofNat 12)
  else if c = 'r' then some '\r'
  else if c = '"' then some '"'
  else if c = '\\' then some '\\'
  else none

namespace Lexer

def start : Lexer := ⟨[], .idle⟩

def stepIdle (tokens : List Token) (c : Char) : Option Lexer :=
  if c = ' ' || c = '\t' then some ⟨tokens, .idle⟩
  else if c = '"' then some ⟨tokens, .basic []⟩
  else if c = '#' then some ⟨tokens, .comment⟩
  else if isBareChar c then some ⟨tokens, .bare [c]⟩
  else (punctuation c).map fun token => ⟨tokens ++ [token], .idle⟩

def step (s : Lexer) (c : Char) : Option Lexer :=
  match s.mode with
  | .idle => stepIdle s.tokens c
  | .bare word =>
    if isBareChar c then some ⟨s.tokens, .bare (word ++ [c])⟩
    else stepIdle (s.tokens ++ [.bare (String.ofList word)]) c
  | .basic read =>
    if c = '"' then some ⟨s.tokens ++ [.string (String.ofList read)], .idle⟩
    else if c = '\\' then some ⟨s.tokens, .escape read⟩
    else if isRefused c then none
    else some ⟨s.tokens, .basic (read ++ [c])⟩
  | .escape read =>
    if c = 'u' then some ⟨s.tokens, .code read 4 0⟩
    else if c = 'U' then some ⟨s.tokens, .code read 8 0⟩
    else (unescaped c).map fun d => ⟨s.tokens, .basic (read ++ [d])⟩
  | .code read left code =>
    (hexValue c).bind fun digit =>
      if left ≠ 1 then some ⟨s.tokens, .code read (left - 1) (16 * code + digit)⟩
      else if Nat.isValidChar (16 * code + digit) then
        some ⟨s.tokens, .basic (read ++ [Char.ofNat (16 * code + digit)])⟩
      else none
  | .comment => if isRefused c then none else some s

def run (s : Lexer) (cs : List Char) : Option Lexer := cs.foldlM step s

def finish (s : Lexer) : Option (List Token) :=
  match s.mode with
  | .idle | .comment => some s.tokens
  | .bare word => some (s.tokens ++ [.bare (String.ofList word)])
  | .basic _ | .escape _ | .code _ _ _ => none

end Lexer

/-! ## Lines -/

inductive Scalar where
  | str (s : String)
  | bool (b : Bool)
  deriving DecidableEq, Repr

inductive Value where
  | scalar (v : Scalar)
  | array (items : List Scalar)
  deriving DecidableEq, Repr

inductive Statement where
  | blank
  | header (path : List String)
  | entry (key : String) (value : Value)
  deriving DecidableEq, Repr

def keyOf : Token → Option String
  | .bare word => some word
  | .string value => some value
  | .dot | .equals | .comma | .openBracket | .closeBracket => none

def scalarOf : Token → Option Scalar
  | .string value => some (.str value)
  | .bare word => if word = "true" then some (.bool true) else if word = "false" then some (.bool false) else none
  | .dot | .equals | .comma | .openBracket | .closeBracket => none

def readPath : List Token → Option (List String)
  | [key, .closeBracket] => (keyOf key).map fun key => [key]
  | key :: .dot :: rest => do return (← keyOf key) :: (← readPath rest)
  | _ => none

def readItems : List Token → Option (List Scalar)
  | [.closeBracket] => some []
  | [item, .closeBracket] => (scalarOf item).map fun item => [item]
  | item :: .comma :: rest => do return (← scalarOf item) :: (← readItems rest)
  | _ => none

def readStatement : List Token → Option Statement
  | [] => some .blank
  | .openBracket :: rest => (readPath rest).map .header
  | key :: .equals :: .openBracket :: rest => do return .entry (← keyOf key) (.array (← readItems rest))
  | [key, .equals, value] => do return .entry (← keyOf key) (.scalar (← scalarOf value))
  | _ => none

def withoutCr (line : List Char) : List Char := if line.getLast? = some '\r' then line.dropLast else line

def readLine (line : List Char) : Option Statement := do
  readStatement (← (← Lexer.start.run (withoutCr line)).finish)

def linesOf : List Char → List (List Char)
  | [] => [[]]
  | c :: cs =>
    if c = '\n' then [] :: linesOf cs
    else
      match linesOf cs with
      | [] => [[c]]
      | line :: lines => (c :: line) :: lines

/-! ## Documents -/

inductive Node where
  | value (v : Value)
  | table (fields : List (String × Node))
  deriving Repr

abbrev Fields := List (String × Node)

def setTable (key : String) (sub : Fields) (fields : Fields) : Fields :=
  fields.map fun field => if field.1 = key then (key, .table sub) else field

def atPath (change : Fields → Option Fields) : List String → Fields → Option Fields
  | [], fields => change fields
  | key :: path, fields =>
    match fields.lookup key with
    | none => (atPath change path []).map fun sub => fields ++ [(key, .table sub)]
    | some (.table sub) => (atPath change path sub).map fun sub => setTable key sub fields
    | some (.value _) => none

def addEntry (key : String) (value : Value) (fields : Fields) : Option Fields :=
  if (fields.lookup key).isSome then none else some (fields ++ [(key, .value value)])

structure Document where
  root : Fields
  /-- The paths of the headers so far. -/
  defined : List (List String)
  current : List String

namespace Document

def empty : Document := ⟨[], [], []⟩

def take (d : Document) : Statement → Option Document
  | .blank => some d
  | .header path =>
    if path ∈ d.defined then none
    else (atPath some path d.root).map fun root => ⟨root, d.defined ++ [path], path⟩
  | .entry key value => (atPath (addEntry key value) d.current d.root).map fun root => { d with root := root }

end Document

def readToml (text : String) : Option Fields := do
  let statements ← (linesOf text.toList).mapM readLine
  let document ← statements.foldlM Document.take Document.empty
  return document.root

/-! ## Lexing what was written -/

namespace Lexer

theorem run_append (s : Lexer) (xs ys : List Char) : s.run (xs ++ ys) = (s.run xs).bind fun t => t.run ys :=
  List.foldlM_append

theorem run_cons (s : Lexer) (c : Char) (cs : List Char) : s.run (c :: cs) = (s.step c).bind fun t => t.run cs :=
  List.foldlM_cons

theorem hexValue_digitChar {d : ℕ} (h : d < 16) : hexValue (Nat.digitChar d) = some d := by
  have hall : ∀ d : Fin 16, hexValue (Nat.digitChar d) = some d.val := by decide
  exact hall ⟨d, h⟩

variable {tokens : List Token} {read : List Char}

theorem run_hexDigits {n left code m : ℕ} (hn : n < left) (hm : m < 16 ^ n) :
    run ⟨tokens, .code read left code⟩ (hexDigits n m) =
      some ⟨tokens, .code read (left - n) (16 ^ n * code + m)⟩ := by
  induction n generalizing m with
  | zero =>
    rw [pow_zero] at hm
    obtain rfl : m = 0 := by omega
    simp [run, hexDigits]
  | succ n ih =>
    rw [pow_succ] at hm
    rw [hexDigits, run_append, ih (by omega) (by omega), Option.bind_some, run_cons, step]
    dsimp only
    rw [hexValue_digitChar (Nat.mod_lt _ (by omega)), Option.bind_some, if_pos (by omega)]
    have hcode : 16 * (16 ^ n * code + m / 16) + m % 16 = 16 ^ (n + 1) * code + m := by
      rw [pow_succ, Nat.mul_add, ← Nat.mul_assoc, Nat.mul_comm 16 (16 ^ n)]
      omega
    rw [hcode, Nat.sub_sub]
    rfl

theorem run_escapeChar (c : Char) :
    run ⟨tokens, .basic read⟩ (escapeChar c) = some ⟨tokens, .basic (read ++ [c])⟩ := by
  unfold escapeChar
  split_ifs with hbackslash hquote hnewline hreturn htab hcontrol
  · rw [hbackslash]
    rfl
  · rw [hquote]
    rfl
  · rw [hnewline]
    rfl
  · rw [hreturn]
    rfl
  · rw [htab]
    rfl
  · have hsmall : c.toNat < 16 ^ 3 := by
      simp only [isControl, Bool.or_eq_true, Bool.and_eq_true, decide_eq_true_eq] at hcontrol
      omega
    have hcode : hexDigits 4 c.toNat = hexDigits 3 (c.toNat / 16) ++ [Nat.digitChar (c.toNat % 16)] := rfl
    have hopen : run ⟨tokens, .basic read⟩ ['\\', 'u'] = some ⟨tokens, .code read 4 0⟩ := rfl
    have hvalid : c.toNat.isValidChar := c.valid
    have hsum : 16 * (16 ^ 3 * 0 + c.toNat / 16) + c.toNat % 16 = c.toNat := by omega
    change run _ (['\\', 'u'] ++ hexDigits 4 c.toNat) = _
    rw [run_append, hopen, Option.bind_some, hcode, run_append, run_hexDigits (by omega) (by omega), Option.bind_some,
      run_cons, step]
    dsimp only
    rw [hexValue_digitChar (Nat.mod_lt _ (by omega)), Option.bind_some, if_neg (by omega), hsum, if_pos hvalid,
      Char.ofNat_toNat]
    rfl
  · have hplain : isRefused c = false := by
      simp only [isControl, Bool.or_eq_true, Bool.and_eq_true, decide_eq_true_eq, not_or, not_and] at hcontrol
      simp only [isRefused, Bool.or_eq_false_iff, Bool.and_eq_false_iff, decide_eq_false_iff_not]
      omega
    rw [run_cons, step]
    dsimp only
    rw [if_neg hquote, if_neg hbackslash, hplain]
    rfl

theorem run_flatMap_escapeChar (cs : List Char) :
    run ⟨tokens, .basic read⟩ (cs.flatMap escapeChar) = some ⟨tokens, .basic (read ++ cs)⟩ := by
  induction cs generalizing read with
  | nil => rw [List.append_nil]; rfl
  | cons c cs ih =>
    rw [List.flatMap_cons, run_append, run_escapeChar, Option.bind_some, ih, List.append_assoc]
    rfl

theorem run_tomlString (value : String) :
    run ⟨tokens, .idle⟩ (tomlString value).toList = some ⟨tokens ++ [.string value], .idle⟩ := by
  have hopen : run ⟨tokens, .idle⟩ ['"'] = some ⟨tokens, .basic []⟩ := rfl
  have hclose : run ⟨tokens, .basic value.toList⟩ ['"'] = some ⟨tokens ++ [.string value], .idle⟩ := by
    rw [run_cons, step]
    dsimp only
    rw [if_pos rfl, String.ofList_toList]
    rfl
  have hchars : (tomlString value).toList = ['"'] ++ value.toList.flatMap escapeChar ++ ['"'] := by
    simp only [tomlString, String.toList_append, String.toList_ofList]
    rfl
  rw [hchars]
  rw [run_append, run_append, hopen, Option.bind_some, run_flatMap_escapeChar, Option.bind_some, List.nil_append,
    hclose]

/-! ## Keys -/

/-- The lexer stands behind a key or within a bare one, and has `tokens` if that ends here. -/
def Behind (tokens : List Token) (s : Lexer) : Prop :=
  s = ⟨tokens, .idle⟩ ∨ ∃ front word, s = ⟨front, .bare word⟩ ∧ tokens = front ++ [.bare (String.ofList word)]

theorem step_of_behind {s : Lexer} (h : Behind tokens s) {c : Char} {token : Token} (hc : punctuation c = some token) :
    s.step c = some ⟨tokens ++ [token], .idle⟩ := by
  have hidle : ∀ tokens, stepIdle tokens c = some ⟨tokens ++ [token], .idle⟩ ∧ isBareChar c = false := by
    intro tokens
    unfold punctuation at hc
    split_ifs at hc with h₁ h₂ h₃ h₄ h₅ <;> obtain rfl := Option.some.inj hc
    · subst h₁; exact ⟨rfl, rfl⟩
    · subst h₂; exact ⟨rfl, rfl⟩
    · subst h₃; exact ⟨rfl, rfl⟩
    · subst h₄; exact ⟨rfl, rfl⟩
    · subst h₅; exact ⟨rfl, rfl⟩
  rcases h with rfl | ⟨front, word, rfl, rfl⟩
  · exact (hidle tokens).1
  · rw [step]
    dsimp only
    rw [if_neg (by rw [(hidle []).2]; exact nofun)]
    exact (hidle _).1

theorem run_word {word : List Char} {cs : List Char} (h : ∀ c ∈ cs, isBareChar c = true) :
    run ⟨tokens, .bare word⟩ cs = some ⟨tokens, .bare (word ++ cs)⟩ := by
  induction cs generalizing word with
  | nil => rw [List.append_nil]; rfl
  | cons c cs ih =>
    rw [run_cons, step]
    dsimp only
    rw [if_pos (h c List.mem_cons_self), Option.bind_some, ih fun d hd => h d (List.mem_cons_of_mem _ hd),
      List.append_assoc]
    rfl

theorem stepIdle_of_bare {c : Char} (h : isBareChar c = true) : stepIdle tokens c = some ⟨tokens, .bare [c]⟩ := by
  have hne : ∀ d, isBareChar d = false → c ≠ d := by
    rintro d hd rfl
    rw [h] at hd
    cases hd
  rw [stepIdle, if_neg (by simp [hne ' ' rfl, hne '\t' rfl]), if_neg (hne '"' rfl), if_neg (hne '#' rfl), if_pos h]

end Lexer

def keyToken (key : String) : Token := if isBareKey key then .bare key else .string key

theorem keyOf_keyToken (key : String) : keyOf (keyToken key) = some key := by
  rw [keyToken]
  split <;> rfl

theorem Lexer.run_tomlKeySegment {key : String} (h : key ≠ "") (tokens : List Token) :
    ∃ s, Lexer.run ⟨tokens, .idle⟩ (tomlKeySegment key).toList = some s ∧ Behind (tokens ++ [keyToken key]) s := by
  rw [tomlKeySegment, keyToken]
  split
  · next hbare =>
    have hall := List.all_eq_true.mp hbare
    cases hkey : key.toList with
    | nil => exact absurd (String.toList_inj.mp hkey) h
    | cons c cs =>
      rw [hkey] at hall
      refine ⟨⟨tokens, .bare (c :: cs)⟩, ?_, .inr ⟨tokens, c :: cs, rfl, ?_⟩⟩
      · rw [run_cons, step]
        dsimp only
        rw [stepIdle_of_bare (hall c List.mem_cons_self), Option.bind_some,
          run_word fun d hd => hall d (List.mem_cons_of_mem _ hd)]
        rfl
      · rw [← hkey, String.ofList_toList]
  · exact ⟨_, run_tomlString key, .inl rfl⟩

/-! ## Arrays -/

def itemTokens : List String → List Token
  | [] => []
  | [item] => [.string item]
  | item :: items => .string item :: .comma :: itemTokens items

theorem Lexer.run_items (tokens : List Token) (items : List String) :
    Lexer.run ⟨tokens, .idle⟩ (", ".intercalate (items.map tomlString)).toList =
      some ⟨tokens ++ itemTokens items, .idle⟩ := by
  have hcomma : ∀ tokens, Lexer.run ⟨tokens, .idle⟩ ", ".toList = some ⟨tokens ++ [.comma], .idle⟩ := fun _ => rfl
  fun_induction itemTokens items generalizing tokens with
  | case1 =>
    rw [List.append_nil]
    rfl
  | case2 item =>
    rw [List.map_singleton, String.intercalate_singleton]
    exact run_tomlString item
  | case3 item items hne ih =>
    cases items with
    | nil => exact absurd rfl hne
    | cons next items =>
      have hrest := ih (tokens ++ [.string item] ++ [.comma])
      rw [List.map_cons] at hrest
      rw [List.map_cons, List.map_cons, String.intercalate_cons_cons, String.toList_append, String.toList_append,
        run_append, run_append, run_tomlString, Option.bind_some, hcomma, Option.bind_some, hrest, List.append_assoc,
        List.append_assoc]
      rfl

theorem readItems_itemTokens (items : List String) :
    readItems (itemTokens items ++ [.closeBracket]) = some (items.map .str) := by
  fun_induction itemTokens items with
  | case1 => rfl
  | case2 item => rfl
  | case3 item items hne ih =>
    have hcons : itemTokens items ++ [.closeBracket] ≠ [.closeBracket] := by
      cases items with
      | nil => exact absurd rfl hne
      | cons next items => cases items <;> exact nofun
    change readItems (.string item :: .comma :: (itemTokens items ++ [.closeBracket])) = _
    rw [readItems, ih]
    rfl

/-! ## Lines of each kind -/

def pathTokens : List String → List Token
  | [] => [.closeBracket]
  | [key] => [keyToken key, .closeBracket]
  | key :: path => keyToken key :: .dot :: pathTokens path

theorem Lexer.run_path (tokens : List Token) {path : List String} (hne : path ≠ []) (h : ∀ key ∈ path, key ≠ "") :
    Lexer.run ⟨tokens, .idle⟩ ((".".intercalate (path.map tomlKeySegment)).toList ++ [']']) =
      some ⟨tokens ++ pathTokens path, .idle⟩ := by
  fun_induction pathTokens path generalizing tokens with
  | case1 => exact absurd rfl hne
  | case2 key =>
    obtain ⟨s, hs, hbehind⟩ := run_tomlKeySegment (h key List.mem_cons_self) tokens
    rw [List.map_singleton, String.intercalate_singleton, run_append, hs, Option.bind_some, run_cons,
      step_of_behind hbehind (show punctuation ']' = some .closeBracket from rfl), List.append_assoc]
    rfl
  | case3 key path hpath ih =>
    cases path with
    | nil => exact absurd rfl hpath
    | cons next path =>
      obtain ⟨s, hs, hbehind⟩ := run_tomlKeySegment (h key List.mem_cons_self) tokens
      have hrest := ih (tokens ++ [keyToken key] ++ [.dot]) (List.cons_ne_nil _ _)
        fun k hk => h k (List.mem_cons_of_mem _ hk)
      rw [List.map_cons] at hrest
      rw [List.map_cons, List.map_cons, String.intercalate_cons_cons, String.toList_append, String.toList_append,
        List.append_assoc, List.append_assoc, run_append, hs, Option.bind_some]
      change Lexer.run s ('.' :: _) = _
      rw [run_cons, step_of_behind hbehind (show punctuation '.' = some .dot from rfl), Option.bind_some]
      refine hrest.trans ?_
      rw [List.append_assoc, List.append_assoc]
      rfl

theorem readPath_pathTokens {path : List String} (hne : path ≠ []) : readPath (pathTokens path) = some path := by
  fun_induction pathTokens path with
  | case1 => exact absurd rfl hne
  | case2 key =>
    rw [readPath, keyOf_keyToken]
    rfl
  | case3 key path hpath ih =>
    have hrest := ih (fun hnil => hpath hnil)
    rw [readPath, keyOf_keyToken, hrest]
    rfl

theorem withoutCr_concat (line : List Char) {c : Char} (h : c ≠ '\r') : withoutCr (line ++ [c]) = line ++ [c] := by
  rw [withoutCr, List.getLast?_concat, if_neg (fun hc => h (Option.some.inj hc))]

theorem readLine_header {path : List String} (hne : path ≠ []) (h : ∀ key ∈ path, key ≠ "") :
    readLine ("[" ++ ".".intercalate (path.map tomlKeySegment) ++ "]").toList = some (.header path) := by
  have hopen : Lexer.start.run ['['] = some ⟨[.openBracket], .idle⟩ := rfl
  have hchars : ("[" ++ ".".intercalate (path.map tomlKeySegment) ++ "]").toList =
      ['['] ++ ((".".intercalate (path.map tomlKeySegment)).toList ++ [']']) := by
    simp only [String.toList_append, List.append_assoc]
    rfl
  have hrun : Lexer.start.run (['['] ++ ((".".intercalate (path.map tomlKeySegment)).toList ++ [']'])) =
      some ⟨.openBracket :: pathTokens path, .idle⟩ := by
    rw [Lexer.run_append, hopen, Option.bind_some, Lexer.run_path _ hne h]
    rfl
  have hread : readStatement (.openBracket :: pathTokens path) = some (.header path) := by
    rw [readStatement, readPath_pathTokens hne]
    rfl
  rw [hchars, readLine, ← List.append_assoc, withoutCr_concat _ (by decide), List.append_assoc, hrun]
  exact hread

theorem Lexer.run_entryHead {key : String} (hbare : isBareKey key = true) (hne : key ≠ "") :
    Lexer.start.run (key.toList ++ [' ', '=', ' ']) = some ⟨[.bare key, .equals], .idle⟩ := by
  obtain ⟨s, hs, hbehind⟩ := run_tomlKeySegment hne []
  rw [tomlKeySegment, if_pos hbare] at hs
  rw [keyToken, if_pos hbare] at hbehind
  have hspace : s.step ' ' = some ⟨[.bare key], .idle⟩ := by
    rcases hbehind with rfl | ⟨front, word, rfl, hword⟩
    · rfl
    · rw [List.nil_append] at hword
      rw [hword]
      rfl
  rw [Lexer.start, run_append, hs, Option.bind_some, run_cons, hspace]
  rfl

theorem readLine_entry {key : String} (hbare : isBareKey key = true) (hne : key ≠ "") (value : String) :
    readLine (key ++ " = " ++ tomlString value).toList = some (.entry key (.scalar (.str value))) := by
  have hchars : (key ++ " = " ++ tomlString value).toList =
      key.toList ++ [' ', '=', ' '] ++ (tomlString value).toList := by
    simp only [String.toList_append]
    rfl
  have hquote : ∃ front, (tomlString value).toList = front ++ ['"'] := by
    refine ⟨"\"".toList ++ value.toList.flatMap escapeChar, ?_⟩
    simp only [tomlString, String.toList_append, String.toList_ofList]
    rfl
  have hcr : withoutCr (key.toList ++ [' ', '=', ' '] ++ (tomlString value).toList) =
      key.toList ++ [' ', '=', ' '] ++ (tomlString value).toList := by
    obtain ⟨front, hfront⟩ := hquote
    rw [hfront, ← List.append_assoc]
    exact withoutCr_concat _ (by decide)
  rw [hchars, readLine, hcr, Lexer.run_append, Lexer.run_entryHead hbare hne, Option.bind_some, Lexer.run_tomlString]
  rfl

theorem readLine_strings {key : String} (hbare : isBareKey key = true) (hne : key ≠ "") (items : List String) :
    readLine (key ++ " = [" ++ ", ".intercalate (items.map tomlString) ++ "]").toList =
      some (.entry key (.array (items.map .str))) := by
  have hchars : (key ++ " = [" ++ ", ".intercalate (items.map tomlString) ++ "]").toList =
      key.toList ++ [' ', '=', ' '] ++ (['['] ++ (", ".intercalate (items.map tomlString)).toList) ++ [']'] := by
    simp only [String.toList_append, List.append_assoc]
    rfl
  have hopen : Lexer.run ⟨[.bare key, .equals], .idle⟩ ['['] = some ⟨[.bare key, .equals, .openBracket], .idle⟩ := rfl
  have hclose : ∀ tokens, Lexer.run ⟨tokens, .idle⟩ [']'] = some ⟨tokens ++ [.closeBracket], .idle⟩ := fun _ => rfl
  have hread : readStatement (.bare key :: .equals :: .openBracket :: (itemTokens items ++ [.closeBracket])) =
      some (.entry key (.array (items.map .str))) := by
    rw [readStatement, readItems_itemTokens]
    · rfl
    · exact nofun
  have hrun : Lexer.start.run (key.toList ++ [' ', '=', ' '] ++
      (['['] ++ (", ".intercalate (items.map tomlString)).toList) ++ [']']) =
      some ⟨[.bare key, .equals, .openBracket] ++ itemTokens items ++ [.closeBracket], .idle⟩ := by
    rw [Lexer.run_append, Lexer.run_append _ (key.toList ++ _), Lexer.run_entryHead hbare hne, Option.bind_some,
      Lexer.run_append, hopen, Option.bind_some, Lexer.run_items, Option.bind_some, hclose]
  rw [hchars, readLine, withoutCr_concat _ (by decide), hrun]
  exact hread

example : readLine "[ a . \"b\\u0041\" ] # c".toList = some (.header ["a", "bA"]) := by decide

example : readLine "k = [\"x\", true,]".toList = some (.entry "k" (.array [.str "x", .bool true])) := by decide

/-! ## Splitting lines -/

theorem linesOf_append {line : List Char} (h : '\n' ∉ line) (rest : List Char) :
    linesOf (line ++ '\n' :: rest) = line :: linesOf rest := by
  induction line with
  | nil => rfl
  | cons c cs ih =>
    have hc : c ≠ '\n' := by
      rintro rfl
      exact h List.mem_cons_self
    rw [List.cons_append, linesOf, if_neg hc, ih fun hmem => h (List.mem_cons_of_mem _ hmem)]

theorem linesOf_flatMap {lines : List (List Char)} (h : ∀ line ∈ lines, '\n' ∉ line) :
    linesOf (lines.flatMap (· ++ ['\n'])) = lines ++ [[]] := by
  induction lines with
  | nil => rfl
  | cons line lines ih =>
    rw [List.flatMap_cons, List.append_assoc]
    change linesOf (line ++ '\n' :: lines.flatMap (· ++ ['\n'])) = _
    rw [linesOf_append (h line List.mem_cons_self), ih fun l hl => h l (List.mem_cons_of_mem _ hl)]
    rfl

theorem newline_not_mem_hexDigits (n m : ℕ) : '\n' ∉ hexDigits n m := by
  induction n generalizing m with
  | zero => exact List.not_mem_nil
  | succ n ih =>
    rw [hexDigits, List.mem_append, List.mem_singleton, not_or]
    refine ⟨ih _, fun heq => ?_⟩
    have hall : ∀ d : Fin 16, '\n' ≠ Nat.digitChar d := by decide
    exact hall ⟨m % 16, Nat.mod_lt _ (by omega)⟩ heq

theorem newline_not_mem_tomlString (value : String) : '\n' ∉ (tomlString value).toList := by
  have hescape : ∀ c, '\n' ∉ escapeChar c := by
    intro c
    unfold escapeChar
    split_ifs with _ _ hnewline
    iterate 5 decide
    · rw [List.mem_cons, List.mem_cons, not_or, not_or]
      exact ⟨by decide, by decide, newline_not_mem_hexDigits _ _⟩
    · exact fun h => hnewline (List.mem_singleton.mp h).symm
  simp only [tomlString, String.toList_append, String.toList_ofList, List.mem_append, List.mem_flatMap, not_or,
    not_exists, not_and]
  exact ⟨⟨by decide, fun c _ => hescape c⟩, by decide⟩

theorem newline_not_mem_of_bare {key : String} (h : isBareKey key = true) : '\n' ∉ key.toList := by
  intro hmem
  exact absurd (List.all_eq_true.mp h _ hmem) (by decide)

theorem newline_not_mem_tomlKeySegment (key : String) : '\n' ∉ (tomlKeySegment key).toList := by
  rw [tomlKeySegment]
  split
  · next hbare => exact newline_not_mem_of_bare hbare
  · exact newline_not_mem_tomlString key

theorem newline_not_mem_intercalate {write : String → String} (hwrite : ∀ value, '\n' ∉ (write value).toList)
    (separator : String) (hsep : '\n' ∉ separator.toList) (values : List String) :
    '\n' ∉ (separator.intercalate (values.map write)).toList := by
  induction values with
  | nil => exact List.not_mem_nil
  | cons value values ih =>
    cases values with
    | nil =>
      rw [List.map_singleton, String.intercalate_singleton]
      exact hwrite value
    | cons next values =>
      rw [List.map_cons] at ih
      rw [List.map_cons, List.map_cons, String.intercalate_cons_cons, String.toList_append, String.toList_append,
        List.mem_append, List.mem_append, not_or, not_or]
      exact ⟨⟨hwrite value, hsep⟩, ih⟩

/-! ## Written lines -/

structure WrittenLine where
  text : String
  statement : Statement
  reads : readLine text.toList = some statement
  oneLine : '\n' ∉ text.toList

namespace WrittenLine

def blank : WrittenLine := ⟨"", .blank, rfl, List.not_mem_nil⟩

def header (path : List String) (hne : path ≠ []) (h : ∀ key ∈ path, key ≠ "") : WrittenLine where
  text := "[" ++ ".".intercalate (path.map tomlKeySegment) ++ "]"
  statement := .header path
  reads := readLine_header hne h
  oneLine := by
    have hpath := newline_not_mem_intercalate newline_not_mem_tomlKeySegment "." (by decide) path
    simp only [String.toList_append, List.mem_append, not_or]
    exact ⟨⟨by decide, hpath⟩, by decide⟩

def entry (key : String) (hbare : isBareKey key = true) (hne : key ≠ "") (value : String) : WrittenLine where
  text := key ++ " = " ++ tomlString value
  statement := .entry key (.scalar (.str value))
  reads := readLine_entry hbare hne value
  oneLine := by
    simp only [String.toList_append, List.mem_append, not_or]
    exact ⟨⟨newline_not_mem_of_bare hbare, by decide⟩, newline_not_mem_tomlString value⟩

def strings (key : String) (hbare : isBareKey key = true) (hne : key ≠ "") (items : List String) : WrittenLine where
  text := key ++ " = [" ++ ", ".intercalate (items.map tomlString) ++ "]"
  statement := .entry key (.array (items.map .str))
  reads := readLine_strings hbare hne items
  oneLine := by
    have hitems := newline_not_mem_intercalate newline_not_mem_tomlString ", " (by decide) items
    simp only [String.toList_append, List.mem_append, not_or]
    exact ⟨⟨⟨newline_not_mem_of_bare hbare, by decide⟩, hitems⟩, by decide⟩

end WrittenLine

theorem mapM_readLine_written (lines : List WrittenLine) :
    (linesOf (lines.flatMap fun line => line.text.toList ++ ['\n'])).mapM readLine =
      some (lines.map WrittenLine.statement ++ [.blank]) := by
  have hread : (lines.map fun line => line.text.toList).mapM readLine = some (lines.map WrittenLine.statement) := by
    induction lines with
    | nil => rfl
    | cons line lines ih =>
      rw [List.map_cons, List.mapM_cons, line.reads, ih]
      rfl
  have hlines : linesOf (lines.flatMap fun line => line.text.toList ++ ['\n']) =
      lines.map (fun line => line.text.toList) ++ [[]] := by
    rw [← linesOf_flatMap, List.flatMap_map]
    intro line hmem
    obtain ⟨written, -, rfl⟩ := List.mem_map.mp hmem
    exact written.oneLine
  rw [hlines, List.mapM_append, hread]
  rfl

/-! ## Tables -/

theorem atPath_append (change : Fields → Option Fields) (p q : List String) (fields : Fields) :
    atPath change (p ++ q) fields = atPath (atPath change q) p fields := by
  induction p generalizing fields with
  | nil => rfl
  | cons key p ih =>
    rw [List.cons_append, atPath, atPath]
    simp only [ih]

def Within (path : List String) (hole : Fields → Fields) : Prop :=
  ∀ change fields, atPath change path (hole fields) = (change fields).map hole

theorem Within.append {p q : List String} {outer inner : Fields → Fields} (hp : Within p outer) (hq : Within q inner) :
    Within (p ++ q) (outer ∘ inner) := by
  intro change fields
  rw [atPath_append, Function.comp_apply, hp, hq, Option.map_map]

theorem lookup_concat_table {key : String} {fields : Fields} (h : fields.lookup key = none) (sub : Fields) :
    (fields ++ [(key, Node.table sub)]).lookup key = some (.table sub) := by
  rw [List.lookup_append, h, List.lookup_cons_self]
  rfl

theorem within_last {key : String} {fields : Fields} (h : fields.lookup key = none) :
    Within [key] fun sub => fields ++ [(key, .table sub)] := by
  have hset : ∀ sub sub', setTable key sub' (fields ++ [(key, .table sub)]) = fields ++ [(key, .table sub')] := by
    intro sub sub'
    have hkeep : setTable key sub' fields = fields := by
      rw [setTable]
      refine (List.map_congr_left fun field hmem => if_neg ?_).trans (List.map_id fields)
      have hall := List.lookup_eq_none_iff.mp h field hmem
      rintro rfl
      exact absurd hall (by simp)
    rw [setTable, List.map_append]
    change setTable key sub' fields ++ _ = _
    rw [hkeep, List.map_singleton, if_pos rfl]
  intro change sub
  rw [atPath, lookup_concat_table h]
  exact congrArg (fun put => (change sub).map put) (funext fun sub' => hset sub sub')

theorem atPath_some_new {key : String} {fields : Fields} (h : fields.lookup key = none) :
    atPath some [key] fields = some (fields ++ [(key, .table [])]) := by
  rw [atPath, h]
  rfl

def valueFields (entries : List (String × Value)) : Fields := entries.map fun entry => (entry.1, .value entry.2)

theorem lookup_valueFields {entries : List (String × Value)} {key : String} (h : key ∉ entries.map Prod.fst) :
    (valueFields entries).lookup key = none := by
  rw [List.lookup_eq_none_iff]
  intro field hmem
  obtain ⟨entry, hentry, rfl⟩ := List.mem_map.mp hmem
  have hne : key ≠ entry.1 := by
    rintro rfl
    exact h (List.mem_map_of_mem hentry)
  exact bne_iff_ne.mpr hne

namespace Document

theorem foldlM_entries {path : List String} {hole : Fields → Fields} (hwithin : Within path hole)
    (defined : List (List String)) {before entries : List (String × Value)}
    (hkeys : ((before ++ entries).map Prod.fst).Nodup) :
    (entries.map fun entry => Statement.entry entry.1 entry.2).foldlM take ⟨hole (valueFields before), defined, path⟩ =
      some ⟨hole (valueFields (before ++ entries)), defined, path⟩ := by
  induction entries generalizing before with
  | nil =>
    rw [List.append_nil]
    rfl
  | cons entry entries ih =>
    have hmoved : before ++ entry :: entries = before ++ [entry] ++ entries := by
      rw [List.append_assoc]
      rfl
    have hnew : entry.1 ∉ before.map Prod.fst := by
      rw [List.map_append] at hkeys
      intro hmem
      exact (List.nodup_append.mp hkeys).2.2 _ hmem _ List.mem_cons_self rfl
    have hadd : addEntry entry.1 entry.2 (valueFields before) = some (valueFields (before ++ [entry])) := by
      rw [addEntry, lookup_valueFields hnew, valueFields, valueFields, List.map_append]
      rfl
    have htake : take ⟨hole (valueFields before), defined, path⟩ (.entry entry.1 entry.2) =
        some ⟨hole (valueFields (before ++ [entry])), defined, path⟩ := by
      rw [take, hwithin, hadd]
      rfl
    rw [hmoved] at hkeys ⊢
    rw [List.map_cons, List.foldlM_cons, htake]
    exact ih hkeys

theorem foldlM_section {d : Document} {path : List String} {hole : Fields → Fields} (hwithin : Within path hole)
    (hopen : atPath some path d.root = some (hole [])) (hnew : path ∉ d.defined) {entries : List (String × Value)}
    (hkeys : (entries.map Prod.fst).Nodup) :
    (.header path :: entries.map fun entry => Statement.entry entry.1 entry.2).foldlM take d =
      some ⟨hole (valueFields entries), d.defined ++ [path], path⟩ := by
  have htake : d.take (.header path) = some ⟨hole (valueFields []), d.defined ++ [path], path⟩ := by
    rw [take, if_neg hnew, hopen]
    rfl
  rw [List.foldlM_cons, htake]
  exact foldlM_entries hwithin _ hkeys

end Document

end Gooselake.Data.Toml

import Gooselake.Tools.ProcessLogs

/-!
When a log read is faithful. The content is made of pieces, each of them a line of the file or the mark of a gap,
less what the byte limit cuts off in front; `shown` are the pieces of which something is left.
-/

namespace Gooselake.Tools

open Gooselake.Core Data Library

set_option autoImplicit false

/-! ## Pieces -/

inductive Piece where
  | line (i : ℕ)
  | gap
  deriving DecidableEq, Repr

def Piece.text (ls : List (List Char)) : Piece → List Char
  | .line i => ls.getD i [] ++ ['\n']
  | .gap => "...\n".toList

/-- The lines `a` to `b`. -/
def linePieces (a b : ℕ) : List Piece := (List.range' a (b - a)).map Piece.line

/-- The pieces of the window on `n` lines. -/
def pieces (n head tail : ℕ) : List Piece :=
  linePieces 0 (min head n) ++ (if 0 < head ∧ head < n - tail then [.gap] else []) ++ linePieces (n - tail) n

def piecesText (ls : List (List Char)) (ps : List Piece) : List Char := ps.flatMap (Piece.text ls)

/-- The pieces that are not taken away whole with the first `k` bytes. -/
def afterCut (ls : List (List Char)) : ℕ → List Piece → List Piece
  | _, [] => []
  | k, p :: ps => if utf8Length (p.text ls) ≤ k then afterCut ls (k - utf8Length (p.text ls)) ps else p :: ps

/-- How many bytes of the text are over the limit. -/
def hidden (maxBytes : Option ℕ) (text : List Char) : ℕ :=
  match maxBytes with
  | none => 0
  | some maxBytes => utf8Length text - maxBytes

/-- The pieces of the window of which the byte limit leaves something. -/
def shown (ls : List (List Char)) (head tail : ℕ) (maxBytes : Option ℕ) : List Piece :=
  afterCut ls (hidden maxBytes (piecesText ls (pieces ls.length head tail))) (pieces ls.length head tail)

/-- The texts of the pieces one after the other, of the first of them what a cut within it leaves. -/
def MadeOf (ls : List (List Char)) (ps : List Piece) (content : List Char) : Prop :=
  ∃ cut, (∀ p ∈ ps.head?, cut < utf8Length (p.text ls)) ∧ content = cutFront cut (piecesText ls ps)

/-- Lines in the order of the file, and none twice. -/
def Piece.before : Piece → Piece → Prop
  | .line i, .line j => i < j
  | _, _ => True

/-! ## The property and the condition -/

/-- The lines that the capture holds, also of a file that is no text. -/
def capturedLines (file : ByteArray) : ℕ :=
  match String.fromUTF8? file with
  | some text => (lines text.toList).length
  | none => file.toList.count 10 + if file.toList.getLast? = some 10 then 0 else 1

/-- What a log read promises: the lines shown are in file order and none twice, nothing that is not marked is
missing from the content, and the content keeps to the limit. -/
structure Faithful (file : ByteArray) (streamTruncated : Bool) (head tail : ℕ) (maxBytes : Option ℕ)
    (chunk : ProcessLogsChunk) : Prop where
  made : MadeOf (lines (readToString file)) (shown (lines (readToString file)) head tail maxBytes) chunk.content.toList
  ordered : (shown (lines (readToString file)) head tail maxBytes).Pairwise Piece.before
  complete : chunk.truncated = false →
    ∀ i < capturedLines file, .line i ∈ shown (lines (readToString file)) head tail maxBytes ∧
      (Piece.line i).text (lines (readToString file)) <:+: chunk.content.toList
  nonempty : 0 < capturedLines file → 0 < head ∨ 0 < tail → chunk.content ≠ ""
  bounded : ∀ m, maxBytes = some m → utf8Length chunk.content.toList ≤ m

/-- The first `k` bytes of the text end with a character. -/
def isBoundary : ℕ → List Char → Bool
  | 0, _ => true
  | _ + 1, [] => false
  | k + 1, c :: rest => decide (c.utf8Size ≤ k + 1) && isBoundary (k + 1 - c.utf8Size) rest

structure LinesReadable (ls : List (List Char)) (streamTruncated : Bool) (head tail : ℕ)
    (maxBytes : Option ℕ) : Prop where
  /-- the first lines and the last have none in common, or the limit leaves nothing of the first -/
  apart : ls.length - tail < min head ls.length →
    ∃ m, maxBytes = some m ∧ m ≤ utf8Length (pushed (ls.drop (ls.length - tail)))
  /-- lines before the last ones are left out only when first lines are asked for, or something else is cut -/
  told : streamTruncated = true ∨ 0 < head ∨ ls.length ≤ tail ∨ exceeds maxBytes (windowText ls head tail) = true
  room : maxBytes = some 0 → ls = [] ∨ (head = 0 ∧ tail = 0)
  /-- the cut is between two characters -/
  whole : ∀ m, maxBytes = some m → m < utf8Length (windowText ls head tail) →
    isBoundary (utf8Length (windowText ls head tail) - m) (windowText ls head tail) = true

/-- What the limits of the request leave out can be told, and they cut between characters. -/
def Readable (file : ByteArray) (streamTruncated : Bool) (head tail : ℕ) (maxBytes : Option ℕ) : Prop :=
  match String.fromUTF8? file with
  | some text => LinesReadable (lines text.toList) streamTruncated head tail maxBytes
  | none => streamTruncated = true ∧ head = 0 ∧ tail = 0

/-! ## Lengths and cuts -/

@[simp] theorem utf8Length_nil : utf8Length [] = 0 := rfl

@[simp] theorem utf8Length_cons (c : Char) (text : List Char) :
    utf8Length (c :: text) = c.utf8Size + utf8Length text := rfl

@[simp] theorem utf8Length_append (a b : List Char) : utf8Length (a ++ b) = utf8Length a + utf8Length b := by
  simp [utf8Length]

theorem utf8Length_replicate (n : ℕ) : utf8Length (List.replicate n '\uFFFD') = 3 * n := by
  induction n with
  | zero => rfl
  | succ n ih =>
    rw [List.replicate_succ, utf8Length_cons, ih]
    have hsize : Char.utf8Size '\uFFFD' = 3 := by decide
    omega

theorem utf8Length_pos {text : List Char} (h : text ≠ []) : 0 < utf8Length text := by
  cases text with
  | nil => exact absurd rfl h
  | cons c rest =>
    have hc := c.utf8Size_pos
    rw [utf8Length_cons]
    omega

@[simp] theorem cutFront_zero (text : List Char) : cutFront 0 text = text := by cases text <;> rfl

@[simp] theorem cutFront_nil (k : ℕ) : cutFront k [] = [] := by cases k <;> rfl

theorem cutFront_cons {k : ℕ} (c : Char) (rest : List Char) (hk : 0 < k) : cutFront k (c :: rest) =
    if c.utf8Size ≤ k then cutFront (k - c.utf8Size) rest else List.replicate (c.utf8Size - k) '\uFFFD' ++ rest := by
  cases k with
  | zero => omega
  | succ k => rfl

theorem cutFront_append (k : ℕ) (a b : List Char) : cutFront k (a ++ b) =
    if utf8Length a ≤ k then cutFront (k - utf8Length a) b else cutFront k a ++ b := by
  induction a generalizing k with
  | nil => simp
  | cons c a ih =>
    have hc := c.utf8Size_pos
    cases k with
    | zero => rw [if_neg (by rw [utf8Length_cons]; omega), cutFront_zero, cutFront_zero]
    | succ k =>
      rw [List.cons_append, cutFront_cons c (a ++ b) (by omega), cutFront_cons c a (by omega), utf8Length_cons]
      by_cases hsize : c.utf8Size ≤ k + 1
      · rw [if_pos hsize, if_pos hsize, ih]
        by_cases hle : utf8Length a ≤ k + 1 - c.utf8Size
        · rw [if_pos hle, if_pos (by omega), Nat.sub_sub]
        · rw [if_neg hle, if_neg (by omega)]
      · rw [if_neg hsize, if_neg hsize, if_neg (by omega), List.append_assoc]

theorem cutFront_ne_nil {k : ℕ} {text : List Char} (h : k < utf8Length text) : cutFront k text ≠ [] := by
  induction text generalizing k with
  | nil => exact absurd h (by simp)
  | cons c rest ih =>
    cases k with
    | zero => simp
    | succ k =>
      rw [cutFront_cons c rest (by omega)]
      rw [utf8Length_cons] at h
      split
      · exact ih (by omega)
      · simp only [ne_eq, List.append_eq_nil_iff, List.replicate_eq_nil_iff, not_and_or]
        exact .inl (by omega)

theorem cutFront_length (text : List Char) : cutFront (utf8Length text) text = [] := by
  have h := cutFront_append (utf8Length text) text []
  rwa [if_pos (Nat.le_refl _), Nat.sub_self, List.append_nil, cutFront_zero] at h

theorem utf8Length_cutFront {k : ℕ} {text : List Char} (h : k ≤ utf8Length text) :
    utf8Length (cutFront k text) ≤ utf8Length text - k ↔ isBoundary k text = true := by
  induction text generalizing k with
  | nil =>
    have hk : k = 0 := by simpa using h
    subst hk
    simp [isBoundary]
  | cons c rest ih =>
    cases k with
    | zero => simp [isBoundary]
    | succ k =>
      rw [utf8Length_cons] at h ⊢
      rw [cutFront_cons c rest (by omega), isBoundary]
      by_cases hsize : c.utf8Size ≤ k + 1
      · have hrest := ih (k := k + 1 - c.utf8Size) (by omega)
        rw [if_pos hsize, decide_eq_true hsize, Bool.true_and, ← hrest]
        omega
      · rw [if_neg hsize, decide_eq_false hsize, utf8Length_append, utf8Length_replicate]
        simp only [Bool.false_and, Bool.false_eq_true, iff_false, not_le]
        omega

/-! ## The window as pieces -/

section

variable {ls : List (List Char)}

@[simp] theorem piecesText_append (ps qs : List Piece) :
    piecesText ls (ps ++ qs) = piecesText ls ps ++ piecesText ls qs := by
  simp [piecesText]

theorem piece_ne_nil (p : Piece) : p.text ls ≠ [] := by
  cases p with
  | line i => simp [Piece.text]
  | gap => exact (by decide : "...\n".toList ≠ [])

theorem utf8Length_piece (ls : List (List Char)) (p : Piece) : 0 < utf8Length (p.text ls) :=
  utf8Length_pos (piece_ne_nil p)

theorem piecesText_ne_nil {ps : List Piece} (h : ps ≠ []) : piecesText ls ps ≠ [] := by
  obtain ⟨p, rest, rfl⟩ := List.exists_cons_of_ne_nil h
  simp [piecesText, piece_ne_nil]

theorem piecesText_lines (a b : ℕ) (hb : b ≤ ls.length) :
    piecesText ls (linePieces a b) = pushed ((ls.take b).drop a) := by
  have hlines : (ls.take b).drop a = (List.range' a (b - a)).map fun i => ls.getD i [] := by
    refine List.ext_getElem (by simp; omega) fun i h₁ h₂ => ?_
    simp only [List.length_drop, List.length_take] at h₁
    simp only [List.getElem_drop, List.getElem_take, List.getElem_map, List.getElem_range', Nat.one_mul]
    rw [List.getD_eq_getElem?_getD, List.getElem?_eq_getElem (by omega), Option.getD_some]
  rw [hlines, piecesText, linePieces, pushed, List.flatMap_map, List.flatMap_map]
  rfl

theorem windowText_eq (ls : List (List Char)) (head tail : ℕ) :
    windowText ls head tail = piecesText ls (pieces ls.length head tail) := by
  rw [pieces, piecesText_append, piecesText_append, piecesText_lines _ _ (Nat.min_le_right _ _),
    piecesText_lines _ _ (Nat.le_refl _), List.take_length, List.drop_zero, windowText]
  congr 2
  · by_cases hhead : 0 < head
    · rw [if_pos hhead]
      congr 1
      exact (List.take_eq_take_min).symm ▸ rfl
    · rw [if_neg hhead]
      have hzero : head = 0 := by omega
      simp [hzero, pushed]
  · split <;> rfl

theorem mem_linePieces {a b i : ℕ} : Piece.line i ∈ linePieces a b ↔ a ≤ i ∧ i < b := by
  simp only [linePieces, List.mem_map, List.mem_range'_1, Piece.line.injEq, exists_eq_right]
  omega

theorem pairwise_linePieces (a b : ℕ) : (linePieces a b).Pairwise Piece.before := by
  rw [linePieces, List.pairwise_map]
  exact List.pairwise_lt_range'

theorem pairwise_pieces {n head tail : ℕ} (h : min head n ≤ n - tail) : (pieces n head tail).Pairwise Piece.before := by
  rw [pieces, List.pairwise_append, List.pairwise_append]
  refine ⟨⟨pairwise_linePieces _ _, ?_, fun p _ q hq => ?_⟩, pairwise_linePieces _ _, fun p hp q hq => ?_⟩
  · split
    · exact List.pairwise_singleton _ _
    · exact List.Pairwise.nil
  · split at hq
    · obtain rfl := List.mem_singleton.mp hq
      cases p <;> trivial
    · cases hq
  · cases q with
    | gap => cases p <;> trivial
    | line j =>
      obtain ⟨hj, -⟩ := mem_linePieces.mp hq
      cases p with
      | gap => trivial
      | line i =>
        obtain hp | hp := List.mem_append.mp hp
        · obtain ⟨-, hi⟩ := mem_linePieces.mp hp
          exact Nat.lt_of_lt_of_le hi (h.trans hj)
        · split at hp
          · exact absurd (List.mem_singleton.mp hp) (by simp)
          · cases hp

/-! ## What a cut leaves of the pieces -/

@[simp] theorem afterCut_zero (ps : List Piece) : afterCut ls 0 ps = ps := by
  cases ps with
  | nil => rfl
  | cons p ps => rw [afterCut, if_neg (by have := utf8Length_piece ls p; omega)]

theorem afterCut_suffix (k : ℕ) (ps : List Piece) : afterCut ls k ps <:+ ps := by
  induction ps generalizing k with
  | nil => exact List.suffix_refl _
  | cons p ps ih =>
    rw [afterCut]
    split
    · exact (ih _).trans (List.suffix_cons p ps)
    · exact List.suffix_refl _

theorem afterCut_append (k : ℕ) (ps qs : List Piece) : afterCut ls k (ps ++ qs) =
    if utf8Length (piecesText ls ps) ≤ k then afterCut ls (k - utf8Length (piecesText ls ps)) qs
    else afterCut ls k ps ++ qs := by
  induction ps generalizing k with
  | nil => simp [piecesText]
  | cons p ps ih =>
    have hlength : utf8Length (piecesText ls (p :: ps)) = utf8Length (p.text ls) + utf8Length (piecesText ls ps) := by
      simp [piecesText]
    rw [List.cons_append, afterCut, afterCut, hlength]
    by_cases hp : utf8Length (p.text ls) ≤ k
    · rw [if_pos hp, if_pos hp, ih]
      by_cases hps : utf8Length (piecesText ls ps) ≤ k - utf8Length (p.text ls)
      · rw [if_pos hps, if_pos (by omega), Nat.sub_sub]
      · rw [if_neg hps, if_neg (by omega)]
    · rw [if_neg hp, if_neg hp, if_neg (by omega), List.cons_append]

theorem cutFront_pieces (k : ℕ) (ps : List Piece) :
    MadeOf ls (afterCut ls k ps) (cutFront k (piecesText ls ps)) := by
  induction ps generalizing k with
  | nil => exact ⟨0, by simp [afterCut], by simp [piecesText, afterCut]⟩
  | cons p ps ih =>
    rw [afterCut]
    by_cases hp : utf8Length (p.text ls) ≤ k
    · have happend := cutFront_append k (p.text ls) (piecesText ls ps)
      rw [if_pos hp] at happend
      rw [if_pos hp, piecesText, List.flatMap_cons, ← piecesText, happend]
      exact ih _
    · rw [if_neg hp]
      exact ⟨k, by simpa using hp, rfl⟩

theorem infix_piecesText {p : Piece} {ps : List Piece} (h : p ∈ ps) : p.text ls <:+: piecesText ls ps := by
  rw [piecesText, List.flatMap_def]
  exact List.infix_of_mem_flatten (List.mem_map_of_mem h)

theorem pairwise_shown {n head tail k : ℕ} (hn : n = ls.length) (h : n - tail < min head n) :
    (afterCut ls k (pieces n head tail)).Pairwise Piece.before ↔
      utf8Length (piecesText ls (linePieces 0 (min head n))) ≤ k := by
  have hgap : ¬ (0 < head ∧ head < n - tail) := by omega
  rw [pieces, if_neg hgap, List.append_nil, afterCut_append]
  by_cases hk : utf8Length (piecesText ls (linePieces 0 (min head n))) ≤ k
  · rw [if_pos hk]
    exact iff_of_true ((pairwise_linePieces _ _).sublist (afterCut_suffix _ _).sublist) hk
  · rw [if_neg hk]
    refine iff_of_false (fun hpairwise => ?_) hk
    -- the last of the first lines is left
    have hlast : Piece.line (min head n - 1) ∈ afterCut ls k (linePieces 0 (min head n)) := by
      have hsplit : linePieces 0 (min head n) = linePieces 0 (min head n - 1) ++ [.line (min head n - 1)] := by
        rw [linePieces, linePieces, Nat.sub_zero, Nat.sub_zero, ← List.range_eq_range', ← List.range_eq_range']
        have hsucc : min head n = min head n - 1 + 1 := by omega
        conv_lhs => rw [hsucc, List.range_succ, List.map_append]
        rfl
      have hone : piecesText ls [.line (min head n - 1)] = Piece.text ls (.line (min head n - 1)) :=
        by simp [piecesText]
      rw [hsplit, piecesText_append, utf8Length_append, hone] at hk
      rw [hsplit, afterCut_append]
      split
      · rw [afterCut, if_neg (by omega)]
        exact List.mem_cons_self
      · exact List.mem_append_right _ (List.mem_singleton_self _)
    have htwice : Piece.line (min head n - 1) ∈ linePieces (n - tail) n := mem_linePieces.mpr (by omega)
    exact absurd ((List.pairwise_append.mp hpairwise).2.2 _ hlast _ htwice) (Nat.lt_irrefl _)

/-! ## The parts of the property -/

theorem ordered_iff (head tail : ℕ) (maxBytes : Option ℕ) : (shown ls head tail maxBytes).Pairwise Piece.before ↔
    (ls.length - tail < min head ls.length →
      ∃ m, maxBytes = some m ∧ m ≤ utf8Length (pushed (ls.drop (ls.length - tail)))) := by
  by_cases h : ls.length - tail < min head ls.length
  · rw [shown, pairwise_shown rfl h, pieces, if_neg (by omega), List.append_nil]
    have hfirst : 0 < utf8Length (piecesText ls (linePieces 0 (min head ls.length))) := by
      refine utf8Length_pos (piecesText_ne_nil fun hnil => ?_)
      have hmem : Piece.line 0 ∈ linePieces 0 (min head ls.length) := mem_linePieces.mpr (by omega)
      rw [hnil] at hmem
      cases hmem
    have hlast : piecesText ls (linePieces (ls.length - tail) ls.length) = pushed (ls.drop (ls.length - tail)) := by
      rw [piecesText_lines _ _ (Nat.le_refl _), List.take_length]
    cases maxBytes with
    | none =>
      simp only [hidden]
      exact iff_of_false (by omega) fun hnone => by simpa using hnone h
    | some m =>
      simp only [hidden, piecesText_append, utf8Length_append, hlast, Option.some.injEq, exists_eq_left']
      constructor
      · intro hk _
        omega
      · intro hm
        have := hm h
        omega
  · refine iff_of_true ?_ fun h' => absurd h' h
    rw [shown]
    exact (pairwise_pieces (by omega)).sublist (afterCut_suffix _ _).sublist

theorem hidden_of_not_exceeds {maxBytes : Option ℕ} {text : List Char} (h : exceeds maxBytes text = false) :
    hidden maxBytes text = 0 := by
  cases maxBytes with
  | none => rfl
  | some m =>
    simp only [exceeds, Option.any_some, decide_eq_false_iff_not, not_lt] at h
    simp only [hidden]
    omega

theorem complete_iff (streamTruncated : Bool) (head tail : ℕ) (maxBytes : Option ℕ) :
    (((decide (0 < head ∧ head < ls.length - tail) || exceeds maxBytes
      (windowText ls head tail)) || streamTruncated) = false →
      ∀ i < ls.length, .line i ∈ shown ls head tail maxBytes) ↔
    (streamTruncated = true ∨ 0 < head ∨ ls.length ≤ tail ∨ exceeds maxBytes (windowText ls head tail) = true) := by
  cases hexceeds : exceeds maxBytes (windowText ls head tail) with
  | true => simp
  | false =>
    rw [shown, ← windowText_eq, hidden_of_not_exceeds hexceeds, afterCut_zero]
    cases streamTruncated with
    | true => simp
    | false =>
      simp only [Bool.or_false, decide_eq_false_iff_not, Bool.false_eq_true, or_false, false_or]
      constructor
      · intro hall
        by_contra hnot
        obtain ⟨hhead, htail⟩ := not_or.mp hnot
        -- the first line is not asked for
        have hfirst := hall (by omega) 0 (by omega)
        simp only [pieces, List.mem_append, mem_linePieces] at hfirst
        obtain (hfirst | hfirst) | hfirst := hfirst
        · omega
        · rw [if_neg (by omega)] at hfirst
          cases hfirst
        · omega
      · intro hasked hgap i hi
        simp only [pieces, List.mem_append, mem_linePieces]
        by_cases hin : i < head
        · exact .inl (.inl (by omega))
        · exact .inr (by omega)

theorem windowText_ne_nil {head tail : ℕ} (hls : ls ≠ []) (h : 0 < head ∨ 0 < tail) : windowText ls head tail ≠ [] := by
  have hlength := List.length_pos_iff.mpr hls
  rw [windowText_eq]
  refine piecesText_ne_nil fun hnil => ?_
  have hmem : ∃ i, Piece.line i ∈ pieces ls.length head tail := by
    simp only [pieces, List.mem_append, mem_linePieces]
    obtain hhead | htail := h
    · exact ⟨0, .inl (.inl (by omega))⟩
    · exact ⟨ls.length - 1, .inr (by omega)⟩
  obtain ⟨i, hi⟩ := hmem
  rw [hnil] at hi
  cases hi

theorem withinBytes_eq (maxBytes : Option ℕ) (text : List Char) :
    withinBytes maxBytes text = cutFront (hidden maxBytes text) text := by
  cases maxBytes with
  | none => simp [withinBytes, hidden]
  | some m => rfl

theorem nonempty_iff (head tail : ℕ) (maxBytes : Option ℕ) :
    (0 < ls.length → 0 < head ∨ 0 < tail → withinBytes maxBytes (windowText ls head tail) ≠ []) ↔
    (maxBytes = some 0 → ls = [] ∨ (head = 0 ∧ tail = 0)) := by
  constructor
  · rintro h rfl
    by_contra hnot
    obtain ⟨hls, hasked⟩ := not_or.mp hnot
    refine h (List.length_pos_iff.mpr hls) (by omega) ?_
    rw [withinBytes, Nat.sub_zero, cutFront_length]
  · intro h hlength hasked
    have hls := List.length_pos_iff.mp hlength
    have hlong := utf8Length_pos (windowText_ne_nil hls hasked)
    rw [withinBytes_eq]
    refine cutFront_ne_nil ?_
    cases maxBytes with
    | none => exact hlong
    | some m =>
      have hm : m ≠ 0 := by
        rintro rfl
        obtain hnil | hnone := h rfl
        · exact hls hnil
        · omega
      simp only [hidden]
      omega

theorem bounded_iff (text : List Char) (maxBytes : Option ℕ) :
    (∀ m, maxBytes = some m → utf8Length (withinBytes maxBytes text) ≤ m) ↔
    ∀ m, maxBytes = some m → m < utf8Length text → isBoundary (utf8Length text - m) text = true := by
  refine forall₂_congr fun m hm => ?_
  subst hm
  simp only [withinBytes]
  by_cases hlong : m < utf8Length text
  · rw [← utf8Length_cutFront (Nat.sub_le _ _), Nat.sub_sub_self (Nat.le_of_lt hlong)]
    exact ⟨fun h _ => h, fun h => h hlong⟩
  · have hnone : utf8Length text - m = 0 := by omega
    rw [hnone, cutFront_zero]
    exact iff_of_true (by omega) fun h => absurd h hlong

end

/-! ## Log reads -/

theorem ofList_ne_empty {text : List Char} : String.ofList text ≠ "" ↔ text ≠ [] := by
  refine not_congr ⟨fun h => ?_, fun h => by rw [h]⟩
  rw [← String.toList_ofList (l := text), h]
  rfl

theorem capturedLines_of_text {file : ByteArray} {text : String} (h : String.fromUTF8? file = some text) :
    capturedLines file = (lines (readToString file)).length := by
  rw [capturedLines, readToString, h]
  rfl

theorem capturedLines_pos {file : ByteArray} (h : String.fromUTF8? file = none) : 0 < capturedLines file := by
  rw [capturedLines, h]
  dsimp only
  split
  · next hlast =>
    have hmem : (10 : UInt8) ∈ file.toList := List.mem_of_getLast? hlast
    have hcount := List.count_pos_iff.mpr hmem
    omega
  · omega

theorem chunk_made (processId stream : String) (file : ByteArray) (streamTruncated : Bool) (head tail : ℕ)
    (maxBytes : Option ℕ) : MadeOf (lines (readToString file)) (shown (lines (readToString file)) head tail maxBytes)
      (logsChunk processId stream file streamTruncated head tail maxBytes).content.toList := by
  simp only [logsChunk, String.toList_ofList, withinBytes_eq, shown]
  rw [windowText_eq]
  exact cutFront_pieces _ _

theorem chunk_infix {processId stream : String} {file : ByteArray} {streamTruncated : Bool} {head tail : ℕ}
    {maxBytes : Option ℕ}
    (htold : (logsChunk processId stream file streamTruncated head tail maxBytes).truncated = false)
    {p : Piece} (hp : p ∈ shown (lines (readToString file)) head tail maxBytes) :
    p.text (lines (readToString file)) <:+:
      (logsChunk processId stream file streamTruncated head tail maxBytes).content.toList := by
  simp only [logsChunk, Bool.or_eq_false_iff] at htold
  have hhidden := hidden_of_not_exceeds htold.1.2
  rw [shown, ← windowText_eq, hhidden, afterCut_zero] at hp
  simp only [logsChunk, String.toList_ofList, withinBytes_eq]
  rw [hhidden, cutFront_zero, windowText_eq]
  exact infix_piecesText hp

/-- A log read is faithful exactly under the condition. -/
theorem log_read_faithful (processId stream : String) (file : ByteArray) (streamTruncated : Bool) (head tail : ℕ)
    (maxBytes : Option ℕ) :
    Faithful file streamTruncated head tail maxBytes
        (logsChunk processId stream file streamTruncated head tail maxBytes) ↔
      Readable file streamTruncated head tail maxBytes := by
  have hmade := chunk_made processId stream file streamTruncated head tail maxBytes
  unfold Readable
  cases htext : String.fromUTF8? file with
  | some text =>
    have hread : readToString file = text.toList := by
      rw [readToString, htext, Option.getD_some]
    have hlines := capturedLines_of_text htext
    rw [hread] at hlines
    constructor
    · rintro ⟨-, hordered, hcomplete, hnonempty, hbounded⟩
      simp only [hread, hlines, logsChunk, String.toList_ofList,
        ofList_ne_empty] at hordered hcomplete hnonempty hbounded
      exact ⟨(ordered_iff head tail maxBytes).mp hordered,
        (complete_iff streamTruncated head tail maxBytes).mp fun htold i hi => (hcomplete htold i hi).1,
        (nonempty_iff head tail maxBytes).mp hnonempty, (bounded_iff _ maxBytes).mp hbounded⟩
    · rintro ⟨hapart, htold, hroom, hwhole⟩
      refine ⟨hmade, ?_, ?_, ?_, ?_⟩
      · rw [hread]
        exact (ordered_iff head tail maxBytes).mpr hapart
      · intro hall i hi
        have hin : Piece.line i ∈ shown (lines (readToString file)) head tail maxBytes := by
          rw [hread]
          exact (complete_iff streamTruncated head tail maxBytes).mpr htold
            (by simpa only [logsChunk, hread] using hall) i (by rwa [hlines] at hi)
        exact ⟨hin, chunk_infix hall hin⟩
      · simp only [hread, hlines, logsChunk, ofList_ne_empty]
        exact (nonempty_iff head tail maxBytes).mpr hroom
      · simp only [hread, logsChunk, String.toList_ofList]
        exact (bounded_iff _ maxBytes).mpr hwhole
  | none =>
    have hpos := capturedLines_pos htext
    have hread : readToString file = [] := by
      rw [readToString, htext]
      rfl
    have hwindow : windowText (lines []) head tail = [] := by simp [windowText, lines, linesFrom, pushed]
    have hshown : shown (lines []) head tail maxBytes = [] := by
      refine List.eq_nil_of_suffix_nil ((afterCut_suffix _ _).trans ?_)
      simp [pieces, linePieces, lines, linesFrom]
    have hexceeds : exceeds maxBytes [] = false := by cases maxBytes <;> simp [exceeds]
    have hcontent : withinBytes maxBytes [] = [] := by cases maxBytes <;> simp [withinBytes]
    constructor
    · rintro ⟨-, -, hcomplete, hnonempty, -⟩
      simp only [hread, logsChunk, hwindow, hshown, hexceeds, hcontent, ofList_ne_empty] at hcomplete hnonempty
      refine ⟨?_, ?_⟩
      · by_contra htold
        have hmem := (hcomplete (by simpa [lines, linesFrom] using htold) 0 hpos).1
        cases hmem
      · by_contra hnot
        exact hnonempty hpos (by omega) rfl
    · rintro ⟨rfl, rfl, rfl⟩
      refine ⟨hmade, ?_, fun htold => ?_, fun _ hasked => by omega, fun m _ => ?_⟩
      · rw [hread, hshown]
        exact List.Pairwise.nil
      · simp [logsChunk] at htold
      · simp [logsChunk, hread, hwindow, hcontent]

/-- Of the one line `a`, the first line and the last 80 are read. -/
theorem not_log_read_faithful :
    ¬ ∀ (processId stream : String) (file : ByteArray) (streamTruncated : Bool) (head tail : ℕ)
    (maxBytes : Option ℕ), Faithful file streamTruncated head tail maxBytes
      (logsChunk processId stream file streamTruncated head tail maxBytes) := by
  intro hall
  have hordered := (hall "proc_1" "stdout" "a\n".toUTF8 false 1 80 none).ordered
  have hread : lines (readToString "a\n".toUTF8) = [['a']] := by decide +kernel
  rw [hread, ordered_iff] at hordered
  obtain ⟨m, hm, -⟩ := hordered (by decide)
  cases hm

end Gooselake.Tools

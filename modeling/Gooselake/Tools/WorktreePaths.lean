import Mathlib.Data.List.DropRight
import Gooselake.Library.LexicalPath
import Gooselake.Tools.Worktrees

/-!
Where planned worktrees lie. The directory of a worktree is named after its branch and always lies one below the
directory of its repository; that one is named after the path of the repository, and lies in the managed root unless
nothing but one or two dots is left of the path.
-/

namespace Gooselake.Tools

open Gooselake.Core Data Library Library.Exec

set_option autoImplicit false

def placeOf (path : String) : Place := .ofText path.toList

theorem placeOf_pathJoin (path : String) {child : String} (hchild : '/' ∉ child.toList) :
    placeOf (pathJoin path child) = (placeOf path).enter child.toList := by
  have hjoin : (pathJoin path child).toList = Place.joinText path.toList child.toList := by
    unfold pathJoin Place.joinText
    by_cases hempty : path = ""
    · rw [if_pos hempty, hempty]
      rfl
    · have hne : path.toList ≠ [] := fun he => hempty (String.toList_inj.mp he)
      rw [if_neg hempty, if_neg hne]
      split
      · rw [String.toList_append]
      · rw [String.toList_append, String.toList_append, List.append_assoc]
        rfl
  rw [placeOf, hjoin, Place.ofText_joinText _ hchild]
  rfl

/-! ## The name of the repository's directory -/

/-- A character that `derive_unified_workspace_path` keeps, apart from the underscore. -/
def isKept (ch : Char) : Bool := ch.isAlphanum || ch = '-' || ch = '.'

def isSeparator (ch : Char) : Bool := ch = '/' || ch = '\\'

def unifiedPiece (separated : Bool) (ch : Char) : List Char :=
  if isSeparator ch then (if separated then [] else ['_', '_'])
  else [if ch.isAlphanum ∨ ch ∈ ['-', '_', '.'] then ch else '_']

theorem unifiedText_cons (separated : Bool) (ch : Char) (rest : List Char) :
    unifiedText separated (ch :: rest) = unifiedPiece separated ch ++ unifiedText (isSeparator ch) rest := by
  rw [unifiedText, unifiedPiece]
  by_cases h : ch = '/' ∨ ch = '\\'
  · have hs : isSeparator ch = true := by simpa [isSeparator] using h
    rw [if_pos h, hs, if_pos rfl]
  · have hs : isSeparator ch = false := by simpa [isSeparator] using h
    rw [if_neg h, hs, if_neg Bool.false_ne_true]
    rfl

theorem unifiedPiece_kept (separated : Bool) {ch : Char} (h : isKept ch = true) :
    unifiedPiece separated ch = [ch] ∧ isSeparator ch = false ∧ ch ≠ '_' := by
  have hne : ∀ c, isKept c = false → ch ≠ c := fun c hc he => by
    rw [he, hc] at h
    cases h
  have hs : isSeparator ch = false := by
    simp only [isSeparator, Bool.or_eq_false_iff, decide_eq_false_iff_not]
    exact ⟨hne '/' (by decide), hne '\\' (by decide)⟩
  have hsafe : ch.isAlphanum ∨ ch ∈ ['-', '_', '.'] := by
    simp only [isKept, Bool.or_eq_true, decide_eq_true_eq] at h
    simp only [List.mem_cons, List.not_mem_nil, or_false]
    tauto
  refine ⟨?_, hs, hne '_' (by decide)⟩
  rw [unifiedPiece, hs, if_neg Bool.false_ne_true, if_pos hsafe]

theorem unifiedPiece_other (separated : Bool) {ch : Char} (h : isKept ch = false) :
    ∀ c ∈ unifiedPiece separated ch, c = '_' := by
  intro c hc
  unfold unifiedPiece at hc
  split at hc
  · split at hc
    · cases hc
    · simpa using hc
  · rw [List.mem_singleton.mp hc]
    split
    · next hsafe =>
      simp only [isKept, Bool.or_eq_false_iff, decide_eq_false_iff_not] at h
      simp only [List.mem_cons, List.not_mem_nil, or_false] at hsafe
      rcases hsafe with halnum | rfl | he | rfl
      · rw [h.1.1] at halnum
        cases halnum
      · exact absurd rfl h.1.2
      · exact he
      · exact absurd rfl h.2
    · rfl

theorem unifiedPiece_ne_nil (ch : Char) : unifiedPiece false ch ≠ [] := by
  unfold unifiedPiece
  split
  · exact List.cons_ne_nil _ _
  · exact List.cons_ne_nil _ _

theorem dropWhile_underscores {front : List Char} (h : ∀ c ∈ front, c = '_') (l : List Char) :
    (front ++ l).dropWhile (fun c => c = '_') = l.dropWhile fun c => c = '_' := by
  induction front with
  | nil => rfl
  | cons c front ih =>
    rw [List.cons_append, List.dropWhile_cons_of_pos (by simp [h c (List.mem_cons_self ..)])]
    exact ih fun c' hc' => h c' (List.mem_cons_of_mem _ hc')

theorem dropWhile_unifiedText (separated : Bool) (l : List Char) :
    (unifiedText separated l).dropWhile (fun c => c = '_') = unifiedText false (l.dropWhile fun c => !isKept c) := by
  induction l generalizing separated with
  | nil => rfl
  | cons ch rest ih =>
    rw [unifiedText_cons]
    cases h : isKept ch with
    | true =>
      obtain ⟨hpiece, hs, hne⟩ := unifiedPiece_kept separated h
      rw [List.dropWhile_cons_of_neg (by simp [h]), unifiedText_cons, hpiece, (unifiedPiece_kept false h).1,
        List.singleton_append, List.dropWhile_cons_of_neg (by simp [hne])]
    | false =>
      rw [dropWhile_underscores (unifiedPiece_other separated h), ih, List.dropWhile_cons_of_pos (by simp [h])]

theorem unifiedText_append (separated : Bool) (l r : List Char) :
    ∃ separated', unifiedText separated (l ++ r) = unifiedText separated l ++ unifiedText separated' r := by
  induction l generalizing separated with
  | nil => exact ⟨separated, rfl⟩
  | cons ch rest ih =>
    obtain ⟨separated', h⟩ := ih (isSeparator ch)
    refine ⟨separated', ?_⟩
    rw [List.cons_append, unifiedText_cons, h, unifiedText_cons, List.append_assoc]

theorem rdropWhile_unifiedText (l : List Char) :
    (unifiedText false l).rdropWhile (fun c => c = '_') = unifiedText false (l.rdropWhile fun c => !isKept c) := by
  induction l using List.reverseRecOn with
  | nil => rfl
  | append_singleton init ch ih =>
    obtain ⟨separated, happend⟩ := unifiedText_append false init [ch]
    have hlast : unifiedText separated [ch] = unifiedPiece separated ch := by
      rw [unifiedText_cons]
      exact List.append_nil _
    cases h : isKept ch with
    | true =>
      obtain ⟨hpiece, -, hne⟩ := unifiedPiece_kept separated h
      rw [List.rdropWhile_concat_neg _ _ _ (by simp [h]), happend, hlast, hpiece,
        List.rdropWhile_concat_neg _ _ _ (by simp [hne])]
    | false =>
      rw [List.rdropWhile_concat_pos _ _ _ (by simp [h]), ← ih, happend, hlast, List.rdropWhile, List.reverse_append,
        dropWhile_underscores, List.rdropWhile]
      intro c hc
      exact unifiedPiece_other separated h c (List.mem_reverse.mp hc)

theorem unifiedText_eq_dots_iff (l : List Char) (n : ℕ) :
    unifiedText false l = List.replicate n '.' ↔ l = List.replicate n '.' := by
  induction l generalizing n with
  | nil => rw [unifiedText]
  | cons ch rest ih =>
    rw [unifiedText_cons]
    cases h : isKept ch with
    | true =>
      obtain ⟨hpiece, hs, -⟩ := unifiedPiece_kept false h
      rw [hpiece, hs]
      cases n with
      | zero => simp
      | succ n => simp [List.replicate_succ, ih]
    | false =>
      have hpiece := unifiedPiece_other false h
      have hne := unifiedPiece_ne_nil ch
      obtain ⟨c, cs, hcons⟩ := List.exists_cons_of_ne_nil hne
      rw [hcons] at hpiece ⊢
      cases n with
      | zero => simp
      | succ n =>
        refine iff_of_false ?_ ?_
        · intro he
          have hc := hpiece c (List.mem_cons_self ..)
          rw [hc, List.replicate_succ] at he
          exact absurd (List.cons.inj he).1 (by decide)
        · intro he
          rw [List.replicate_succ] at he
          rw [(List.cons.inj he).1] at h
          exact absurd h (by decide)

/-- The path of a repository without what it begins and ends with besides letters, digits, dashes and dots. -/
def keptCore (repoRoot : String) : String := trimBy (fun ch => !isKept ch) repoRoot

theorem deriveUnifiedWorkspacePath_eq (repoRoot : String) : (deriveUnifiedWorkspacePath repoRoot).toList =
    if unifiedText false (keptCore repoRoot).toList = [] then "workspace".toList
      else unifiedText false (keptCore repoRoot).toList := by
  have htrimmed : (trimBy (· = '_') (String.ofList (unifiedText false repoRoot.toList))).toList =
      unifiedText false (keptCore repoRoot).toList := by
    rw [toList_trimBy, String.toList_ofList, dropWhile_unifiedText, rdropWhile_unifiedText, keptCore, toList_trimBy]
  rw [deriveUnifiedWorkspacePath, ← htrimmed]
  by_cases hempty : trimBy (· = '_') (String.ofList (unifiedText false repoRoot.toList)) = ""
  · rw [if_pos hempty, hempty]
    rfl
  · have hne : (trimBy (· = '_') (String.ofList (unifiedText false repoRoot.toList))).toList ≠ [] :=
      fun he => hempty (String.toList_inj.mp he)
    rw [if_neg hempty, if_neg hne]

theorem not_slash_unifiedText (separated : Bool) (l : List Char) : '/' ∉ unifiedText separated l := by
  induction l generalizing separated with
  | nil => exact List.not_mem_nil
  | cons ch rest ih =>
    rw [unifiedText_cons, List.mem_append, not_or]
    refine ⟨fun hmem => ?_, ih _⟩
    cases h : isKept ch with
    | true =>
      rw [(unifiedPiece_kept separated h).1, List.mem_singleton] at hmem
      rw [← hmem] at h
      exact absurd h (by decide)
    | false => exact absurd (unifiedPiece_other separated h '/' hmem) (by decide)

theorem not_slash_derived (repoRoot : String) : '/' ∉ (deriveUnifiedWorkspacePath repoRoot).toList := by
  rw [deriveUnifiedWorkspacePath_eq]
  split
  · decide
  · exact not_slash_unifiedText _ _

theorem isName_derived_iff (repoRoot : String) :
    Place.IsName (deriveUnifiedWorkspacePath repoRoot).toList ↔ keptCore repoRoot ≠ "." ∧ keptCore repoRoot ≠ ".." := by
  have hdots : ∀ n, keptCore repoRoot = String.ofList (List.replicate n '.') ↔
      unifiedText false (keptCore repoRoot).toList = List.replicate n '.' := fun n => by
    rw [unifiedText_eq_dots_iff, ← String.toList_inj, String.toList_ofList]
  have hone := not_congr (hdots 1)
  have htwo := not_congr (hdots 2)
  rw [deriveUnifiedWorkspacePath_eq, show (".." : String) = String.ofList (List.replicate 2 '.') from rfl,
    show ("." : String) = String.ofList (List.replicate 1 '.') from rfl]
  refine Iff.trans ?_ (and_congr hone htwo).symm
  split
  · next hempty =>
    rw [hempty]
    decide
  · next hne => exact ⟨fun h => h.2, fun h => ⟨hne, h⟩⟩

/-! ## The name of the worktree's directory -/

theorem toList_dashed (s : String) :
    (dashed s).toList = s.toList.flatMap fun ch => if ch = '/' then ['-', '-'] else [ch] := by
  rw [dashed, String.toList_ofList]

theorem not_slash_dashed (s : String) : '/' ∉ (dashed s).toList := by
  rw [toList_dashed, List.mem_flatMap]
  rintro ⟨ch, -, hmem⟩
  split at hmem
  · exact absurd hmem (by decide)
  · next hne => exact hne (List.mem_singleton.mp hmem).symm

theorem isName_dashed {s : String} (h : '/' ∈ s.toList) : Place.IsName (dashed s).toList := by
  have hdash : '-' ∈ (dashed s).toList := by
    rw [toList_dashed, List.mem_flatMap]
    exact ⟨'/', h, by decide⟩
  refine ⟨List.ne_nil_of_mem hdash, fun he => ?_, fun he => ?_⟩
  · rw [he] at hdash
    exact absurd hdash (by decide)
  · rw [he] at hdash
    exact absurd hdash (by decide)

/-! ## Planned worktrees -/

/-- The planned directories lie strictly in the managed root, the one of the worktree directly in the other. -/
structure StaysInside (config : WorktreeServiceConfig) (planned : PlannedWorktreePaths) : Prop where
  root : (placeOf config.rootDir).StrictlyInside (placeOf planned.worktreeRoot)
  cwd : (placeOf config.rootDir).StrictlyInside (placeOf planned.worktreeCwd)
  child : (placeOf planned.worktreeRoot).DirectChild (placeOf planned.worktreeCwd)

section

variable (config : WorktreeServiceConfig) (repoRoot worktreeName : String) (branchPrefix : Option String)

theorem placeOf_worktreeRoot : placeOf (planWorktreePaths config repoRoot worktreeName branchPrefix).worktreeRoot =
    (placeOf config.rootDir).enter (deriveUnifiedWorkspacePath repoRoot).toList :=
  placeOf_pathJoin _ (not_slash_derived repoRoot)

theorem worktreeRoot_inside_iff :
    (placeOf config.rootDir).StrictlyInside
        (placeOf (planWorktreePaths config repoRoot worktreeName branchPrefix).worktreeRoot) ↔
      keptCore repoRoot ≠ "." ∧ keptCore repoRoot ≠ ".." := by
  rw [placeOf_worktreeRoot, Place.strictlyInside_enter_iff, isName_derived_iff]

theorem worktreeCwd_directChild :
    (placeOf (planWorktreePaths config repoRoot worktreeName branchPrefix).worktreeRoot).DirectChild
      (placeOf (planWorktreePaths config repoRoot worktreeName branchPrefix).worktreeCwd) := by
  have hslash : '/' ∈ (planWorktreePaths config repoRoot worktreeName branchPrefix).branchName.toList := by
    rw [planWorktreePaths]
    simp only [String.toList_append, List.mem_append]
    exact .inl (.inr (by decide))
  have hjoin := placeOf_pathJoin (planWorktreePaths config repoRoot worktreeName branchPrefix).worktreeRoot
    (not_slash_dashed (planWorktreePaths config repoRoot worktreeName branchPrefix).branchName)
  have hchild := Place.directChild_enter
    (placeOf (planWorktreePaths config repoRoot worktreeName branchPrefix).worktreeRoot) (isName_dashed hslash)
  rw [← hjoin] at hchild
  exact hchild

/-- The planned directories stay inside the managed root exactly when the core of the repository's path is neither one
dot nor two. -/
theorem planned_stays_inside : StaysInside config (planWorktreePaths config repoRoot worktreeName branchPrefix) ↔
    keptCore repoRoot ≠ "." ∧ keptCore repoRoot ≠ ".." := by
  have hchild := worktreeCwd_directChild config repoRoot worktreeName branchPrefix
  have hroot := worktreeRoot_inside_iff config repoRoot worktreeName branchPrefix
  exact ⟨fun h => hroot.mp h.root, fun h => ⟨hroot.mpr h, (hroot.mpr h).trans hchild.strictlyInside, hchild⟩⟩

end

def worktreesConfig : WorktreeServiceConfig := ⟨true, "/data/worktrees", "init.sh", "retain_on_last_claim"⟩

/-- The repository ".." gets its worktrees beside the managed root. -/
theorem not_planned_stays_inside : ¬ ∀ (config : WorktreeServiceConfig) (repoRoot worktreeName : String)
    (branchPrefix : Option String), trim repoRoot ≠ "" → trim worktreeName ≠ "" →
      StaysInside config (planWorktreePaths config (trim repoRoot) worktreeName branchPrefix) := by
  intro hall
  have h := hall worktreesConfig ".." "feature" none (by decide) (by decide)
  have hcore := (worktreeRoot_inside_iff worktreesConfig (trim "..") "feature" none).mp h.root
  exact hcore.2 (by decide)

example : (planWorktreePaths worktreesConfig ".." "feature" none).worktreeCwd = "/data/worktrees/../gg--feature" := by
  decide +kernel

end Gooselake.Tools

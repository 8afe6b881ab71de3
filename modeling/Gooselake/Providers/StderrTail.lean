import Mathlib.Data.String.Basic
import Gooselake.Library.Runs
import Gooselake.Library.Windows
import Gooselake.Providers.Connection

/-!
The tail of an agent's error output. The reader joins the lines and cuts what it has to the last 8 KiB; it stops at the
first cut that would fall within a character.
-/

namespace Gooselake.Providers.Acp.Connection

open Gooselake.Core Library

set_option autoImplicit false

def joined (lines : List String) : String := "\n".intercalate lines

/-- A character starts where the last 8 KiB begin. -/
def CutsBetween (text : String) : Prop :=
  stderrTailMaxBytes < text.utf8ByteSize →
    String.Pos.Raw.IsValid text ⟨text.utf8ByteSize - stderrTailMaxBytes⟩

instance (text : String) : Decidable (CutsBetween text) := inferInstanceAs (Decidable (_ → _))

/-- The reader takes the lines and goes on, and the tail is an end of them that keeps to the limit. -/
def DrainedAfter (lines : List String) : Prop :=
  ∃ s, runAll State.step (lines.map .stderr) .spawned = some s ∧ s.stderrReading = true ∧
    s.stderrTail.utf8ByteSize ≤ stderrTailMaxBytes ∧ s.stderrTail.toList <:+ (joined lines).toList

/-! ## Cuts -/

theorem utf8ByteSize_eq_weigh (text : String) : text.utf8ByteSize = weigh Char.utf8Size text.toList := by
  have hlen : ∀ cs, String.utf8Len cs = weigh Char.utf8Size cs := by
    intro cs
    induction cs with
    | nil => rfl
    | cons c cs ih => rw [String.utf8Len_cons, ih, weigh_cons, Nat.add_comm]
  rw [← hlen, ← String.utf8ByteSize_ofList, String.ofList_toList]

theorem splitOff_eq_some_iff {n : ℕ} {cs rest : List Char} :
    splitOff n cs = some rest ↔ ∃ front, front ++ rest = cs ∧ weigh Char.utf8Size front = n := by
  fun_induction splitOff n cs with
  | case1 cs =>
    constructor
    · rintro ⟨⟩
      exact ⟨[], rfl, rfl⟩
    · rintro ⟨front, rfl, hfront⟩
      rw [eq_nil_of_weigh Char.utf8Size_pos hfront]
      rfl
  | case2 n =>
    refine ⟨nofun, ?_⟩
    rintro ⟨front, hfront, hweigh⟩
    rw [(List.append_eq_nil_iff.mp hfront).1] at hweigh
    cases hweigh
  | case3 n c cs hc ih =>
    rw [ih]
    clear ih
    constructor
    · rintro ⟨front, rfl, hfront⟩
      refine ⟨c :: front, rfl, ?_⟩
      rw [weigh_cons, hfront]
      omega
    · rintro ⟨front, hfront, hweigh⟩
      cases front with
      | nil => cases hweigh
      | cons d front =>
        obtain ⟨rfl, hrest⟩ := List.cons.inj hfront
        rw [weigh_cons] at hweigh
        exact ⟨front, hrest, by omega⟩
  | case4 n c cs hc =>
    refine ⟨nofun, ?_⟩
    rintro ⟨front, hfront, hweigh⟩
    cases front with
    | nil => cases hweigh
    | cons d front =>
      obtain ⟨rfl, -⟩ := List.cons.inj hfront
      rw [weigh_cons] at hweigh
      omega

abbrev TailOf (text tail : List Char) : Prop := Shows Char.utf8Size stderrTailMaxBytes text tail

theorem splitOff_tail_iff {text : String} (h : stderrTailMaxBytes < text.utf8ByteSize) (rest : List Char) :
    splitOff (text.utf8ByteSize - stderrTailMaxBytes) text.toList = some rest ↔ TailOf text.toList rest := by
  rw [splitOff_eq_some_iff]
  rw [utf8ByteSize_eq_weigh] at h ⊢
  constructor
  · rintro ⟨front, hfront, hweigh⟩
    have hsum := congrArg (weigh Char.utf8Size) hfront
    rw [weigh_append] at hsum
    exact ⟨⟨front, hfront⟩, fun hle => absurd hle (by omega), fun _ => by omega⟩
  · intro hshows
    obtain ⟨front, hfront⟩ := hshows.suffix
    have hsum := congrArg (weigh Char.utf8Size) hfront
    rw [weigh_append, hshows.full h] at hsum
    exact ⟨front, hfront, by omega⟩

theorem cutsBetween_iff (text : String) : CutsBetween text ↔ ∃ tail, TailOf text.toList tail := by
  by_cases h : stderrTailMaxBytes < text.utf8ByteSize
  · rw [CutsBetween, String.Pos.Raw.isValid_iff_exists_append]
    have hcut : (∃ tail, TailOf text.toList tail) ↔
        ∃ tail, splitOff (text.utf8ByteSize - stderrTailMaxBytes) text.toList = some tail :=
      exists_congr fun _ => (splitOff_tail_iff h _).symm
    rw [hcut]
    simp only [splitOff_eq_some_iff, h, true_imp_iff]
    constructor
    · rintro ⟨front, rest, htext, hpos⟩
      refine ⟨rest.toList, front.toList, by rw [htext, String.toList_append], ?_⟩
      rw [← utf8ByteSize_eq_weigh]
      exact (congrArg String.Pos.Raw.byteIdx hpos).symm
    · rintro ⟨rest, front, htext, hweigh⟩
      refine ⟨String.ofList front, String.ofList rest, ?_, ?_⟩
      · rw [← String.ofList_append, htext, String.ofList_toList]
      · apply String.Pos.Raw.ext
        change _ = (String.ofList front).utf8ByteSize
        rw [utf8ByteSize_eq_weigh (String.ofList front), String.toList_ofList, hweigh]
  · refine ⟨fun _ => ⟨text.toList, .of_le ?_⟩, fun _ hlt => absurd hlt h⟩
    rw [← utf8ByteSize_eq_weigh]
    omega

/-! ## Lines -/

def heardOf (lines : List String) : String := lines.foldl pushLine ""

theorem joined_eq (lines : List String) :
    ∃ k, (joined lines).toList = List.replicate k '\n' ++ (heardOf lines).toList := by
  induction lines using List.reverseRecOn with
  | nil => exact ⟨0, rfl⟩
  | append_singleton lines line ih =>
    obtain ⟨k, hk⟩ := ih
    rw [heardOf, List.foldl_append, List.foldl_cons, List.foldl_nil, ← heardOf, pushLine]
    by_cases hnil : lines = []
    · subst hnil
      refine ⟨0, ?_⟩
      rw [List.nil_append, joined, String.intercalate_singleton]
      rfl
    · have hjoined : (joined (lines ++ [line])).toList = (joined lines).toList ++ '\n' :: line.toList := by
        rw [joined, String.intercalate_append_of_ne_nil hnil (List.cons_ne_nil _ _), String.intercalate_singleton,
          String.toList_append, String.toList_append, List.append_assoc]
        rfl
      rw [hjoined, hk]
      split
      · next hempty =>
        refine ⟨k + 1, ?_⟩
        rw [hempty, List.replicate_succ', List.append_assoc, List.append_assoc]
        rfl
      · refine ⟨k, ?_⟩
        rw [String.toList_append, String.toList_append, List.append_assoc, List.append_assoc]
        rfl

theorem cutsBetween_joined_iff (lines : List String) : CutsBetween (joined lines) ↔ CutsBetween (heardOf lines) := by
  obtain ⟨k, hk⟩ := joined_eq lines
  rw [cutsBetween_iff, cutsBetween_iff, hk]
  apply exists_shows_append_iff Char.utf8Size_pos
  intro c hc
  rw [List.eq_of_mem_replicate hc]
  rfl

theorem tailOf_pushLine {heard tail : String} (h : TailOf heard.toList tail.toList) (line : String)
    (shown : List Char) : TailOf (pushLine tail line).toList shown ↔ TailOf (pushLine heard line).toList shown := by
  have hempty : tail = "" ↔ heard = "" := by
    have hmin := h.min_le
    have hsuffix := h.suffix
    constructor
    · rintro rfl
      have hzero : min (weigh Char.utf8Size heard.toList) stderrTailMaxBytes ≤ 0 := hmin
      have hheard : weigh Char.utf8Size heard.toList = 0 := by
        rw [stderrTailMaxBytes] at hzero
        omega
      exact String.toList_inj.mp (eq_nil_of_weigh Char.utf8Size_pos hheard)
    · rintro rfl
      exact String.toList_inj.mp (List.suffix_nil.mp hsuffix)
  by_cases hheard : heard = ""
  · rw [hheard, hempty.mpr hheard]
  · rw [pushLine, pushLine, if_neg hheard, if_neg (mt hempty.mp hheard), String.append_assoc,
      String.append_assoc]
    simp only [String.toList_append]
    exact h.append_iff Char.utf8Size_pos _

/-! ## The reader -/

theorem stderrLine_spec {s : State} (hreading : s.stderrReading = true) (line : String) :
    ∃ s', s.stderrLine line = some s' ∧
      (s'.stderrReading = true ∧ TailOf (pushLine s.stderrTail line).toList s'.stderrTail.toList ∨
        s'.stderrReading = false ∧ ¬CutsBetween (pushLine s.stderrTail line)) := by
  rw [State.stderrLine, if_pos hreading]
  dsimp only
  split
  · next hle =>
    refine ⟨_, rfl, .inl ⟨hreading, .of_le ?_⟩⟩
    rwa [← utf8ByteSize_eq_weigh]
  · next hlt =>
    have hcut := splitOff_tail_iff (Nat.lt_of_not_le hlt)
    cases hsplit : splitOff ((pushLine s.stderrTail line).utf8ByteSize - stderrTailMaxBytes)
        (pushLine s.stderrTail line).toList with
    | some rest =>
      refine ⟨_, rfl, .inl ⟨hreading, ?_⟩⟩
      rw [String.toList_ofList]
      exact (hcut rest).mp hsplit
    | none =>
      refine ⟨_, rfl, .inr ⟨rfl, ?_⟩⟩
      rw [cutsBetween_iff]
      rintro ⟨rest, hrest⟩
      rw [(hcut rest).mpr hrest] at hsplit
      cases hsplit

theorem drains {s : State} {heard : String} (hreading : s.stderrReading = true)
    (h : TailOf heard.toList s.stderrTail.toList) (lines : List String) :
    (∃ s', runAll State.step (lines.map .stderr) s = some s' ∧ s'.stderrReading = true ∧
        TailOf (lines.foldl pushLine heard).toList s'.stderrTail.toList) ∧
      (∀ told, told <+: lines → told ≠ [] → CutsBetween (told.foldl pushLine heard)) ∨
    (∀ s', runAll State.step (lines.map .stderr) s = some s' → s'.stderrReading = false) ∧
      ∃ told, told <+: lines ∧ told ≠ [] ∧ ¬CutsBetween (told.foldl pushLine heard) := by
  induction lines generalizing s heard with
  | nil => exact .inl ⟨⟨s, rfl, hreading, h⟩, fun told htold hne => absurd (List.prefix_nil.mp htold) hne⟩
  | cons line lines ih =>
    obtain ⟨s₁, hline, hcase⟩ := stderrLine_spec hreading line
    have hrun : runAll State.step ((line :: lines).map .stderr) s = runAll State.step (lines.map .stderr) s₁ := by
      rw [List.map_cons, runAll, State.step, hline, Option.bind_some]
    rw [hrun]
    rcases hcase with ⟨hgoes, htail⟩ | ⟨hstops, hcut⟩
    · have hheard := (tailOf_pushLine h line _).mp htail
      have hfirst : CutsBetween (pushLine heard line) := (cutsBetween_iff _).mpr ⟨_, hheard⟩
      rcases ih hgoes hheard with ⟨hdrained, hcuts⟩ | ⟨hstopped, told, htold, -, hcut⟩
      · refine .inl ⟨hdrained, fun told htold hne => ?_⟩
        cases told with
        | nil => exact absurd rfl hne
        | cons l told =>
          obtain ⟨rfl, hrest⟩ := List.cons_prefix_cons.mp htold
          by_cases hnil : told = []
          · rw [hnil]
            exact hfirst
          · exact hcuts told hrest hnil
      · exact .inr ⟨hstopped, line :: told, List.cons_prefix_cons.mpr ⟨rfl, htold⟩, List.cons_ne_nil _ _, hcut⟩
    · refine .inr ⟨fun s' hs' => ?_, [line], ⟨lines, rfl⟩, List.cons_ne_nil _ _, ?_⟩
      · cases lines with
        | nil =>
          obtain rfl := Option.some.inj hs'
          exact hstops
        | cons l lines =>
          rw [List.map_cons, runAll, State.step, State.stderrLine, hstops] at hs'
          cases hs'
      · rw [cutsBetween_iff] at hcut ⊢
        rintro ⟨rest, hrest⟩
        exact hcut ⟨rest, (tailOf_pushLine h line rest).mpr hrest⟩

/-! ## Among the other steps -/

def State.Event.line? : State.Event → Option String
  | .stderr line => some line
  | .send _ _ | .goOn _ _ | .expire _ | .read _ | .shutdown _ | .close _ => none

def SameStderr (s t : State) : Prop := s.stderrTail = t.stderrTail ∧ s.stderrReading = t.stderrReading

theorem sameStderr_goOn {s s' : State} {i : ℕ} {written : Except RuntimeError Unit} (h : s.goOn i written = some s') :
    SameStderr s' s := by
  rw [State.goOn] at h
  split at h
  · cases h
  · next r hr =>
    split at h
    case h_5 =>
      split at h <;> (obtain rfl := Option.some.inj h; exact ⟨rfl, rfl⟩)
    case h_7 =>
      obtain ⟨r', -, rfl⟩ := Option.map_eq_some_iff.mp h
      exact ⟨rfl, rfl⟩
    case h_9 => cases h
    all_goals
      obtain rfl := Option.some.inj h
      exact ⟨rfl, rfl⟩

theorem sameStderr_read {s s' : State} {incoming : Incoming} (h : s.read incoming = some s') : SameStderr s' s := by
  unfold State.read at h
  split at h
  · split at h <;> obtain rfl := Option.some.inj h
    · rw [State.respond]
      split <;> exact ⟨rfl, rfl⟩
    all_goals exact ⟨rfl, rfl⟩
  · cases h

theorem sameStderr_close {s s' : State} {k : ℕ} (h : s.advanceClosing k = some s') : SameStderr s' s := by
  rw [State.advanceClosing] at h
  split at h
  · cases h
  · split at h
    case h_1 =>
      split at h <;> (obtain rfl := Option.some.inj h; exact ⟨rfl, rfl⟩)
    case h_7 => cases h
    all_goals
      obtain rfl := Option.some.inj h
      exact ⟨rfl, rfl⟩

theorem sameStderr_step {e : State.Event} {s s' : State} (he : e.line? = none) (h : State.step e s = some s') :
    SameStderr s' s := by
  cases e with
  | send method timeout =>
    obtain rfl := Option.some.inj h
    exact ⟨rfl, rfl⟩
  | goOn i written => exact sameStderr_goOn h
  | expire i =>
    rw [State.step, State.expire] at h
    split at h
    · cases h
    · split at h
      · obtain rfl := Option.some.inj h
        exact ⟨rfl, rfl⟩
      · cases h
  | read incoming => exact sameStderr_read h
  | shutdown killIfRunning =>
    obtain rfl := Option.some.inj h
    exact ⟨rfl, rfl⟩
  | close k => exact sameStderr_close h
  | stderr line => cases he

theorem SameStderr.stderrLine {s s' t : State} {line : String} (h : SameStderr s t) (hs : s.stderrLine line = some s') :
    ∃ t', t.stderrLine line = some t' ∧ SameStderr s' t' := by
  rw [State.stderrLine, ← h.1, ← h.2]
  rw [State.stderrLine] at hs
  split at hs
  · next hreading =>
    rw [if_pos hreading]
    dsimp only at hs ⊢
    split at hs
    · next hle =>
      obtain rfl := Option.some.inj hs
      rw [if_pos hle]
      exact ⟨_, rfl, rfl, rfl⟩
    · next hlt =>
      rw [if_neg hlt]
      split at hs
      all_goals
        obtain rfl := Option.some.inj hs
        exact ⟨_, rfl, rfl, rfl⟩
  · cases hs

/-- A run of the connection leaves the error output as the lines alone do. -/
theorem stderr_of_run {es : List State.Event} {s s' t : State} (h : SameStderr s t) (hrun : runAll State.step es s = some s') :
    ∃ t', runAll State.step ((es.filterMap State.Event.line?).map .stderr) t = some t' ∧ SameStderr s' t' := by
  induction es generalizing s t with
  | nil =>
    obtain rfl := Option.some.inj hrun
    exact ⟨t, rfl, h⟩
  | cons e es ih =>
    obtain ⟨s₁, hstep, hrest⟩ := Option.bind_eq_some_iff.mp hrun
    cases he : e.line? with
    | none =>
      have hsame := sameStderr_step he hstep
      rw [List.filterMap_cons_none he]
      exact ih ⟨hsame.1.trans h.1, hsame.2.trans h.2⟩ hrest
    | some line =>
      obtain rfl : e = .stderr line := by
        cases e with
        | stderr l => exact congrArg _ (Option.some.inj he)
        | _ => cases he
      have hline : s.stderrLine line = some s₁ := hstep
      obtain ⟨t₁, ht, hsame⟩ := h.stderrLine hline
      obtain ⟨t', ht', hend⟩ := ih hsame hrest
      refine ⟨t', ?_, hend⟩
      rw [List.filterMap_cons_some he, List.map_cons, runAll, State.step, ht, Option.bind_some, ht']

/-- In every state of a connection the reader of the error output has stopped at a cut within a character, or goes on with
an end of the lines. -/
theorem stderr_of_connection {es : List State.Event} {s : State} (hrun : runAll State.step es .spawned = some s) :
    s.stderrReading = true ∧ s.stderrTail.utf8ByteSize ≤ stderrTailMaxBytes ∧
        s.stderrTail.toList <:+ (joined (es.filterMap State.Event.line?)).toList ∨
      s.stderrReading = false ∧ ∃ told, told <+: es.filterMap State.Event.line? ∧ ¬CutsBetween (joined told) := by
  obtain ⟨t, ht, hsame⟩ := stderr_of_run (t := .spawned) ⟨rfl, rfl⟩ hrun
  have hspawned : TailOf "".toList State.spawned.stderrTail.toList := .of_le (Nat.zero_le _)
  rcases drains rfl hspawned (es.filterMap State.Event.line?) with
    ⟨⟨t', ht', hreading, htail⟩, -⟩ | ⟨hstopped, told, htold, -, hcut⟩
  · obtain rfl := Option.some.inj (ht.symm.trans ht')
    refine .inl ⟨hsame.2.trans hreading, ?_, ?_⟩
    · rw [hsame.1, utf8ByteSize_eq_weigh]
      exact htail.weigh_le
    · obtain ⟨k, hk⟩ := joined_eq (es.filterMap State.Event.line?)
      rw [hsame.1, hk]
      exact htail.suffix.trans (List.suffix_append _ _)
  · exact .inr ⟨hsame.2.trans (hstopped t ht), told, htold, mt (cutsBetween_joined_iff told).mp hcut⟩

/-- A line of 8 KiB leaves no room for the one before it. -/
theorem full_line_alone {line : String} (hsize : line.utf8ByteSize = stderrTailMaxBytes) :
    ∃ s, runAll State.step [.stderr "ready", .stderr line] .spawned = some s ∧ s.stderrTail = line := by
  have hpush : pushLine "ready" line = "ready" ++ "\n" ++ line := if_neg (by decide)
  have hcut : TailOf ("ready" ++ "\n" ++ line).toList line.toList := by
    refine (splitOff_tail_iff ?_ _).mp ?_ <;> rw [String.utf8ByteSize_append, hsize]
    · decide
    · rw [Nat.add_sub_cancel, splitOff_eq_some_iff, String.toList_append]
      exact ⟨("ready" ++ "\n").toList, rfl, by decide⟩
  obtain ⟨s, hs, hcase⟩ := stderrLine_spec (s := { State.spawned with stderrTail := "ready" }) rfl line
  refine ⟨s, ?_, ?_⟩
  · change (State.stderrLine line { State.spawned with stderrTail := "ready" }).bind some = _
    rw [hs, Option.bind_some]
  · rcases hcase with ⟨-, htail⟩ | ⟨-, hbroken⟩
    · rw [hpush] at htail
      exact String.toList_inj.mp (htail.unique Char.utf8Size_pos hcut)
    · exact absurd ((cutsBetween_iff _).mpr ⟨_, hcut⟩) (hpush ▸ hbroken)

def lineOf (n : ℕ) : String := String.ofList (List.replicate n 'x')

theorem utf8ByteSize_lineOf (n : ℕ) : (lineOf n).utf8ByteSize = n := by
  have hunits : ∀ c ∈ List.replicate n 'x', Char.utf8Size c = 1 := by
    intro c hc
    rw [List.eq_of_mem_replicate hc]
    rfl
  rw [utf8ByteSize_eq_weigh, lineOf, String.toList_ofList, weigh_of_units hunits, List.length_replicate]

def twoLines : List State.Event := [.stderr "ready", .stderr (lineOf stderrTailMaxBytes)]

theorem stderr_of_connection_lines : ∃ s, runAll State.step twoLines .spawned = some s ∧
    s.stderrTail = lineOf stderrTailMaxBytes ∧
    (s.stderrReading = true ∧ s.stderrTail.utf8ByteSize ≤ stderrTailMaxBytes ∧
        s.stderrTail.toList <:+ (joined (twoLines.filterMap State.Event.line?)).toList ∨
      s.stderrReading = false ∧ ∃ told, told <+: twoLines.filterMap State.Event.line? ∧
        ¬CutsBetween (joined told)) := by
  obtain ⟨s, hs, htail⟩ := full_line_alone (utf8ByteSize_lineOf _)
  exact ⟨s, hs, htail, stderr_of_connection hs⟩

/-- The reader takes all the lines, keeps to its limit and has an end of them, just when a character starts wherever the
last 8 KiB of the lines so far begin. -/
theorem stderr_drained_iff (lines : List String) :
    (∀ told, told <+: lines → DrainedAfter told) ↔ ∀ told, told <+: lines → CutsBetween (joined told) := by
  have hspawned : TailOf "".toList State.spawned.stderrTail.toList := .of_le (Nat.zero_le _)
  constructor
  · intro h told htold
    obtain ⟨s, hs, hreading, -, -⟩ := h told htold
    rw [cutsBetween_joined_iff]
    rcases drains rfl hspawned told with ⟨⟨s', hs', -, htail⟩, -⟩ | ⟨hstopped, -⟩
    · exact (cutsBetween_iff _).mpr ⟨_, htail⟩
    · rw [hstopped s hs] at hreading
      cases hreading
  · intro h told htold
    rcases drains rfl hspawned told with ⟨⟨s, hs, hreading, htail⟩, -⟩ | ⟨-, early, hearly, -, hcut⟩
    · refine ⟨s, hs, hreading, ?_, ?_⟩
      · rw [utf8ByteSize_eq_weigh]
        exact htail.weigh_le
      · obtain ⟨k, hk⟩ := joined_eq told
        rw [hk]
        exact htail.suffix.trans (List.suffix_append _ _)
    · exact absurd ((cutsBetween_joined_iff early).mp (h early (hearly.trans htold))) hcut

/-- A line whose first character is two bytes long, and one byte too many. -/
theorem not_stderr_drained : ¬ ∀ lines told, told <+: lines → DrainedAfter told := by
  intro h
  let line := String.ofList ('é' :: List.replicate 8191 'x')
  have hsize : line.utf8ByteSize = 8193 := by
    rw [utf8ByteSize_eq_weigh, String.toList_ofList, weigh_cons, weigh, List.map_replicate, List.sum_replicate]
    rfl
  obtain ⟨s, hs, hreading, -, -⟩ := h [line] [line] List.prefix_rfl
  obtain ⟨s', hs', hcase⟩ := stderrLine_spec (s := .spawned) rfl line
  obtain rfl : s' = s := by
    rw [List.map_cons, runAll, State.step, hs', Option.bind_some] at hs
    exact Option.some.inj hs
  rcases hcase with ⟨-, htail⟩ | ⟨hstopped, -⟩
  · have hsplit := (splitOff_tail_iff (show stderrTailMaxBytes < line.utf8ByteSize by rw [hsize]; decide) _).mpr htail
    rw [hsize, String.toList_ofList] at hsplit
    cases hsplit
  · rw [hstopped] at hreading
    cases hreading

end Gooselake.Providers.Acp.Connection

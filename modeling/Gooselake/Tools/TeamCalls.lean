import Gooselake.Library.Runs
import Gooselake.Library.Slots
import Gooselake.Tools.ToolLanguage

/-!
The tool calls that are in flight in one MCP server. A `gg_team` call holds the lock of its caller while the gateway is
asked; a lock is made when it is first wanted, and stays.
-/

namespace Gooselake.Tools

open Gooselake.Core Data Library

set_option autoImplicit false

inductive TeamCallPoint where
  /-- before it looks for the lock of its caller -/
  | looking
  | locking (lock : ℕ)
  | asking (guard : Option ℕ)
  | returned
  deriving DecidableEq

structure BackendCall where
  namespaceName : String
  caller : CallerId
  point : TeamCallPoint

def BackendCall.key (c : BackendCall) : String :=
  ((normalizeNonEmpty c.caller.text).map CallerId.text).getD "unknown_caller"

structure TeamCalls where
  /-- The caller that a configured gateway falls back on. -/
  config : Option (Option String)
  teamCallLocks : Table String ℕ
  made : ℕ
  calls : List BackendCall

inductive TeamCallLabel where
  /-- `invoke_backend_tool_with_metadata` -/
  | call (namespaceName : String) (callerAgentId : Option String)
  | goOn (i : ℕ)

namespace TeamCalls

def new (config : Option (Option String)) : TeamCalls := ⟨config, ∅, 0, []⟩

def isFree (lock : ℕ) (s : TeamCalls) : Bool := s.calls.all fun c => c.point ≠ .asking (some lock)

def put (i : ℕ) (c : BackendCall) (point : TeamCallPoint) (s : TeamCalls) : TeamCalls :=
  { s with calls := s.calls.set i { c with point := point } }

def step : TeamCallLabel → TeamCalls → Option TeamCalls
  | .call namespaceName callerAgentId, s =>
    -- without a gateway or a caller the call is answered at once
    match s.config.bind fun default => resolveCallerAgentId callerAgentId default with
    | none => some s
    | some caller => some { s with
        calls := s.calls ++ [⟨namespaceName, caller, if namespaceName = "gg_team" then .looking else .asking none⟩] }
  | .goOn i, s => do
    let c ← s.calls[i]?
    match c.point with
    | .looking =>
      match s.teamCallLocks.lookup c.key with
      | some lock => some (s.put i c (.locking lock))
      | none => some { s.put i c (.locking s.made) with
          teamCallLocks := s.teamCallLocks.insert c.key s.made, made := s.made + 1 }
    | .locking lock => if s.isFree lock then some (s.put i c (.asking (some lock))) else none
    | .asking _ => some (s.put i c .returned)
    | .returned => none

/-- A `gg_team` call in flight has looked up the lock of its caller, and a lock is held once. -/
structure Locked (s : TeamCalls) : Prop where
  below : ∀ k lock, s.teamCallLocks.lookup k = some lock → lock < s.made
  apart : ∀ k k' lock, s.teamCallLocks.lookup k = some lock → s.teamCallLocks.lookup k' = some lock → k = k'
  found : ∀ (i : ℕ) (c : BackendCall) (lock : ℕ), s.calls[i]? = some c →
    c.point = .locking lock ∨ c.point = .asking (some lock) → s.teamCallLocks.lookup c.key = some lock
  once : ∀ (i j : ℕ) (c d : BackendCall) (lock : ℕ), s.calls[i]? = some c → s.calls[j]? = some d →
    c.point = .asking (some lock) → d.point = .asking (some lock) → i = j
  guarded : ∀ (i : ℕ) (c : BackendCall), s.calls[i]? = some c → c.point = .asking none → c.namespaceName ≠ "gg_team"

variable {s s' : TeamCalls}

theorem locked_new (config : Option (Option String)) : Locked (new config) := by
  have hlookup : ∀ k : String, (∅ : Table String ℕ).lookup k = none := fun k => AList.lookup_empty k
  constructor <;> simp [new, hlookup]

theorem Locked.put (h : Locked s) {i : ℕ} {c : BackendCall} (hc : s.calls[i]? = some c) (point : TeamCallPoint)
    (hfound : ∀ lock, point = .locking lock ∨ point = .asking (some lock) → s.teamCallLocks.lookup c.key = some lock)
    (hfree : ∀ lock, point = .asking (some lock) → s.isFree lock = true) (hguarded : point ≠ .asking none) :
    Locked (s.put i c point) := by
  have hback : ∀ {j : ℕ} {d : BackendCall}, (s.put i c point).calls[j]? = some d →
      j = i ∧ d = { c with point := point } ∨ j ≠ i ∧ s.calls[j]? = some d := of_getElem?_set
  have hnobody : ∀ (j : ℕ) (d : BackendCall) (lock : ℕ), s.calls[j]? = some d → point = .asking (some lock) →
      d.point ≠ .asking (some lock) := fun j d lock hd hpoint =>
    of_decide_eq_true (List.all_eq_true.mp (hfree lock hpoint) d (List.mem_of_getElem? hd))
  refine ⟨h.below, h.apart, fun j d lock hd hp => ?_, fun j k d e lock hd he hp hp' => ?_, fun j d hd hp => ?_⟩
  · obtain ⟨-, rfl⟩ | ⟨-, hd⟩ := hback hd
    · exact hfound lock hp
    · exact h.found j d lock hd hp
  · obtain ⟨rfl, rfl⟩ | ⟨-, hd'⟩ := hback hd <;> obtain ⟨rfl, rfl⟩ | ⟨-, he'⟩ := hback he
    · rfl
    · exact absurd hp' (hnobody k e lock he' hp)
    · exact absurd hp (hnobody j d lock hd' hp')
    · exact h.once j k d e lock hd' he' hp hp'
  · obtain ⟨-, rfl⟩ | ⟨-, hd⟩ := hback hd
    · exact absurd hp hguarded
    · exact h.guarded j d hd hp

theorem Locked.make (h : Locked s) {k : String} (hk : s.teamCallLocks.lookup k = none) :
    Locked { s with teamCallLocks := s.teamCallLocks.insert k s.made, made := s.made + 1 } := by
  have hnew : ∀ k' lock, s.teamCallLocks.lookup k' = some lock →
      (s.teamCallLocks.insert k s.made).lookup k' = some lock := by
    intro k' lock hl
    rw [Table.lookup_insert, if_neg fun he => by rw [he, hk] at hl; cases hl]
    exact hl
  refine ⟨fun k' lock hl => ?_, fun k₁ k₂ lock hl hl' => ?_, fun i c lock hc hp => hnew _ _ (h.found i c lock hc hp),
    h.once, h.guarded⟩
  · obtain ⟨-, hmade⟩ | hl := Table.of_lookup_insert hl
    · exact hmade ▸ Nat.lt_succ_self _
    · exact Nat.lt_succ_of_lt (h.below k' lock hl)
  · obtain ⟨hk₁, hmade⟩ | hl := Table.of_lookup_insert hl <;> obtain ⟨hk₂, hmade'⟩ | hl' := Table.of_lookup_insert hl'
    · exact hk₁.trans hk₂.symm
    · exact absurd (h.below _ _ hl') (hmade ▸ Nat.lt_irrefl _)
    · exact absurd (h.below _ _ hl) (hmade' ▸ Nat.lt_irrefl _)
    · exact h.apart k₁ k₂ lock hl hl'

theorem Locked.call (h : Locked s) {c : BackendCall}
    (hc : c.point = .looking ∨ c.point = .asking none ∧ c.namespaceName ≠ "gg_team") :
    Locked { s with calls := s.calls ++ [c] } := by
  have hlock : ∀ lock, c.point ≠ .locking lock ∧ c.point ≠ .asking (some lock) := fun lock => by
    rcases hc with hc | ⟨hc, -⟩ <;> simp [hc]
  refine ⟨h.below, h.apart, fun j d lock hd hp => ?_, fun j k d e lock hd he hp hp' => ?_, fun j d hd hp => ?_⟩
  · obtain hd | rfl := of_getElem?_concat hd
    · exact h.found j d lock hd hp
    · exact (hp.elim (hlock lock).1 (hlock lock).2).elim
  · obtain hd | rfl := of_getElem?_concat hd
    · obtain he | rfl := of_getElem?_concat he
      · exact h.once j k d e lock hd he hp hp'
      · exact absurd hp' (hlock lock).2
    · exact absurd hp (hlock lock).2
  · obtain hd | rfl := of_getElem?_concat hd
    · exact h.guarded j d hd hp
    · rcases hc with hc | ⟨-, hc⟩
      · cases hc.symm.trans hp
      · exact hc

theorem Locked.step {l : TeamCallLabel} (h : Locked s) (hs : step l s = some s') : Locked s' := by
  cases l with
  | call namespaceName callerAgentId =>
    simp only [TeamCalls.step] at hs
    split at hs <;> obtain rfl := Option.some.inj hs
    · exact h
    · refine h.call ?_
      dsimp only
      split
      · exact .inl rfl
      · next hne => exact .inr ⟨rfl, hne⟩
  | goOn i =>
    obtain ⟨c, hc, hs⟩ := Option.bind_eq_some_iff.mp hs
    split at hs
    · split at hs
      · next lock hlock => exact Option.some.inj hs ▸ h.put hc _ (by simp [hlock]) nofun nofun
      · next hnone => exact Option.some.inj hs ▸ (h.make hnone).put hc _ (by simp) nofun nofun
    · next lock hp =>
      rw [Option.ite_none_right_eq_some] at hs
      obtain ⟨hfree, hs⟩ := hs
      refine Option.some.inj hs ▸ h.put hc _ (fun lock' he => ?_) (fun lock' he => ?_) nofun
      · obtain rfl : lock = lock' := by simpa using he
        exact h.found i c lock hc (.inl hp)
      · obtain rfl : lock = lock' := by simpa using he
        exact hfree
    · exact Option.some.inj hs ▸ h.put hc _ nofun nofun nofun
    · cases hs

/-- Of one caller at most one `gg_team` call asks the gateway, and a call that has to wait for its lock waits for another
call of its own caller. -/
theorem one_team_call_each {config : Option (Option String)} (hrun : Reaches step (fun _ _ => True) (new config) s) :
    (∀ (i j : ℕ) (c d : BackendCall) (g g' : Option ℕ), s.calls[i]? = some c → s.calls[j]? = some d →
      c.namespaceName = "gg_team" → d.namespaceName = "gg_team" → c.key = d.key → c.point = .asking g →
      d.point = .asking g' → i = j) ∧
    ∀ (i : ℕ) (c : BackendCall) (lock : ℕ), s.calls[i]? = some c → c.point = .locking lock → step (.goOn i) s = none →
      ∃ (j : ℕ) (d : BackendCall), s.calls[j]? = some d ∧ d.key = c.key ∧ d.point = .asking (some lock) := by
  have h : Locked s := hrun.invariant (locked_new config) fun _ _ _ h _ hs => h.step hs
  refine ⟨fun i j c d g g' hc hd hn hn' hkey hp hp' => ?_, fun i c lock hc hp hs => ?_⟩
  · obtain _ | lock := g
    · exact absurd hn (h.guarded i c hc hp)
    obtain _ | lock' := g'
    · exact absurd hn' (h.guarded j d hd hp')
    have hlock := h.found i c lock hc (.inr hp)
    rw [hkey, h.found j d lock' hd (.inr hp')] at hlock
    obtain rfl := Option.some.inj hlock
    exact h.once i j c d _ hc hd hp hp'
  · simp only [TeamCalls.step, hc, hp, Option.bind_eq_bind, Option.bind_some, ite_eq_right_iff, reduceCtorEq, imp_false,
      isFree, List.all_eq_true, not_forall, decide_eq_true_eq, not_not] at hs
    obtain ⟨d, hd, hpoint⟩ := hs
    obtain ⟨j, hj⟩ := List.mem_iff_getElem?.mp hd
    exact ⟨j, d, hj, h.apart _ _ lock (h.found j d lock hj (.inr hpoint)) (h.found i c lock hc (.inl hp)), hpoint⟩

theorem one_team_call_each_two : ∃ s : TeamCalls, s.calls.map BackendCall.point = [.asking (some 0), .locking 0] ∧
    ∀ (j : ℕ) (d : BackendCall) (g : Option ℕ), s.calls[j]? = some d → d.namespaceName = "gg_team" →
      d.key = "agent" → d.point = .asking g → 0 = j := by
  obtain ⟨s, hs, he⟩ := exists_reaches_of_runAll step (fun _ _ => true)
    [.call "gg_team" (some "agent"), .call "gg_team" none, .goOn 0, .goOn 1, .goOn 0] (s := new (some (some " agent ")))
    (fun s => (s.calls.map BackendCall.point, s.calls[0]?.map fun c => (c.namespaceName, c.key, c.point)))
    ([.asking (some 0), .locking 0], some ("gg_team", "agent", .asking (some 0))) (by decide +kernel)
  obtain ⟨c, hc, hfields⟩ := Option.map_eq_some_iff.mp (congrArg Prod.snd he)
  simp only [Prod.mk.injEq] at hfields
  exact ⟨s, congrArg Prod.fst he, fun j d g hd hn hkey hp => (one_team_call_each (hs.mono fun _ _ _ => trivial)).1 0 j c d
    _ g hc hd hfields.1 hn (hfields.2.1.trans hkey.symm) hfields.2.2 hp⟩

end TeamCalls

end Gooselake.Tools

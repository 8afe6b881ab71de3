import Gooselake.Library.Runs
import Gooselake.Tools.Gateway

/-!
Calls of `gg_team_manage` in add mode and the cache that lets one execution stand for an invocation id: any number of
calls, cut where they read the clock, take the cache's lock and execute, and time that passes in between.
-/

namespace Gooselake.Tools

open Gooselake.Data Library

set_option autoImplicit false

/-! ## The cache -/

structure ManageAddIdempotencyEntry where
  insertedAt : ℕ
  completedSuccess : Option Json
  deriving DecidableEq

/-- `GG_TEAM_ADD_IDEMPOTENCY_CACHE_TTL_SECS`. -/
def ggTeamAddIdempotencyCacheTtlSecs : ℕ := 10 * 60

def cacheTtl : ℕ := ggTeamAddIdempotencyCacheTtlSecs * 10 ^ 9

abbrev AddCache : Type := Table String ManageAddIdempotencyEntry

/-- Under which key `invoke_team_manage` keeps the result of an add, if it does. -/
def cacheKey (callerSessionId : String) (invocationId : Option String) : Option String :=
  (invocationId.bind trimmedNonEmpty).map fun invocationId => s!"v1:{callerSessionId}:gg_team_manage:{invocationId}"

def fresh (now : ℕ) (cache : AddCache) (key : String) : Bool :=
  match cache.lookup key with
  | some entry => decide (now - entry.insertedAt ≤ cacheTtl)
  | none => true

def duplicateInProgress : TeamToolFailure :=
  ⟨"duplicate_tool_invocation_in_progress", "Duplicate gg_team_manage add invocation is already in progress"⟩

def beginManageAddIdempotentExecution (now : ℕ) (key : String) (cache : AddCache) :
    Except TeamToolFailure (Option Json) × AddCache :=
  let cache := cache.retain (fresh now cache)
  match cache.lookup key with
  | some ⟨_, some result⟩ => (.ok (some result), cache)
  | some ⟨_, none⟩ => (.error duplicateInProgress, cache)
  | none => (.ok none, cache.insert key ⟨now, none⟩)

def completeManageAddIdempotentExecution (now : ℕ) (key : String) (result : Json) (cache : AddCache) : AddCache :=
  cache.update key fun _ => ⟨now, some result⟩

def abortManageAddIdempotentExecution (key : String) (cache : AddCache) : AddCache := cache.erase key

theorem lookup_retain_fresh (now : ℕ) (cache : AddCache) (key : String) :
    (cache.retain (fresh now cache)).lookup key = (cache.lookup key).filter fun entry => now - entry.insertedAt ≤ cacheTtl := by
  rw [Table.lookup_retain, fresh]
  cases cache.lookup key with
  | none => rfl
  | some entry => rfl

/-! ## Calls -/

abbrev AddResult : Type := Except TeamToolFailure Json

inductive AddPoint where
  | arrived
  /-- The clock is read; the lock of the cache is waited for. -/
  | locking (now : ℕ)
  /-- `invoke_team_manage_add`. -/
  | executing
  /-- The execution is over, which the cache is not told yet. -/
  | executed (result : AddResult)
  | done (result : AddResult) (time : ℕ)
  /-- It returned without an execution of its own. -/
  | answered (result : AddResult)
  deriving DecidableEq

structure AddCall where
  callerSessionId : String
  invocationId : Option String
  point : AddPoint
  deriving DecidableEq

def AddCall.key (call : AddCall) : Option String := cacheKey call.callerSessionId call.invocationId

def settled (clock : ℕ) (cache : AddCache) : Option String → AddResult → AddCache
  | none, _ => cache
  | some key, .ok value => completeManageAddIdempotentExecution clock key value cache
  | some key, .error _ => abortManageAddIdempotentExecution key cache

def afterBegin : Except TeamToolFailure (Option Json) → AddPoint
  | .ok (some result) => .answered (.ok result)
  | .ok none => .executing
  | .error error => .answered (.error error)

def AddCall.goOn (clock : ℕ) (cache : AddCache) (call : AddCall) : Option (AddCache × AddPoint) :=
  match call.point, call.key with
  | .arrived, none => some (cache, .executing)
  | .arrived, some _ => some (cache, .locking clock)
  | .locking now, some key =>
    some ((beginManageAddIdempotentExecution now key cache).2, afterBegin (beginManageAddIdempotentExecution now key cache).1)
  | .executed result, key => some (settled clock cache key result, .done result clock)
  | _, _ => none

/-! ## Steps -/

structure ManageAdds where
  clock : ℕ
  cache : AddCache
  calls : Table ℕ AddCall

inductive AddLabel where
  | passes (time : ℕ)
  | call (i : ℕ) (callerSessionId : String) (invocationId : Option String)
  | goOn (i : ℕ)
  | ends (i : ℕ) (result : AddResult)

namespace ManageAdds

def step : AddLabel → ManageAdds → Option ManageAdds
  | .passes time, s => some { s with clock := s.clock + time }
  | .call i callerSessionId invocationId, s =>
    if i ∈ s.calls then none
    else some { s with calls := s.calls.insert i ⟨callerSessionId, invocationId, .arrived⟩ }
  | .goOn i, s => do
    let call ← s.calls.lookup i
    let (cache, point) ← call.goOn s.clock s.cache
    some { s with cache := cache, calls := s.calls.insert i { call with point := point } }
  | .ends i result, s => do
    let call ← s.calls.lookup i
    match call.point with
    | .executing => some { s with calls := s.calls.insert i { call with point := .executed result } }
    | _ => none

def start : ManageAdds := ⟨0, ∅, ∅⟩

end ManageAdds

/-! ## One execution for an invocation id -/

def AddPoint.unsettled : AddPoint → Bool
  | .executing | .executed _ => true
  | _ => false

/-- No two calls with one key are executed at once. -/
def ManageAdds.Apart (s : ManageAdds) : Prop :=
  ∀ i j a b key, s.calls.lookup i = some a → s.calls.lookup j = some b → a.key = some key → b.key = some key →
    a.point = .executing → b.point = .executing → i = j

/-- A call finds the result of another with its key as long as the cache keeps it. -/
def ManageAdds.Remembered (s : ManageAdds) : Prop :=
  ∀ i j a b key value time now, s.calls.lookup i = some a → s.calls.lookup j = some b → a.key = some key →
    b.key = some key → a.point = .done (.ok value) time → s.clock - time < cacheTtl → b.point = .locking now →
    ∃ s', ManageAdds.step (.goOn j) s = some s' ∧
      s'.calls.lookup j = some { b with point := .answered (.ok value) }

/-- The lock is not taken to look at the cache when the entry of an execution has expired which the cache has not been
told the end of. -/
def ManageAdds.timely : AddLabel → ManageAdds → Bool
  | .goOn i, s =>
    match s.calls.lookup i with
    | some ⟨_, _, .locking now⟩ =>
      s.calls.values.all fun call => !call.point.unsettled || call.key.all (fresh now s.cache)
    | _ => true
  | _, _ => true

/-! ## What the cache knows -/

namespace ManageAdds

/-- An execution that is not settled has its key to itself and an entry without a result; a recent success has an entry
with its result. -/
structure Recorded (s : ManageAdds) : Prop where
  read : ∀ i a now, s.calls.lookup i = some a → a.point = .locking now → now ≤ s.clock
  reserved : ∀ i a key, s.calls.lookup i = some a → a.key = some key → a.point.unsettled = true →
    ∃ time, s.cache.lookup key = some ⟨time, none⟩
  alone : ∀ i j a b key, s.calls.lookup i = some a → s.calls.lookup j = some b → a.key = some key →
    b.key = some key → a.point.unsettled = true → b.point.unsettled = true → i = j
  kept : ∀ i a key value time, s.calls.lookup i = some a → a.key = some key → a.point = .done (.ok value) time →
    time ≤ s.clock ∧ (s.clock - time < cacheTtl → s.cache.lookup key = some ⟨time, some value⟩)

theorem recorded_start : Recorded start where
  read := fun i a now h => by simp [start] at h
  reserved := fun i a key h => by simp [start] at h
  alone := fun i j a b key h => by simp [start] at h
  kept := fun i a key value time h => by simp [start] at h

variable {s s' : ManageAdds} {i j : ℕ} {a b c : AddCall}

theorem lookup_put (h : (s.calls.insert i c).lookup j = some b) :
    (j = i ∧ b = c) ∨ (j ≠ i ∧ s.calls.lookup j = some b) := by
  rw [Table.lookup_insert] at h
  split at h
  · next hj => exact .inl ⟨hj, (Option.some.inj h).symm⟩
  · next hj => exact .inr ⟨hj, h⟩

theorem Recorded.passes (h : Recorded s) (time : ℕ) : Recorded { s with clock := s.clock + time } :=
  { h with
    read := fun i a now ha hp => (h.read i a now ha hp).trans (Nat.le_add_right _ _)
    kept := fun i a key value t ha hkey hp => by
      obtain ⟨hle, hent⟩ := h.kept i a key value t ha hkey hp
      refine ⟨hle.trans (Nat.le_add_right _ _), fun hlt => hent ?_⟩
      change s.clock + time - t < cacheTtl at hlt
      omega }

theorem Recorded.put (h : Recorded s)
    (hold : ∀ key, c.key = some key → c.point.unsettled = true →
      ∃ a, s.calls.lookup i = some a ∧ a.key = some key ∧ a.point.unsettled = true)
    (hread : ∀ now, c.point = .locking now → now ≤ s.clock)
    (hdone : ∀ key value time, c.key = some key → c.point ≠ .done (.ok value) time) :
    Recorded { s with calls := s.calls.insert i c } where
  read := fun j b now hb hp => by
    rcases lookup_put hb with ⟨rfl, rfl⟩ | ⟨-, hb⟩
    · exact hread now hp
    · exact h.read j b now hb hp
  reserved := fun j b key hb hkey hp => by
    rcases lookup_put hb with ⟨rfl, rfl⟩ | ⟨-, hb⟩
    · obtain ⟨a, ha, hakey, hap⟩ := hold key hkey hp
      exact h.reserved j a key ha hakey hap
    · exact h.reserved j b key hb hkey hp
  alone := fun j k b d key hb hd hbkey hdkey hbp hdp => by
    rcases lookup_put hb with ⟨rfl, rfl⟩ | ⟨-, hb'⟩ <;> rcases lookup_put hd with ⟨rfl, rfl⟩ | ⟨-, hd'⟩
    · rfl
    · obtain ⟨a, ha, hakey, hap⟩ := hold key hbkey hbp
      exact h.alone _ _ a d key ha hd' hakey hdkey hap hdp
    · obtain ⟨a, ha, hakey, hap⟩ := hold key hdkey hdp
      exact h.alone _ _ b a key hb' ha hbkey hakey hbp hap
    · exact h.alone _ _ b d key hb' hd' hbkey hdkey hbp hdp
  kept := fun j b key value time hb hkey hp => by
    rcases lookup_put hb with ⟨rfl, rfl⟩ | ⟨-, hb⟩
    · exact absurd hp (hdone key value time hkey)
    · exact h.kept j b key value time hb hkey hp

/-! ## Looking at the cache -/

theorem fresh_of_timely (ht : timely (.goOn i) s = true) {now : ℕ} (hi : s.calls.lookup i = some a)
    (hp : a.point = .locking now) {key : String} (hj : s.calls.lookup j = some b) (hkey : b.key = some key)
    (hb : b.point.unsettled = true) : fresh now s.cache key = true := by
  obtain ⟨caller, invocation, point⟩ := a
  obtain rfl : point = .locking now := hp
  simp only [timely, hi] at ht
  have hthis := List.all_eq_true.mp ht b (Table.mem_values.mpr ⟨j, hj⟩)
  simpa [hb, hkey] using hthis

theorem Recorded.retain (h : Recorded s) {now : ℕ} (hnow : now ≤ s.clock)
    (hfresh : ∀ j b key, s.calls.lookup j = some b → b.key = some key → b.point.unsettled = true →
      fresh now s.cache key = true) : Recorded { s with cache := s.cache.retain (fresh now s.cache) } :=
  { h with
    reserved := fun j b key hb hkey hp => by
      obtain ⟨time, hent⟩ := h.reserved j b key hb hkey hp
      refine ⟨time, ?_⟩
      change (s.cache.retain (fresh now s.cache)).lookup key = _
      rw [Table.lookup_retain, hfresh j b key hb hkey hp]
      exact hent
    kept := fun j b key value time hb hkey hp => by
      obtain ⟨hle, hent⟩ := h.kept j b key value time hb hkey hp
      refine ⟨hle, fun hlt => ?_⟩
      change (s.cache.retain (fresh now s.cache)).lookup key = _
      change s.clock - time < cacheTtl at hlt
      have hage : now - time ≤ cacheTtl := by omega
      rw [lookup_retain_fresh, hent hlt]
      exact Option.filter_eq_some_iff.mpr ⟨rfl, decide_eq_true hage⟩ }

theorem Recorded.reserve (h : Recorded s) {key : String} (hnone : s.cache.lookup key = none) (now : ℕ)
    (hkey : c.key = some key) (hc : c.point = .executing) :
    Recorded { s with cache := s.cache.insert key ⟨now, none⟩, calls := s.calls.insert i c } where
  read := fun j b now hb hp => by
    rcases lookup_put hb with ⟨rfl, rfl⟩ | ⟨-, hb⟩
    · rw [hc] at hp
      cases hp
    · exact h.read j b now hb hp
  reserved := fun j b key' hb hbkey hp => by
    change ∃ time, (s.cache.insert key ⟨now, none⟩).lookup key' = some ⟨time, none⟩
    rw [Table.lookup_insert]
    split
    · exact ⟨now, rfl⟩
    · next hne =>
      rcases lookup_put hb with ⟨rfl, rfl⟩ | ⟨-, hb⟩
      · exact absurd (Option.some.inj (hbkey.symm.trans hkey)) hne
      · exact h.reserved j b key' hb hbkey hp
  alone := fun j k b d key' hb hd hbkey hdkey hbp hdp => by
    -- a call that was unsettled before has an entry, so it has another key
    have hother : ∀ l e, s.calls.lookup l = some e → e.key = some key → e.point.unsettled = true → False := by
      intro l e he hekey hep
      obtain ⟨time, hent⟩ := h.reserved l e key he hekey hep
      rw [hnone] at hent
      cases hent
    rcases lookup_put hb with ⟨rfl, rfl⟩ | ⟨-, hb'⟩ <;> rcases lookup_put hd with ⟨rfl, rfl⟩ | ⟨-, hd'⟩
    · rfl
    · obtain rfl := Option.some.inj (hbkey.symm.trans hkey)
      exact (hother _ d hd' hdkey hdp).elim
    · obtain rfl := Option.some.inj (hdkey.symm.trans hkey)
      exact (hother _ b hb' hbkey hbp).elim
    · exact h.alone _ _ b d key' hb' hd' hbkey hdkey hbp hdp
  kept := fun j b key' value time hb hbkey hp => by
    rcases lookup_put hb with ⟨rfl, rfl⟩ | ⟨-, hb⟩
    · rw [hc] at hp
      cases hp
    · obtain ⟨hle, hent⟩ := h.kept j b key' value time hb hbkey hp
      refine ⟨hle, fun hlt => ?_⟩
      have hold := hent hlt
      change (s.cache.insert key ⟨now, none⟩).lookup key' = _
      rw [Table.lookup_insert, if_neg, hold]
      rintro rfl
      rw [hnone] at hold
      cases hold

theorem begin_spec (now : ℕ) (key : String) (cache : AddCache) {cache₀ : AddCache}
    (h₀ : cache₀ = cache.retain (fresh now cache)) :
    (∃ time result, cache₀.lookup key = some ⟨time, some result⟩ ∧
      beginManageAddIdempotentExecution now key cache = (.ok (some result), cache₀)) ∨
    (∃ time, cache₀.lookup key = some ⟨time, none⟩ ∧
      beginManageAddIdempotentExecution now key cache = (.error duplicateInProgress, cache₀)) ∨
    (cache₀.lookup key = none ∧
      beginManageAddIdempotentExecution now key cache = (.ok none, cache₀.insert key ⟨now, none⟩)) := by
  subst h₀
  rcases hent : (cache.retain (fresh now cache)).lookup key with _ | ⟨time, _ | result⟩
  · exact .inr (.inr ⟨rfl, by simp only [beginManageAddIdempotentExecution, hent]⟩)
  · exact .inr (.inl ⟨time, rfl, by simp only [beginManageAddIdempotentExecution, hent]⟩)
  · exact .inl ⟨time, result, rfl, by simp only [beginManageAddIdempotentExecution, hent]⟩

theorem Recorded.look (h : Recorded s) (ht : timely (.goOn i) s = true) (hi : s.calls.lookup i = some a) {now : ℕ}
    (hp : a.point = .locking now) {key : String} (hkey : a.key = some key) :
    Recorded { s with
      cache := (beginManageAddIdempotentExecution now key s.cache).2
      calls := s.calls.insert i { a with point := afterBegin (beginManageAddIdempotentExecution now key s.cache).1 } } := by
  have hretained := h.retain (h.read i a now hi hp) fun j b key hb hbkey hbp => fresh_of_timely ht hi hp hb hbkey hbp
  rcases begin_spec now key s.cache rfl with ⟨time, result, -, he⟩ | ⟨time, -, he⟩ | ⟨hnone, he⟩
  · rw [he]
    exact hretained.put (fun _ _ hu => by cases hu) (fun _ hr => by cases hr) fun _ _ _ _ hd => by cases hd
  · rw [he]
    exact hretained.put (fun _ _ hu => by cases hu) (fun _ hr => by cases hr) fun _ _ _ _ hd => by cases hd
  · rw [he]
    exact hretained.reserve hnone now hkey rfl

/-! ## Telling the cache of the end -/

theorem Recorded.settle (h : Recorded s) (hi : s.calls.lookup i = some a) {result : AddResult}
    (hp : a.point = .executed result) {key : String} (hkey : a.key = some key) :
    Recorded { s with
      cache := settled s.clock s.cache (some key) result
      calls := s.calls.insert i { a with point := .done result s.clock } } := by
  have hunsettled : a.point.unsettled = true := by rw [hp]; rfl
  obtain ⟨inserted, hentry⟩ := h.reserved i a key hi hkey hunsettled
  -- only the entry of this key changes
  have hframe : ∀ key', key' ≠ key → (settled s.clock s.cache (some key) result).lookup key' = s.cache.lookup key' := by
    intro key' hne
    cases result with
    | ok value => rw [settled, completeManageAddIdempotentExecution, Table.lookup_update, if_neg hne]
    | error e => rw [settled, abortManageAddIdempotentExecution, Table.lookup_erase, if_neg hne]
  constructor
  · intro j b now hb hbp
    rcases lookup_put hb with ⟨rfl, rfl⟩ | ⟨-, hb⟩
    · cases hbp
    · exact h.read j b now hb hbp
  · intro j b key' hb hbkey hbp
    rcases lookup_put hb with ⟨rfl, rfl⟩ | ⟨hne, hb⟩
    · cases hbp
    · have hother : key' ≠ key := fun he => hne (h.alone j i b a key hb hi (he ▸ hbkey) hkey hbp hunsettled)
      obtain ⟨time, hent⟩ := h.reserved j b key' hb hbkey hbp
      exact ⟨time, (hframe key' hother).trans hent⟩
  · intro j k b d key' hb hd hbkey hdkey hbp hdp
    rcases lookup_put hb with ⟨rfl, rfl⟩ | ⟨-, hb'⟩
    · cases hbp
    · rcases lookup_put hd with ⟨rfl, rfl⟩ | ⟨-, hd'⟩
      · cases hdp
      · exact h.alone j k b d key' hb' hd' hbkey hdkey hbp hdp
  · intro j b key' value time hb hbkey hbp
    rcases lookup_put hb with ⟨rfl, rfl⟩ | ⟨-, hb⟩
    · obtain rfl := Option.some.inj (hbkey.symm.trans hkey)
      obtain ⟨rfl, rfl⟩ := AddPoint.done.inj hbp
      refine ⟨le_rfl, fun _ => ?_⟩
      change (settled s.clock s.cache (some key') (.ok value)).lookup key' = _
      rw [settled, completeManageAddIdempotentExecution, Table.lookup_update, if_pos rfl, hentry]
      rfl
    · obtain ⟨hle, hent⟩ := h.kept j b key' value time hb hbkey hbp
      refine ⟨hle, fun hlt => ?_⟩
      have hother : key' ≠ key := by
        rintro rfl
        cases hentry.symm.trans (hent hlt)
      exact (hframe key' hother).trans (hent hlt)

/-! ## Runs -/

theorem Recorded.goOn (h : Recorded s) (ht : timely (.goOn i) s = true) (hstep : step (.goOn i) s = some s') :
    Recorded s' := by
  simp only [step, Option.bind_eq_bind, Option.bind_eq_some_iff, Option.some.injEq, Prod.exists] at hstep
  obtain ⟨a, hi, cache, point, hgo, rfl⟩ := hstep
  rw [AddCall.goOn.eq_def] at hgo
  split at hgo
  · next hp hkey =>
    obtain ⟨rfl, rfl⟩ := Prod.mk.inj (Option.some.inj hgo)
    refine h.put (fun key hk _ => ?_) (fun _ hr => by cases hr) fun _ _ _ _ hd => by cases hd
    cases hkey.symm.trans hk
  · next hp hkey =>
    obtain ⟨rfl, rfl⟩ := Prod.mk.inj (Option.some.inj hgo)
    refine h.put (fun _ _ hu => by cases hu) (fun now hr => ?_) fun _ _ _ _ hd => by cases hd
    exact (AddPoint.locking.inj hr).ge
  · next now key hp hkey =>
    obtain ⟨rfl, rfl⟩ := Prod.mk.inj (Option.some.inj hgo)
    exact h.look ht hi hp hkey
  · next result hp =>
    obtain ⟨rfl, rfl⟩ := Prod.mk.inj (Option.some.inj hgo)
    cases hkey : a.key with
    | none =>
      refine h.put (fun _ _ hu => by cases hu) (fun _ hr => by cases hr) fun key _ _ hk _ => ?_
      cases hkey.symm.trans hk
    | some key => exact h.settle hi hp hkey
  · cases hgo

theorem recorded_step {l : AddLabel} (h : Recorded s) (ht : timely l s = true) (hstep : step l s = some s') :
    Recorded s' := by
  cases l with
  | passes time =>
    obtain rfl := Option.some.inj hstep
    exact h.passes time
  | call i caller invocation =>
    simp only [step, Option.ite_none_left_eq_some, Option.some.injEq] at hstep
    obtain ⟨-, rfl⟩ := hstep
    exact h.put (fun _ _ hu => by cases hu) (fun _ hr => by cases hr) fun _ _ _ _ hd => by cases hd
  | goOn i => exact h.goOn ht hstep
  | ends i result =>
    simp only [step, Option.bind_eq_bind, Option.bind_eq_some_iff] at hstep
    obtain ⟨a, hi, hstep⟩ := hstep
    split at hstep
    · next hp =>
      obtain rfl := Option.some.inj hstep
      refine h.put (fun key hk _ => ⟨a, hi, hk, by rw [hp]; rfl⟩) (fun _ hr => by cases hr) fun _ _ _ _ hd => by cases hd
    · cases hstep

theorem Recorded.apart (h : Recorded s) : s.Apart := fun i j a b key ha hb hakey hbkey hap hbp =>
  h.alone i j a b key ha hb hakey hbkey (by rw [hap]; rfl) (by rw [hbp]; rfl)

theorem Recorded.remembered (h : Recorded s) : s.Remembered := by
  intro i j a b key value time now ha hb hakey hbkey hap hlt hbp
  have hent := (h.kept i a key value time ha hakey hap).2 hlt
  have hage : now - time ≤ cacheTtl := by
    have hnow := h.read j b now hb hbp
    omega
  have hretained : (s.cache.retain (fresh now s.cache)).lookup key = some ⟨time, some value⟩ := by
    rw [lookup_retain_fresh, hent]
    exact Option.filter_eq_some_iff.mpr ⟨rfl, decide_eq_true hage⟩
  have hbegin : beginManageAddIdempotentExecution now key s.cache =
      (.ok (some value), s.cache.retain (fresh now s.cache)) := by
    simp only [beginManageAddIdempotentExecution, hretained]
  have hgo : b.goOn s.clock s.cache = some (s.cache.retain (fresh now s.cache), .answered (.ok value)) := by
    simp only [AddCall.goOn, hbp, hbkey, hbegin, afterBegin]
  have hstep : step (.goOn j) s = some { s with
      cache := s.cache.retain (fresh now s.cache)
      calls := s.calls.insert j { b with point := .answered (.ok value) } } := by
    simp only [step, hb, hgo, Option.bind_eq_bind, Option.bind_some]
  exact ⟨_, hstep, AList.lookup_insert _⟩

/-- As long as the cache is not looked at while the entry of a running execution has expired, an invocation id has one
execution at a time, and none while a success of it is recent. -/
theorem one_spawn_per_invocation (h : Reaches step (fun l s => timely l s = true) start s) : s.Apart ∧ s.Remembered :=
  have hrecorded : Recorded s := h.invariant recorded_start fun _ _ _ hr ht hstep => recorded_step hr ht hstep
  ⟨hrecorded.apart, hrecorded.remembered⟩

/-- The retry of a call that succeeded. -/
theorem one_spawn_per_invocation_retried : ∃ s, Reaches step (fun l s => timely l s = true) start s ∧
    (s.calls.lookup 1).map AddCall.point = some (.answered (.ok (.str "member"))) ∧ s.Apart ∧ s.Remembered := by
  obtain ⟨s, hs, hpoint⟩ := exists_reaches_of_runAll (s := start) step timely
    [.call 0 "lead" (some "add"), .goOn 0, .goOn 0, .ends 0 (.ok (.str "member")), .goOn 0, .passes 1,
      .call 1 "lead" (some " add "), .goOn 1, .goOn 1]
    (fun s : ManageAdds => (s.calls.lookup 1).map AddCall.point) (some (.answered (.ok (.str "member"))))
    (by decide +kernel)
  exact ⟨s, hs, hpoint, one_spawn_per_invocation hs⟩

/-- A retry that comes while an execution outlasts its entry is executed too. -/
theorem not_one_spawn_per_invocation :
    ¬ ∀ s, Reaches step (fun _ _ => True) start s → s.Apart ∧ s.Remembered := by
  intro h
  obtain ⟨s, hs, hrun⟩ := exists_reaches_of_runAll (s := start) step (fun _ _ => true)
    [.call 0 "lead" (some "add"), .goOn 0, .goOn 0, .passes (cacheTtl + 1), .call 1 "lead" (some "add"), .goOn 1, .goOn 1]
    (fun s : ManageAdds => (s.calls.lookup 0, s.calls.lookup 1))
    (some ⟨"lead", some "add", .executing⟩, some ⟨"lead", some "add", .executing⟩) (by decide +kernel)
  obtain ⟨h₀, h₁⟩ := Prod.mk.inj hrun
  have hkey : (AddCall.mk "lead" (some "add") .executing).key = some "v1:lead:gg_team_manage:add" := by decide +kernel
  have hsame := (h s (hs.mono fun _ _ _ => trivial)).1 0 1 _ _ _ h₀ h₁ hkey hkey rfl rfl
  cases hsame

end ManageAdds

end Gooselake.Tools

import Gooselake.Library.Cursors
import Gooselake.TeamComms.MessageLists

/-!
`list_messages`: a page of the messages of a team, and a reader that follows the cursors while the service goes on.
-/

namespace Gooselake.TeamComms

open Gooselake.Core Data Library Library.Exec
open Gooselake.Runtime (Manager)

set_option autoImplicit false

/-! ## list_messages -/

structure TeamListMessagesRequest where
  teamId : String
  cursor : Option String
  limit : Option ℕ
  deriving DecidableEq, Repr

structure TeamListMessagesResponse where
  messages : List TeamMessageRecord
  nextCursor : Option String
  deriving DecidableEq, Repr

def cursorNotFound (cursorId teamId : String) : RuntimeError :=
  .invalidState s!"cursor message {cursorId} not found for team {teamId}"

/-- The limit of a page, `clamp`ed. -/
def pageLimit (limit : Option ℕ) : ℕ := min (max (limit.getD 100) 1) 500

def pageStart (ids : List String) (teamId : String) : Option String → Except RuntimeError ℕ
  | some cursorId =>
    match ids.findIdx? fun id => id = cursorId with
    | some idx => .ok (idx + 1)
    | none => .error (cursorNotFound cursorId teamId)
  | none => .ok 0

def pageFrom (s : TeamCommsState) (ids : List String) (start limit : ℕ) : TeamListMessagesResponse :=
  let page := ((ids.drop start).take limit).filterMap fun id => s.messages.lookup id
  let hasMore := decide (page.length < ids.length - start)
  ⟨page, if hasMore then page.getLast?.map TeamMessageRecord.id else none⟩

def listMessages (request : TeamListMessagesRequest) : CommsM TeamListMessagesResponse := do
  ensureEnabled
  let teamId ← ofExcept (normalizeNonEmpty request.teamId "team_id")
  let s := (← get).state
  let ids := (s.teamMessageIds.lookup teamId).getD []
  let start ← ofExcept (pageStart ids teamId (normalizedNonEmpty request.cursor))
  return pageFrom s ids start (pageLimit request.limit)

theorem pageLimit_pos (limit : Option ℕ) : 0 < pageLimit limit := by
  unfold pageLimit
  omega

/-! ## A page of the list -/

section

variable {c : Comms} {argument teamId : String}

theorem Posted.filterMap_ids {s : TeamCommsState} (h : Posted s) {l : List TeamMessageRecord}
    (hl : ∀ m ∈ l, m ∈ messagesOf s teamId) :
    (l.map TeamMessageRecord.id).filterMap (fun id => s.messages.lookup id) = l := by
  induction l with
  | nil => rfl
  | cons m l ih =>
    obtain ⟨id, hid, hm⟩ := List.mem_filterMap.mp (hl m (List.mem_cons_self ..))
    obtain ⟨m', hm', -, he, -⟩ := h.found teamId id hid
    obtain rfl := Option.some.inj (hm.symm.trans hm')
    rw [List.map_cons, List.filterMap_cons, he, hm, ih fun m' hmem => hl m' (List.mem_cons_of_mem _ hmem)]

def pageAnswer (teamId : String) (cursor : Option String) :
    Option (List TeamMessageRecord × Option String) → Except RuntimeError TeamListMessagesResponse
  | some answer => .ok ⟨answer.1, answer.2⟩
  | none => .error (cursorNotFound (cursor.getD "") teamId)

theorem Posted.pageFrom_eq {s : TeamCommsState} (h : Posted s) (teamId : String) (start limit : ℕ) :
    pageFrom s (messageIds s teamId) start limit =
      let page := ((messagesOf s teamId).drop start).take limit
      ⟨page, if page.length < (messagesOf s teamId).length - start then page.getLast?.map TeamMessageRecord.id
        else none⟩ := by
  have hpage : (((messageIds s teamId).drop start).take limit).filterMap (fun id => s.messages.lookup id) =
      ((messagesOf s teamId).drop start).take limit := by
    rw [← h.map_ids, ← List.map_drop, ← List.map_take]
    exact h.filterMap_ids fun m hm => List.mem_of_mem_drop (List.mem_of_mem_take hm)
  have hlength : (messageIds s teamId).length = (messagesOf s teamId).length := by
    rw [← h.map_ids, List.length_map]
  simp only [pageFrom, hpage, hlength, decide_eq_true_eq]

theorem Posted.pageStart_eq {s : TeamCommsState} (h : Posted s) (teamId : String) (cursor : Option String) :
    pageStart (messageIds s teamId) teamId cursor =
      match startAfter TeamMessageRecord.id (messagesOf s teamId) cursor with
      | some start => .ok start
      | none => .error (cursorNotFound (cursor.getD "") teamId) := by
  cases cursor with
  | none => rfl
  | some cursorId =>
    have hindex : ((messageIds s teamId).findIdx? fun id => id = cursorId) =
        (messagesOf s teamId).findIdx? fun m => m.id = cursorId := by
      rw [← h.map_ids, List.findIdx?_map]
      rfl
    rw [pageStart, hindex, startAfter]
    cases (messagesOf s teamId).findIdx? fun m => m.id = cursorId <;> rfl

theorem listMessages_result (h : Posted c.state) (henabled : c.config.enabled = true)
    (hteam : normalizeNonEmpty argument "team_id" = .ok teamId) (cursor : Option String) (limit : Option ℕ) :
    (listMessages ⟨argument, cursor, limit⟩).result c =
      (pageAnswer teamId (normalizedNonEmpty cursor) (cursorPage TeamMessageRecord.id (messagesOf c.state teamId)
        (normalizedNonEmpty cursor) (pageLimit limit)), c) := by
  have hstart := h.pageStart_eq teamId (normalizedNonEmpty cursor)
  have hafter : After (listMessages ⟨argument, cursor, limit⟩) c fun r c' => (r, c') =
      (pageAnswer teamId (normalizedNonEmpty cursor) (cursorPage TeamMessageRecord.id (messagesOf c.state teamId)
        (normalizedNonEmpty cursor) (pageLimit limit)), c) := by
    simp only [listMessages, after_bind_iff, after_ensureEnabled, henabled, after_ofExcept, hteam, after_get]
    refine ⟨fun _ => ?_, fun hoff => by cases hoff⟩
    rw [show (c.state.teamMessageIds.lookup teamId).getD [] = messageIds c.state teamId from rfl, hstart, cursorPage]
    cases startAfter TeamMessageRecord.id (messagesOf c.state teamId) (normalizedNonEmpty cursor) with
    | none => rfl
    | some start =>
      refine (after_pure _ _ _).mpr ?_
      rw [h.pageFrom_eq]
      rfl
  exact hafter.out

theorem normalizedNonEmpty_numbered (n : ℕ) :
    normalizedNonEmpty (some (numbered "msg" n)) = some (numbered "msg" n) := by
  have htrim : trim (numbered "msg" n) = numbered "msg" n := by
    refine trim_of_solid fun ch hch => ?_
    rw [toList_numbered, List.mem_append, List.mem_cons] at hch
    rcases hch with hch | rfl | hch
    · have hsolid : ("msg".toList.all fun c => !isWhitespace c) = true := by decide
      simpa using List.all_eq_true.mp hsolid ch hch
    · decide
    · refine isWhitespace_of_isAlphanum ?_
      have hdigit := isDigit_of_mem hch
      simp [Char.isAlphanum, hdigit]
  have hne : numbered "msg" n ≠ "" := by
    intro he
    have hlist := congrArg String.toList he
    rw [toList_numbered] at hlist
    exact List.cons_ne_nil _ _ hlist
  rw [normalizedNonEmpty, Option.bind_some, trimmedNonEmpty, htrim, if_neg hne]

theorem Posted.normalizedNonEmpty_id {s : TeamCommsState} (h : Posted s) {m : TeamMessageRecord}
    (hm : m ∈ messagesOf s teamId) : normalizedNonEmpty (some m.id) = some m.id := by
  obtain ⟨id, hid, hl⟩ := List.mem_filterMap.mp hm
  obtain ⟨m', hm', -, he, n, hn⟩ := h.found teamId id hid
  obtain rfl := Option.some.inj (hl.symm.trans hm')
  rw [he, hn, normalizedNonEmpty_numbered]

end

/-! ## A reader beside the service -/

structure Reading where
  service : Service
  reader : Following TeamMessageRecord String

inductive ReadLabel where
  | serve (l : Label)
  | page (limit : Option ℕ)

namespace Reading

def answer (s : Reading) : Except RuntimeError TeamListMessagesResponse × Comms → Option Reading
  | (.ok answer, comms) => some
      { service := { s.service with comms := comms }
        reader := s.reader.turn (answer.messages, answer.nextCursor) }
  | (.error _, _) => none

def step (argument : String) : ReadLabel → Reading → Option Reading
  | .serve l, s => (s.service.step l).map fun service => { s with service := service }
  | .page limit, s => do
    let cursor ← s.reader.next
    s.answer ((listMessages ⟨argument, cursor, limit⟩).result s.service.comms)

def start (service : Service) : Reading := ⟨service, .start TeamMessageRecord String⟩

end Reading

def ReadLabel.keeps (teamId : String) : ReadLabel → Prop
  | .serve l => ¬ l.deletes teamId
  | .page _ => True

structure PagesLaw (argument teamId : String) (s : Reading) : Prop where
  /-- No message is listed twice, and those visited are the first ones of the list, in its order. -/
  distinct : ((messagesOf s.service.comms.state teamId).map TeamMessageRecord.id).Nodup
  visited : s.reader.visited <+: messagesOf s.service.comms.state teamId
  /-- The next page is answered, and is the last one exactly when the client has then visited the whole list. -/
  answered : ∀ cursor limit, s.reader.next = some cursor →
    ∃ s', Reading.step argument (.page limit) s = some s' ∧ s'.service = s.service ∧
      s'.reader.pages = s.reader.pages + 1 ∧
      (s'.reader.next = none ↔ s'.reader.visited = messagesOf s.service.comms.state teamId)
  /-- The client is done after as many pages as there are messages, or after one. -/
  stops : max 1 (messagesOf s.service.comms.state teamId).length ≤ s.reader.pages → s.reader.next = none
  /-- A page is a part of the list, and ends where the list does exactly when no cursor is returned. -/
  ends : ∀ cursor limit answer c', (listMessages ⟨argument, cursor, limit⟩).result s.service.comms = (.ok answer, c') →
    c' = s.service.comms ∧ ∃ before after,
      messagesOf s.service.comms.state teamId = before ++ answer.messages ++ after ∧
      (answer.nextCursor = none ↔ after = [])
  unknown : ∀ cursor limit cursorId, normalizedNonEmpty cursor = some cursorId →
    cursorId ∉ (messagesOf s.service.comms.state teamId).map TeamMessageRecord.id →
      (listMessages ⟨argument, cursor, limit⟩).result s.service.comms =
        (.error (cursorNotFound cursorId teamId), s.service.comms)

structure Reading.Sound (teamId : String) (s : Reading) : Prop where
  enabled : s.service.comms.config.enabled = true
  messages : MessagesKept s.service.comms
  reader : s.reader.Sound TeamMessageRecord.id (messagesOf s.service.comms.state teamId)

section

variable {argument teamId : String} {s s' : Reading}

theorem Reading.Sound.cursor (h : s.Sound teamId) {cursor : Option String} (hnext : s.reader.next = some cursor) :
    normalizedNonEmpty cursor = cursor := by
  rw [h.reader.cursor cursor hnext]
  cases hlast : s.reader.visited.getLast? with
  | none => rfl
  | some m => exact h.messages.state.normalizedNonEmpty_id (h.reader.visited.subset (List.mem_of_getLast? hlast))

theorem Reading.Sound.page (h : s.Sound teamId) (hteam : normalizeNonEmpty argument "team_id" = .ok teamId)
    {cursor : Option String} (hnext : s.reader.next = some cursor) (limit : Option ℕ) :
    ∃ s', Reading.step argument (.page limit) s = some s' ∧ s'.service = s.service ∧
      s'.reader.pages = s.reader.pages + 1 ∧ s'.Sound teamId ∧
      (s'.reader.next = none ↔ s'.reader.visited = messagesOf s.service.comms.state teamId) := by
  obtain ⟨answer, hpage, hsound, hend⟩ := h.reader.turn (h.messages.state.nodup_ids teamId) hnext (pageLimit_pos limit)
  have hresult := listMessages_result h.messages.state h.enabled hteam cursor limit
  rw [h.cursor hnext, hpage] at hresult
  refine ⟨⟨s.service, s.reader.turn answer⟩, ?_, rfl, rfl, ⟨h.enabled, h.messages, hsound⟩, hend⟩
  simp only [Reading.step, hnext, Option.bind_eq_bind, Option.bind_some, hresult, pageAnswer, Reading.answer]

theorem Reading.Sound.step (h : s.Sound teamId) (hteam : normalizeNonEmpty argument "team_id" = .ok teamId)
    {l : ReadLabel} (hkeeps : l.keeps teamId) (hs : Reading.step argument l s = some s') : s'.Sound teamId := by
  cases l with
  | serve l =>
    obtain ⟨service, hstep, rfl⟩ := Option.map_eq_some_iff.mp hs
    have hr := (step_stepped hstep).reposted
    refine ⟨?_, h.messages.reposted hr, h.reader.grow (hr.lists.grows h.messages.state hkeeps)⟩
    rw [hr.config]
    exact h.enabled
  | page limit =>
    have hsome := hs
    simp only [Reading.step, Option.bind_eq_bind, Option.bind_eq_some_iff] at hs
    obtain ⟨cursor, hnext, -⟩ := hs
    obtain ⟨t, ht, -, -, hsound, -⟩ := h.page hteam hnext limit
    obtain rfl := Option.some.inj (hsome.symm.trans ht)
    exact hsound

theorem Reading.Sound.law (h : s.Sound teamId) (hteam : normalizeNonEmpty argument "team_id" = .ok teamId) :
    PagesLaw argument teamId s where
  distinct := h.messages.state.nodup_ids teamId
  visited := h.reader.visited
  answered cursor limit hnext := by
    obtain ⟨t, ht, hservice, hpages, -, hend⟩ := h.page hteam hnext limit
    exact ⟨t, ht, hservice, hpages, hend⟩
  stops := h.reader.stops
  ends cursor limit answer c' hanswer := by
    rw [listMessages_result h.messages.state h.enabled hteam] at hanswer
    obtain ⟨hok, rfl⟩ := Prod.mk.inj hanswer
    cases hpage : cursorPage TeamMessageRecord.id (messagesOf s.service.comms.state teamId)
        (normalizedNonEmpty cursor) (pageLimit limit) with
    | none =>
      rw [hpage] at hok
      cases hok
    | some page =>
      rw [hpage] at hok
      obtain rfl := Except.ok.inj hok
      exact ⟨rfl, cursorPage_end TeamMessageRecord.id (pageLimit_pos limit) hpage⟩
  unknown cursor limit cursorId hcursor hunknown := by
    have hstart := (startAfter_eq_none_iff TeamMessageRecord.id _ cursorId).mpr hunknown
    rw [listMessages_result h.messages.state h.enabled hteam, hcursor, cursorPage, hstart]
    rfl

end

/-- In every life of the service, while the team is not deleted and whatever else is done, a client that follows the
cursors reads the messages of the team as the law says. -/
theorem messages_paged {runtime : Manager} {faults : List Bool} {config : RuntimeTeamCommsConfig} {nonce : String}
    {service : Service} (hlife : Reaches Service.live (fun _ _ => True)
      (Service.start (Comms.new runtime (Store.empty faults) config nonce)) service)
    (henabled : service.comms.config.enabled = true) {argument teamId : String}
    (hteam : normalizeNonEmpty argument "team_id" = .ok teamId) {s : Reading}
    (hs : Reaches (Reading.step argument) (fun l _ => l.keeps teamId) (Reading.start service) s) :
    PagesLaw argument teamId s := by
  have hsound : s.Sound teamId := by
    refine hs.invariant (I := fun s => s.Sound teamId) ?_ fun l s t h hkeeps hstep => h.step hteam hkeeps hstep
    exact ⟨henabled, messagesKept_lives hlife, Following.sound_start TeamMessageRecord.id _⟩
  exact hsound.law hteam

def ReadLabel.deletesNone : ReadLabel → Bool
  | .serve (.start _ (.deleteTeam _)) => false
  | _ => true

theorem ReadLabel.keeps_of_deletesNone {l : ReadLabel} (h : l.deletesNone = true) (teamId : String) :
    l.keeps teamId := by
  cases l with
  | page limit => trivial
  | serve l =>
    intro hdeletes
    unfold Label.deletes at hdeletes
    split at hdeletes
    · cases h
    · exact hdeletes

/-- Two messages, a page of one, a third message, then pages of one: the client reads all three. -/
theorem messages_paged_grown : ∃ s : Reading, s.reader.visited.map TeamMessageRecord.id = ["msg_1", "msg_2", "msg_3"] ∧
    s.reader.next = none ∧ PagesLaw " team_1" "team_1" s := by
  obtain ⟨s, hs, he⟩ := exists_reaches_of_runAll (Reading.step " team_1") (fun l _ => l.deletesNone)
    ((newTeam ++ sendsMessage 1 ++ sendsMessage 2).map .serve ++ [.page (some 0)] ++ (sendsMessage 3).map .serve ++
      [.page (some 1), .page (some 0)])
    (fun s => (s.reader.visited.map TeamMessageRecord.id, s.reader.next))
    (["msg_1", "msg_2", "msg_3"], none) (s := Reading.start (Service.fresh [])) (by decide +kernel)
  obtain ⟨hvisited, hnext⟩ := Prod.mk.inj he
  have hkept := hs.mono fun l _ hl => ReadLabel.keeps_of_deletesNone hl "team_1"
  exact ⟨s, hvisited, hnext, messages_paged .refl rfl (by decide) hkept⟩

end Gooselake.TeamComms

import Gooselake.Http.Events

/-!
What a subscriber has been given. While it replays, the pages read and what comes after the replay
cursor are the log after its cursor; while it streams, what it was given, what is queued and what is
on the way to it are that log.
-/

namespace Gooselake.Http

open Gooselake.Core Data Library

set_option autoImplicit false

/-! ## Records and their streams -/

abbrev seqOf (e : RuntimeEventRecord) : ℤ := e.seq

def Shaped (source : Source) (e : NewRuntimeEvent) : Prop :=
  match source with
  | .runtime => (e.scope = .session ∧ e.sessionId = some e.scopeId) ∨ (e.scope = .system ∧ e.sessionId = none)
  | .processes => e.scope = .process

theorem shaped_event {o : Origin} {source : Source} (h : o.source = some source) (d : Draft) :
    Shaped source (o.event d) := by
  cases o <;> cases h
  · exact .inl ⟨rfl, rfl⟩
  · exact .inr ⟨rfl, rfl⟩
  · rfl

def EventStream.log (stream : EventStream) (store : Store) : List RuntimeEventRecord :=
  scopeLog stream.scope.1 stream.scope.2 store.events

theorem EventStream.mem_log {stream : EventStream} {store : Store} {e : RuntimeEventRecord} :
    e ∈ stream.log store ↔ e ∈ store.events ∧ e.scope = stream.scope.1 ∧ e.scopeId = stream.scope.2 := by
  simp [EventStream.log, scopeLog, List.mem_filter]

theorem EventStream.live_iff {stream : EventStream} {e : RuntimeEventRecord}
    (h : Shaped stream.source e.toNewRuntimeEvent) :
    stream.live e = true ↔ e.scope = stream.scope.1 ∧ e.scopeId = stream.scope.2 := by
  cases stream with
  | session sessionId =>
    simp only [EventStream.live, EventStream.scope, decide_eq_true_eq]
    rcases h with ⟨hscope, hsession⟩ | ⟨hscope, hsession⟩
    · rw [hscope, hsession]
      simp
    · rw [hscope, hsession]
      simp
  | process processId => simp [EventStream.live, EventStream.scope]

theorem source_of_scope {o : Origin} {stream : EventStream} {d : Draft} (h : (o.event d).scope = stream.scope.1) :
    o.source = some stream.source := by
  cases o <;> cases stream <;> first | rfl | cases h

/-! ## The invariant -/

namespace Streams

def onTheWay (s : Streams) (sub : Subscriber) (watermark : ℤ) : List RuntimeEventRecord :=
  ((s.channel sub.stream.source).sent.drop sub.next ++ (s.channel sub.stream.source).unsent).filter
    (sub.passes watermark)

def wanted (s : Streams) (sub : Subscriber) : List RuntimeEventRecord :=
  (sub.stream.log s.store).filter (isAfter seqOf sub.cursor)

structure Replaying (s : Streams) (sub : Subscriber) (replayCursor : Option ℤ) (events : List RuntimeEventRecord) :
    Prop where
  emitted : sub.emitted = []
  split : events ++ (sub.stream.log s.store).filter (isAfter seqOf replayCursor) = s.wanted sub
  cursor : replayCursor = sub.cursor ∨
    ∃ e ∈ sub.stream.log s.store, replayCursor = some e.seq ∧ isAfter seqOf sub.cursor e = true

structure Streaming (s : Streams) (sub : Subscriber) (queue : List RuntimeEventRecord) (watermark : ℤ) : Prop where
  split : sub.emitted ++ (queue ++ s.onTheWay sub watermark).map seqOf = (s.wanted sub).map seqOf
  /-- For the events to come, being after the cursor and above the watermark are the same. -/
  watermark : ∀ n, (∀ e ∈ sub.stream.log s.store, e.seq < n) → 0 < n →
    ((∀ c, sub.cursor = some c → c < n) ↔ watermark < n)

structure SubscriberSound (s : Streams) (sub : Subscriber) : Prop where
  limit : 0 < sub.limit
  next : sub.next ≤ (s.channel sub.stream.source).sent.length
  replaying : ∀ replayCursor events, sub.phase = .replaying replayCursor events → s.Replaying sub replayCursor events
  streaming : ∀ queue watermark, sub.phase = .streaming queue watermark → s.Streaming sub queue watermark

structure Sound (s : Streams) : Prop where
  sequenced : Sequenced s.store.events
  stored : ∀ source e, e ∈ (s.channel source).sent ∨ e ∈ (s.channel source).unsent → e ∈ s.store.events
  shaped : ∀ source e, e ∈ (s.channel source).sent ∨ e ∈ (s.channel source).unsent → Shaped source e.toNewRuntimeEvent
  subscriber : ∀ sub, s.subscriber = some sub → s.SubscriberSound sub

theorem sound_empty (faults : List Bool) (runtimeCapacity processCapacity : ℕ) :
    (empty faults runtimeCapacity processCapacity).Sound where
  sequenced := .nil
  stored source e h := by cases source <;> simp [empty, channel] at h
  shaped source e h := by cases source <;> simp [empty, channel] at h
  subscriber _ h := by cases h

/-! ## Replay -/

variable {s : Streams} {sub : Subscriber}

theorem isAfter_iff {cursor : Option ℤ} {e : RuntimeEventRecord} :
    isAfter seqOf cursor e = true ↔ ∀ c, cursor = some c → c < e.seq := by
  cases cursor <;> simp [isAfter]

theorem Sound.onTheWay_eq_nil (h : s.Sound) {watermark : ℤ}
    (hlog : ∀ e ∈ sub.stream.log s.store, e.seq ≤ watermark) : s.onTheWay sub watermark = [] := by
  rw [onTheWay, List.filter_eq_nil_iff]
  intro e he hpass
  have hmem : e ∈ (s.channel sub.stream.source).sent ∨ e ∈ (s.channel sub.stream.source).unsent :=
    (List.mem_append.mp he).imp_left List.mem_of_mem_drop
  simp only [Subscriber.passes, Bool.and_eq_true, decide_eq_true_eq] at hpass
  have hscope := (EventStream.live_iff (h.shaped _ e hmem)).mp hpass.1
  have := hlog e (EventStream.mem_log.mpr ⟨h.stored _ e hmem, hscope⟩)
  omega

theorem Sound.toStreaming (h : s.Sound) {events : List RuntimeEventRecord} {watermark : ℤ}
    (hemitted : sub.emitted = []) (hevents : events = s.wanted sub)
    (hlog : ∀ e ∈ sub.stream.log s.store, e.seq ≤ watermark)
    (hmark : ∀ n, (∀ e ∈ sub.stream.log s.store, e.seq < n) → 0 < n →
      ((∀ c, sub.cursor = some c → c < n) ↔ watermark < n)) : s.Streaming sub events watermark where
  split := by rw [hemitted, h.onTheWay_eq_nil hlog, hevents, List.append_nil, List.nil_append]
  watermark := hmark

theorem watermark_of_mem {x : RuntimeEventRecord} (hx : x ∈ sub.stream.log s.store)
    (hafter : isAfter seqOf sub.cursor x = true) (n : ℤ) (hn : ∀ e ∈ sub.stream.log s.store, e.seq < n) :
    (∀ c, sub.cursor = some c → c < n) ↔ x.seq < n := by
  have hlt := hn x hx
  refine ⟨fun _ => hlt, fun _ c hc => ?_⟩
  have := isAfter_iff.mp hafter c hc
  omega

theorem Sound.page (h : s.Sound) {sub' : Subscriber} (hsub : s.SubscriberSound sub)
    (hpage : sub.page s.store = some sub') : s.SubscriberSound sub' := by
  unfold Subscriber.page at hpage
  split at hpage
  · next replayCursor events hphase =>
    have hr := hsub.replaying replayCursor events hphase
    have hincreasing : Increasing seqOf (sub.stream.log s.store) := h.sequenced.increasing _ _
    have hlist : s.store.listRuntimeEvents (some sub.stream.scope) replayCursor sub.limit =
        pageAfter seqOf replayCursor sub.limit (sub.stream.log s.store) := listRuntimeEvents_scope h.sequenced _ _ _ _
    rw [hlist] at hpage
    dsimp only at hpage
    split at hpage
    · next hempty =>
      -- an empty page: nothing is left after the replay cursor
      obtain rfl := Option.some.inj hpage
      rw [List.getLast?_eq_none_iff] at hempty
      have hrest : (sub.stream.log s.store).filter (isAfter seqOf replayCursor) = [] := by
        rw [← pageAfter_of_short (by rw [hempty]; exact hsub.limit), hempty]
      have hevents : events = s.wanted sub := by rw [← hr.split, hrest, List.append_nil]
      refine ⟨hsub.limit, hsub.next, fun _ _ h => (by cases h), fun queue watermark hq => ?_⟩
      obtain ⟨rfl, rfl⟩ := Phase.streaming.inj hq
      have hnone : ∀ e ∈ sub.stream.log s.store, ¬ isAfter seqOf replayCursor e = true := by
        intro e he ha
        have : e ∈ (sub.stream.log s.store).filter (isAfter seqOf replayCursor) := List.mem_filter.mpr ⟨he, ha⟩
        rw [hrest] at this
        cases this
      refine h.toStreaming hr.emitted hevents (fun e he => ?_) (fun n hn hpos => ?_)
      · have := hnone e he
        rw [isAfter_iff] at this
        push Not at this
        obtain ⟨c, hc, hle⟩ := this
        simpa [hc] using hle
      · rcases hr.cursor with hc | ⟨x, hx, hc, hafter⟩
        · cases hcur : sub.cursor with
          | none => simpa [hc, hcur] using hpos
          | some c => simp [hc, hcur]
        · rw [hc]
          exact watermark_of_mem hx hafter n hn
    · next last hlast =>
      have hmem : last ∈ s.wanted sub := by
        rw [← hr.split]
        exact List.mem_append_right _ (List.mem_of_mem_take (List.mem_of_getLast? hlast))
      obtain ⟨hlog, hafter⟩ := List.mem_filter.mp hmem
      have hsplit := pageAfter_append hincreasing hlast
      split at hpage
      · next hshort =>
        -- a short page: it is all that is left
        obtain rfl := Option.some.inj hpage
        have hall := pageAfter_of_short hshort
        refine ⟨hsub.limit, hsub.next, fun _ _ h => (by cases h), fun queue watermark hq => ?_⟩
        obtain ⟨rfl, rfl⟩ := Phase.streaming.inj hq
        refine h.toStreaming hr.emitted ?_ (fun e he => ?_) (fun n hn _ => watermark_of_mem hlog hafter n hn)
        · rw [hall, hr.split]
          rfl
        · by_contra hlt
          have : e ∈ (sub.stream.log s.store).filter (isAfter seqOf (some (seqOf last))) :=
            List.mem_filter.mpr ⟨he, by simpa [isAfter] using hlt⟩
          rw [← hall] at hsplit
          rw [List.append_right_eq_self.mp hsplit] at this
          cases this
      · obtain rfl := Option.some.inj hpage
        refine ⟨hsub.limit, hsub.next, fun rc events' hq => ?_, fun _ _ h => (by cases h)⟩
        obtain ⟨rfl, rfl⟩ := Phase.replaying.inj hq
        refine ⟨hr.emitted, ?_, .inr ⟨last, hlog, rfl, hafter⟩⟩
        rw [List.append_assoc]
        exact (congrArg (events ++ ·) hsplit).trans hr.split
  · cases hpage

/-! ## The client and the channel -/

theorem Sound.emit {sub' : Subscriber} (hsub : s.SubscriberSound sub) (hemit : sub.emit = some sub') :
    s.SubscriberSound sub' := by
  unfold Subscriber.emit at hemit
  split at hemit
  · next e queue watermark hphase =>
    obtain rfl := Option.some.inj hemit
    have hs := hsub.streaming _ _ hphase
    refine ⟨hsub.limit, hsub.next, nofun, fun q w hq => ?_⟩
    obtain ⟨rfl, rfl⟩ := Phase.streaming.inj hq
    refine ⟨Eq.trans ?_ hs.split, hs.watermark⟩
    rw [List.append_assoc]
    rfl
  · cases hemit

/-- What a receive of a subscriber must find: a lagging receiver skips nothing the stream is to give. -/
def receiveMeets (s : Streams) (sub : Subscriber) : Bool :=
  match sub.phase with
  | .streaming _ watermark =>
    let sent := (s.channel sub.stream.source).sent
    ((sent.drop sub.next).take (sent.length - s.capacity sub.stream.source - sub.next)).all fun e =>
      !sub.passes watermark e
  | .replaying _ _ => true

theorem Sound.receive {sub' : Subscriber} (hsub : s.SubscriberSound sub) (hmeets : s.receiveMeets sub = true)
    (hreceive : sub.receive (s.channel sub.stream.source).sent (s.capacity sub.stream.source) = some sub') :
    s.SubscriberSound sub' := by
  unfold Subscriber.receive at hreceive
  split at hreceive
  · next watermark hphase =>
    have hs := hsub.streaming _ _ hphase
    split at hreceive
    · next hlag =>
      -- the skipped values are none of the stream's
      obtain rfl := Option.some.inj hreceive
      refine ⟨hsub.limit, by simp, fun _ _ hq => (by rw [hphase] at hq; cases hq), fun q w hq => ?_⟩
      obtain ⟨rfl, rfl⟩ := Phase.streaming.inj (hphase.symm.trans hq)
      refine ⟨Eq.trans ?_ hs.split, hs.watermark⟩
      have hskip : ((s.channel sub.stream.source).sent.drop sub.next).filter (sub.passes watermark) =
          ((s.channel sub.stream.source).sent.drop
            ((s.channel sub.stream.source).sent.length - s.capacity sub.stream.source)).filter
                (sub.passes watermark) := by
        simp only [receiveMeets, hphase, List.all_eq_true, Bool.not_eq_true'] at hmeets
        rw [← List.take_append_drop ((s.channel sub.stream.source).sent.length -
          s.capacity sub.stream.source - sub.next) ((s.channel sub.stream.source).sent.drop sub.next),
          List.filter_append, List.drop_drop]
        rw [List.filter_eq_nil_iff.mpr fun e he => by rw [hmeets e he]; exact nofun, List.nil_append]
        congr 2
        omega
      simp only [onTheWay, List.filter_append]
      rw [hskip]
      rfl
    · simp only [Option.bind_eq_bind, Option.bind_eq_some_iff, Option.some.injEq] at hreceive
      obtain ⟨e, he, rfl⟩ := hreceive
      obtain ⟨hlt, rfl⟩ := List.getElem?_eq_some_iff.mp he
      refine ⟨hsub.limit, hlt, fun _ _ hq => (by rw [hphase] at hq; cases hq), fun q w hq => ?_⟩
      obtain ⟨rfl, rfl⟩ := Phase.streaming.inj (hphase.symm.trans hq)
      refine ⟨Eq.trans ?_ hs.split, hs.watermark⟩
      simp only [onTheWay, List.drop_eq_getElem_cons hlt, List.cons_append, List.filter_cons, List.nil_append]
      split
      · simp [List.append_assoc]
        rfl
      · rfl
  · cases hreceive

/-! ## Sends and appends -/

@[simp] theorem channel_setChannel (s : Streams) (source source' : Source) (c : Channel) :
    (s.setChannel source c).channel source' = if source' = source then c else s.channel source' := by
  cases source <;> cases source' <;> rfl

@[simp] theorem setChannel_store (s : Streams) (source : Source) (c : Channel) :
    (s.setChannel source c).store = s.store := by
  cases source <;> rfl

@[simp] theorem setChannel_subscriber (s : Streams) (source : Source) (c : Channel) :
    (s.setChannel source c).subscriber = s.subscriber := by
  cases source <;> rfl

/-- The record, once sent on a channel, is one the live phase of the subscriber gives its client. -/
def givenLive (s : Streams) (source : Source) (e : RuntimeEventRecord) : Bool :=
  s.subscriber.any fun sub => decide (sub.stream.source = source) &&
    match sub.phase with
    | .streaming _ watermark => sub.passes watermark e
    | .replaying _ _ => false

theorem givenLive_eq (hsub : s.subscriber = some sub) {queue : List RuntimeEventRecord} {watermark : ℤ}
    (hphase : sub.phase = .streaming queue watermark) (e : RuntimeEventRecord) :
    s.givenLive sub.stream.source e = sub.passes watermark e := by
  simp [givenLive, hsub, hphase]

/-- What a send must find: no earlier record that the live phase is to give waits for its own send. -/
def sendMeets (s : Streams) (source : Source) (k : ℕ) : Bool :=
  match (s.channel source).unsent[k]? with
  | some e => !s.givenLive source e || ((s.channel source).unsent.take k).all fun e => !s.givenLive source e
  | none => true

theorem filter_eraseIdx_first {p : RuntimeEventRecord → Bool} {l : List RuntimeEventRecord} {k : ℕ}
    {e : RuntimeEventRecord} (he : l[k]? = some e) (h : p e = true → ∀ x ∈ l.take k, p x = false) :
    (e :: l.eraseIdx k).filter p = l.filter p := by
  obtain ⟨hk, rfl⟩ := List.getElem?_eq_some_iff.mp he
  have hsplit : l = l.take k ++ l[k] :: l.drop (k + 1) := by
    rw [← List.drop_eq_getElem_cons hk, List.take_append_drop]
  have herase : l.eraseIdx k = l.take k ++ l.drop (k + 1) := List.eraseIdx_eq_take_drop_succ l k
  conv_rhs => rw [hsplit]
  rw [herase, List.filter_append, List.filter_cons, List.filter_cons, List.filter_append]
  by_cases hp : p l[k] = true
  · have hnone : (l.take k).filter p = [] := by
      rw [List.filter_eq_nil_iff]
      intro x hx
      simp [h hp x hx]
    simp [hp, hnone]
  · simp [hp]

theorem Sound.send (h : s.Sound) {source : Source} {k : ℕ} {s' : Streams} (hmeets : s.sendMeets source k = true)
    (hsend : s.send source k = some s') : s'.Sound := by
  simp only [Streams.send, Option.bind_eq_bind, Option.bind_eq_some_iff, Option.some.injEq] at hsend
  obtain ⟨e, he, rfl⟩ := hsend
  have hfrom : ∀ source' x, (x ∈ ((s.setChannel source
        ⟨(s.channel source).sent ++ [e], (s.channel source).unsent.eraseIdx k⟩).channel source').sent ∨
      x ∈ ((s.setChannel source
        ⟨(s.channel source).sent ++ [e], (s.channel source).unsent.eraseIdx k⟩).channel source').unsent) →
      x ∈ (s.channel source').sent ∨ x ∈ (s.channel source').unsent := by
    intro source' x hx
    rw [channel_setChannel] at hx
    split at hx
    · next heq =>
      subst heq
      rcases hx with hx | hx
      · rcases List.mem_append.mp hx with hx | hx
        · exact .inl hx
        · rw [List.mem_singleton.mp hx]
          exact .inr (List.mem_of_getElem? he)
      · exact .inr (List.mem_of_mem_eraseIdx hx)
    · exact hx
  refine ⟨by simpa using h.sequenced, fun source' x hx => ?_, fun source' x hx => h.shaped source' x (hfrom source' x hx),
    fun sub hsub => ?_⟩
  · simpa using h.stored source' x (hfrom source' x hx)
  · rw [setChannel_subscriber] at hsub
    have hs := h.subscriber sub hsub
    refine ⟨hs.limit, ?_, fun rc events hphase => ?_, fun queue watermark hphase => ?_⟩
    · rw [channel_setChannel]
      split
      · next heq =>
        subst heq
        have := hs.next
        simp only [List.length_append, List.length_singleton]
        omega
      · exact hs.next
    · obtain ⟨h₁, h₂, h₃⟩ := hs.replaying rc events hphase
      exact ⟨h₁, by simpa [wanted] using h₂, by simpa using h₃⟩
    · obtain ⟨h₁, h₂⟩ := hs.streaming queue watermark hphase
      refine ⟨Eq.trans ?_ (h₁.trans (by simp [wanted])), by simpa using h₂⟩
      suffices hway : (s.setChannel source ⟨(s.channel source).sent ++ [e],
          (s.channel source).unsent.eraseIdx k⟩).onTheWay sub watermark = s.onTheWay sub watermark by rw [hway]
      unfold onTheWay
      rw [channel_setChannel]
      split
      · next heq =>
        subst heq
        dsimp only
        rw [List.drop_append_of_le_length hs.next, List.append_assoc, List.singleton_append, List.filter_append,
          List.filter_append]
        congr 1
        refine filter_eraseIdx_first he fun hp x hx => ?_
        simp only [sendMeets, he, givenLive_eq hsub hphase, hp, Bool.not_true, Bool.false_or, List.all_eq_true,
          Bool.not_eq_true'] at hmeets
        exact hmeets x hx
      · rfl

/-- What an append must find: an event id that is stored already is that of an event of the same scope
and session, and not one the live phase gives. -/
def appendMeets (s : Streams) (o : Origin) (d : Draft) : Bool :=
  match o.source, s.store.events.find? fun e => e.eventId = d.eventId with
  | some source, some e =>
    decide (e.scope = o.scope.1 ∧ e.scopeId = o.scope.2.1 ∧ e.sessionId = o.scope.2.2) && !s.givenLive source e
  | _, _ => true

def withUnsent (s : Streams) (record : RuntimeEventRecord) : Option Source → Streams
  | some source => s.setChannel source ⟨(s.channel source).sent, (s.channel source).unsent ++ [record]⟩
  | none => s

@[simp] theorem withUnsent_store (s : Streams) (record : RuntimeEventRecord) (o : Option Source) :
    (s.withUnsent record o).store = s.store := by
  cases o <;> simp [withUnsent]

@[simp] theorem withUnsent_subscriber (s : Streams) (record : RuntimeEventRecord) (o : Option Source) :
    (s.withUnsent record o).subscriber = s.subscriber := by
  cases o <;> simp [withUnsent]

theorem withUnsent_channel (s : Streams) (record : RuntimeEventRecord) (o : Option Source) (source : Source) :
    ((s.withUnsent record o).channel source).sent = (s.channel source).sent ∧
      ((s.withUnsent record o).channel source).unsent =
        (s.channel source).unsent ++ if o = some source then [record] else [] := by
  cases o with
  | none => simp [withUnsent]
  | some source' =>
    simp only [withUnsent, channel_setChannel, Option.some.injEq]
    by_cases h : source = source'
    · simp [h]
    · simp [h, Ne.symm h]

theorem onTheWay_withUnsent (s : Streams) (record : RuntimeEventRecord) (o : Option Source) (sub : Subscriber)
    (watermark : ℤ) : (s.withUnsent record o).onTheWay sub watermark =
      s.onTheWay sub watermark ++ if o = some sub.stream.source ∧ sub.passes watermark record = true then
      [record] else [] := by
  obtain ⟨hsent, hunsent⟩ := withUnsent_channel s record o sub.stream.source
  unfold onTheWay
  rw [hsent, hunsent, ← List.append_assoc, List.filter_append]
  congr 1
  by_cases ho : o = some sub.stream.source <;> by_cases hp : sub.passes watermark record = true <;> simp [ho, hp]

theorem append_eq (s : Streams) (o : Origin) (d : Draft) : s.append o d =
    match (Store.appendRuntimeEvent (o.event d) s.store).1 with
    | .ok record => { s with store := (Store.appendRuntimeEvent (o.event d) s.store).2 }.withUnsent record o.source
    | .error _ => { s with store := (Store.appendRuntimeEvent (o.event d) s.store).2 } := by
  unfold append withUnsent
  cases (Store.appendRuntimeEvent (o.event d) s.store).1 <;> cases o.source <;> rfl

theorem mem_withUnsent {record x : RuntimeEventRecord} {o : Option Source} {source : Source}
    (hx : x ∈ ((s.withUnsent record o).channel source).sent ∨ x ∈ ((s.withUnsent record o).channel source).unsent) :
    (x ∈ (s.channel source).sent ∨ x ∈ (s.channel source).unsent) ∨ (o = some source ∧ x = record) := by
  rw [(withUnsent_channel s record o source).1, (withUnsent_channel s record o source).2] at hx
  rcases hx with hx | hx
  · exact .inl (.inl hx)
  · rcases List.mem_append.mp hx with hx | hx
    · exact .inl (.inr hx)
    · split at hx
      · next ho => exact .inr ⟨ho, List.mem_singleton.mp hx⟩
      · cases hx

theorem Sound.withUnsent_old (h : s.Sound) {record : RuntimeEventRecord} {o : Option Source}
    (hstored : record ∈ s.store.events) (hshaped : ∀ source, o = some source → Shaped source record.toNewRuntimeEvent)
    (hlive : ∀ source, o = some source → s.givenLive source record = false) : (s.withUnsent record o).Sound := by
  refine ⟨by simpa using h.sequenced, fun source x hx => ?_, fun source x hx => ?_, fun sub hsub => ?_⟩
  · rw [withUnsent_store]
    rcases mem_withUnsent hx with hx | ⟨-, rfl⟩
    · exact h.stored source x hx
    · exact hstored
  · rcases mem_withUnsent hx with hx | ⟨ho, rfl⟩
    · exact h.shaped source x hx
    · exact hshaped source ho
  · rw [withUnsent_subscriber] at hsub
    have hs := h.subscriber sub hsub
    refine ⟨hs.limit, ?_, fun rc events hphase => ?_, fun queue watermark hphase => ?_⟩
    · rw [(withUnsent_channel s record o sub.stream.source).1]
      exact hs.next
    · obtain ⟨h₁, h₂, h₃⟩ := hs.replaying rc events hphase
      exact ⟨h₁, by simpa [wanted] using h₂, by simpa using h₃⟩
    · obtain ⟨h₁, h₂⟩ := hs.streaming queue watermark hphase
      refine ⟨Eq.trans ?_ (h₁.trans (by simp [wanted])), by simpa using h₂⟩
      rw [onTheWay_withUnsent, if_neg, List.append_nil]
      rintro ⟨ho, hp⟩
      have := hlive _ ho
      rw [givenLive_eq hsub hphase, hp] at this
      cases this

theorem log_append (stream : EventStream) {store store' : Store} {event : NewRuntimeEvent}
    (hevents : store'.events = store.events ++ [appendedRecord event store.events]) :
    stream.log store' = stream.log store ++
      if event.scope = stream.scope.1 ∧ event.scopeId = stream.scope.2 then
      [appendedRecord event store.events] else [] := by
  unfold EventStream.log scopeLog
  rw [hevents, List.filter_append]
  congr 1
  by_cases hm : event.scope = stream.scope.1 ∧ event.scopeId = stream.scope.2 <;>
    simp [appendedRecord, hm]

theorem map_seqOf_append {given : List ℤ} {queue way log : List RuntimeEventRecord}
    (h : given ++ (queue ++ way).map seqOf = log.map seqOf) (extra : List RuntimeEventRecord) :
    given ++ (queue ++ (way ++ extra)).map seqOf = (log ++ extra).map seqOf := by
  rw [← List.append_assoc queue, List.map_append, ← List.append_assoc, h, List.map_append]

theorem Sound.withUnsent_new (h : s.Sound) {o : Origin} {d : Draft} {store : Store}
    (hevents : store.events = s.store.events ++ [appendedRecord (o.event d) s.store.events]) :
    (withUnsent { s with store := store } (appendedRecord (o.event d) s.store.events) o.source).Sound := by
  have hnew : appendedRecord (o.event d) s.store.events ∈ store.events := by simp [hevents]
  have hold : ∀ e ∈ s.store.events, e ∈ store.events := fun e he => by simp [hevents, he]
  refine ⟨?_, fun source x hx => ?_, fun source x hx => ?_, fun sub hsub => ?_⟩
  · rw [withUnsent_store, hevents]
    exact h.sequenced.append _
  · rw [withUnsent_store]
    rcases mem_withUnsent hx with hx | ⟨-, rfl⟩
    · exact hold _ (h.stored source x hx)
    · exact hnew
  · rcases mem_withUnsent hx with hx | ⟨ho, rfl⟩
    · exact h.shaped source x hx
    · exact shaped_event ho d
  · rw [withUnsent_subscriber] at hsub
    have hs := h.subscriber sub hsub
    have hlog := log_append sub.stream hevents
    -- the record is above the log it joins
    have habove : (o.event d).scope = sub.stream.scope.1 ∧ (o.event d).scopeId = sub.stream.scope.2 →
        ∀ e ∈ sub.stream.log s.store, e.seq < (appendedRecord (o.event d) s.store.events).seq := by
      rintro ⟨h₁, h₂⟩ e he
      refine lt_nextSeq ?_
      rw [h₁, h₂]
      exact he
    refine ⟨hs.limit, ?_, fun rc events hphase => ?_, fun queue watermark hphase => ?_⟩
    · rw [(withUnsent_channel _ _ _ sub.stream.source).1]
      exact hs.next
    · obtain ⟨h₁, h₂, h₃⟩ := hs.replaying rc events hphase
      refine ⟨h₁, ?_, ?_⟩
      · simp only [wanted, withUnsent_store, hlog, List.filter_append]
        rw [← List.append_assoc, h₂]
        congr 1
        split
        · next hm =>
          have hsame : isAfter seqOf rc (appendedRecord (o.event d) s.store.events) =
              isAfter seqOf sub.cursor (appendedRecord (o.event d) s.store.events) := by
            rcases h₃ with hrc | ⟨e, he, hrc, hafter⟩
            · rw [hrc]
            · rw [isAfter_trans hafter (habove hm e he), hrc]
              simpa [isAfter] using habove hm e he
          simp [List.filter_cons, hsame]
        · rfl
      · refine h₃.imp_right fun hread => ?_
        obtain ⟨e, he, hrest⟩ := hread
        refine ⟨e, ?_, hrest⟩
        simp only [withUnsent_store, hlog]
        exact List.mem_append_left _ he
    · obtain ⟨h₁, h₂⟩ := hs.streaming queue watermark hphase
      refine ⟨?_, fun n hn hpos => ?_⟩
      · have hsame : (o.source = some sub.stream.source ∧
            sub.passes watermark (appendedRecord (o.event d) s.store.events) = true) ↔
            ((o.event d).scope = sub.stream.scope.1 ∧ (o.event d).scopeId = sub.stream.scope.2) ∧
              isAfter seqOf sub.cursor (appendedRecord (o.event d) s.store.events) = true := by
          have hlive : o.source = some sub.stream.source →
            (sub.stream.live (appendedRecord (o.event d) s.store.events) = true ↔
              (o.event d).scope = sub.stream.scope.1 ∧ (o.event d).scopeId = sub.stream.scope.2) :=
            fun ho => EventStream.live_iff (e := appendedRecord (o.event d) s.store.events) (shaped_event ho d)
          have hmark : (o.event d).scope = sub.stream.scope.1 ∧ (o.event d).scopeId = sub.stream.scope.2 →
              (isAfter seqOf sub.cursor (appendedRecord (o.event d) s.store.events) = true ↔
                watermark < (appendedRecord (o.event d) s.store.events).seq) :=
            fun hm => isAfter_iff.trans (h₂ _ (habove hm) (nextSeq_pos _ _ _))
          simp only [Subscriber.passes, Bool.and_eq_true, decide_eq_true_eq]
          constructor
          · rintro ⟨ho, hl, hw⟩
            have hm := (hlive ho).mp hl
            exact ⟨hm, (hmark hm).mpr hw⟩
          · rintro ⟨hm, hafter⟩
            have ho := source_of_scope (d := d) hm.1
            exact ⟨ho, (hlive ho).mpr hm, (hmark hm).mp hafter⟩
        have hwanted : (withUnsent { s with store := store }
          (appendedRecord (o.event d) s.store.events) o.source).wanted sub =
            s.wanted sub ++ if ((o.event d).scope = sub.stream.scope.1 ∧ (o.event d).scopeId = sub.stream.scope.2) ∧
              isAfter seqOf sub.cursor (appendedRecord (o.event d) s.store.events) = true
              then [appendedRecord (o.event d) s.store.events] else [] := by
          simp only [wanted, withUnsent_store, hlog, List.filter_append]
          congr 1
          by_cases hm : (o.event d).scope = sub.stream.scope.1 ∧ (o.event d).scopeId = sub.stream.scope.2 <;>
            simp [hm, List.filter_cons]
        have hway := onTheWay_withUnsent { s with store := store } (appendedRecord (o.event d) s.store.events) o.source
          sub watermark
        rw [if_congr hsame rfl rfl] at hway
        rw [hwanted, hway]
        exact map_seqOf_append h₁ _
      · refine h₂ n (fun e he => hn e ?_) hpos
        simp only [withUnsent_store, hlog]
        exact List.mem_append_left _ he

theorem Sound.append (h : s.Sound) {o : Origin} {d : Draft} (hmeets : s.appendMeets o d = true) :
    (s.append o d).Sound := by
  have hsame : ∀ store : Store, store.events = s.store.events → Sound { s with store := store } := by
    intro store hevents
    refine ⟨by simpa [hevents] using h.sequenced, fun source x hx => ?_, h.shaped, fun sub hsub => ?_⟩
    · simpa [hevents] using h.stored source x hx
    · have hs := h.subscriber sub hsub
      have hlog : sub.stream.log store = sub.stream.log s.store := by simp [EventStream.log, hevents]
      refine ⟨hs.limit, hs.next, fun rc events hphase => ?_, fun queue watermark hphase => ?_⟩
      · obtain ⟨h₁, h₂, h₃⟩ := hs.replaying rc events hphase
        exact ⟨h₁, by simpa [wanted, hlog] using h₂, by simpa [hlog] using h₃⟩
      · obtain ⟨h₁, h₂⟩ := hs.streaming queue watermark hphase
        exact ⟨h₁.trans (by simp [wanted, hlog]), by simpa [hlog] using h₂⟩
  rw [append_eq]
  rcases appendRuntimeEvent_cases (o.event d) s.store with ⟨hevents, hfound⟩ | ⟨-, hok, hevents⟩
  · cases hr : (Store.appendRuntimeEvent (o.event d) s.store).1 with
    | error e => exact hsame _ hevents
    | ok record =>
      have hfind := hfound record hr
      have hmem : record ∈ s.store.events := List.mem_of_find?_eq_some hfind
      refine (hsame _ hevents).withUnsent_old (hevents ▸ hmem) (fun source ho => ?_) (fun source ho => ?_)
      · have hm : record.scope = o.scope.1 ∧ record.scopeId = o.scope.2.1 ∧ record.sessionId = o.scope.2.2 := by
          have hfind' : s.store.events.find? (fun e => e.eventId = d.eventId) = some record := hfind
          simp only [appendMeets, ho, hfind', Bool.and_eq_true, decide_eq_true_eq] at hmeets
          exact hmeets.1
        have hshape := shaped_event ho d
        cases source
        · simp only [Shaped, hm.1, hm.2.1, hm.2.2]
          exact hshape
        · simp only [Shaped, hm.1]
          exact hshape
      · have hfind' : s.store.events.find? (fun e => e.eventId = d.eventId) = some record := hfind
        simp only [appendMeets, ho, hfind', Bool.and_eq_true, Bool.not_eq_true'] at hmeets
        exact hmeets.2
  · rw [hok]
    exact h.withUnsent_new hevents

/-! ## Runs -/

/-- A step does not make the stream miss an event. -/
def streamMeets (l : StreamLabel) (s : Streams) : Bool :=
  match l with
  | .append o d => s.appendMeets o d
  | .send source k => s.sendMeets source k
  | .receive => s.subscriber.all s.receiveMeets
  | _ => true

theorem Sound.withSubscriber (h : s.Sound) {sub : Subscriber} (hsub : s.SubscriberSound sub) :
    Sound { s with subscriber := some sub } :=
  { h with
    subscriber sub' hsub' := by
      obtain rfl := Option.some.inj hsub'
      exact ⟨hsub.limit, hsub.next, fun rc events hphase => ⟨(hsub.replaying rc events hphase).1,
        (hsub.replaying rc events hphase).2, (hsub.replaying rc events hphase).3⟩,
        fun queue watermark hphase => ⟨(hsub.streaming queue watermark hphase).1,
        (hsub.streaming queue watermark hphase).2⟩⟩ }

theorem Sound.step {l : StreamLabel} {s' : Streams} (h : s.Sound) (hmeets : streamMeets l s = true)
    (hstep : step l s = some s') : s'.Sound := by
  cases l with
  | append o d =>
    obtain rfl := Option.some.inj hstep
    exact h.append hmeets
  | send source k => exact h.send hmeets hstep
  | subscribe stream cursor limit =>
    simp only [Streams.step] at hstep
    split at hstep
    · obtain rfl := Option.some.inj hstep
      refine h.withSubscriber ⟨?_, le_refl _, fun rc events hphase => ?_, nofun⟩
      · simp [subscribed, replayPageLimit]
      · obtain ⟨rfl, rfl⟩ := Phase.replaying.inj hphase
        exact ⟨rfl, rfl, .inl rfl⟩
    · cases hstep
  | page =>
    simp only [Streams.step, Option.bind_eq_bind, Option.bind_eq_some_iff, Option.some.injEq] at hstep
    obtain ⟨sub, hsub, sub', hpage, rfl⟩ := hstep
    exact h.withSubscriber (h.page (h.subscriber sub hsub) hpage)
  | emit =>
    simp only [Streams.step, Option.bind_eq_bind, Option.bind_eq_some_iff, Option.some.injEq] at hstep
    obtain ⟨sub, hsub, sub', hemit, rfl⟩ := hstep
    exact h.withSubscriber (Sound.emit (h.subscriber sub hsub) hemit)
  | receive =>
    simp only [Streams.step, Option.bind_eq_bind, Option.bind_eq_some_iff, Option.some.injEq] at hstep
    obtain ⟨sub, hsub, sub', hreceive, rfl⟩ := hstep
    have hm : s.receiveMeets sub = true := by simpa [streamMeets, hsub] using hmeets
    exact h.withSubscriber (Sound.receive (h.subscriber sub hsub) hm hreceive)
  | disconnect =>
    obtain rfl := Option.some.inj hstep
    exact ⟨h.sequenced, h.stored, h.shaped, nofun⟩
  | restart =>
    obtain rfl := Option.some.inj hstep
    refine ⟨h.sequenced, fun source x hx => ?_, fun source x hx => ?_, nofun⟩ <;> cases source <;> simp [channel] at hx

/-- The subscriber has taken every event appended so far: its queue and its receiver are empty and no
event of its stream waits for its send. -/
def CaughtUp (s : Streams) (sub : Subscriber) : Prop :=
  (∃ watermark, sub.phase = .streaming [] watermark) ∧ sub.next = (s.channel sub.stream.source).sent.length ∧
    ∀ e ∈ (s.channel sub.stream.source).unsent, sub.stream.live e = false

/-- What the stream has given increases strictly, and is the log after the cursor once it has caught up. -/
def GapFree (s : Streams) : Prop :=
  ∀ sub, s.subscriber = some sub → sub.emitted.Pairwise (· < ·) ∧
    (s.CaughtUp sub → sub.emitted = ((sub.stream.log s.store).filter (isAfter seqOf sub.cursor)).map seqOf)

theorem Sound.gapFree (h : s.Sound) : s.GapFree := by
  intro sub hsub
  have hs := h.subscriber sub hsub
  have hkeys : ((s.wanted sub).map seqOf).Pairwise (· < ·) :=
    ((h.sequenced.increasing sub.stream.scope.1 sub.stream.scope.2).filter _).map_keys
  constructor
  · cases hphase : sub.phase with
    | replaying rc events =>
      rw [(hs.replaying rc events hphase).emitted]
      exact List.Pairwise.nil
    | streaming queue watermark =>
      rw [← (hs.streaming queue watermark hphase).split] at hkeys
      exact (List.pairwise_append.mp hkeys).1
  · rintro ⟨⟨watermark, hphase⟩, hnext, hunsent⟩
    have hsplit := (hs.streaming [] watermark hphase).split
    have hway : s.onTheWay sub watermark = [] := by
      rw [onTheWay, hnext, List.drop_length, List.nil_append, List.filter_eq_nil_iff]
      intro e he
      simp [Subscriber.passes, hunsent e he]
    rw [hway, List.append_nil, List.map_nil, List.append_nil] at hsplit
    exact hsplit

end Streams

/-- A stream has no gap where events are sent in order and no receive skips one that the stream gives. -/
theorem stream_gap_free {faults : List Bool} {runtimeCapacity processCapacity : ℕ} {s : Streams}
    (h : Reaches Streams.step (fun l s => Streams.streamMeets l s = true)
      (Streams.empty faults runtimeCapacity processCapacity) s) : s.GapFree :=
  (h.invariant (Streams.sound_empty faults runtimeCapacity processCapacity)
    fun _ _ _ hs hmeets hstep => hs.step hmeets hstep).gapFree

/-! ## Two appends that are sent out of order -/

def sessionEvent (eventId : String) : StreamLabel :=
  .append (.session "sess") ⟨eventId, none, none, "turn.started", .critical, .null, 0⟩

def replayThenLive : List StreamLabel :=
  [sessionEvent "evt_1", .send .runtime 0, .subscribe (.session "sess") none none, .page, sessionEvent "evt_2", .emit,
    .send .runtime 0, .receive]

def emittedBy (s : Streams) : Option (List ℤ) := s.subscriber.map Subscriber.emitted

theorem stream_gap_free_replayThenLive : ∃ s : Streams, emittedBy s = some [1, 2] ∧ s.GapFree := by
  obtain ⟨s, hs, he⟩ := exists_reaches_of_runAll Streams.step Streams.streamMeets replayThenLive emittedBy
    (some [1, 2]) (s := Streams.empty [] 128 128) (by decide +kernel)
  exact ⟨s, he, stream_gap_free hs⟩

def crossedSends : List StreamLabel :=
  [.subscribe (.session "sess") none none, .page, sessionEvent "evt_1", sessionEvent "evt_2", .send .runtime 1,
    .send .runtime 0, .receive, .receive]

theorem not_stream_gap_free : ¬ ∀ (faults : List Bool) (runtimeCapacity processCapacity : ℕ) (s : Streams),
    Reaches Streams.step (fun _ _ => True) (Streams.empty faults runtimeCapacity processCapacity) s → s.GapFree := by
  intro hall
  obtain ⟨s, hs, he⟩ := exists_reaches_of_runAll Streams.step (fun _ _ => true) crossedSends emittedBy
    (some [2, 1]) (s := Streams.empty [] 128 128) (by decide +kernel)
  obtain ⟨sub, hsub, hemitted⟩ := Option.map_eq_some_iff.mp he
  have := (hall _ _ _ s (hs.mono fun _ _ _ => trivial) sub hsub).1
  rw [hemitted] at this
  exact absurd this (by decide)

/-- A receiver that lags loses an event for good. -/
example : ((runAll Streams.step ([.subscribe (.session "sess") none none, .page, sessionEvent "evt_1",
    sessionEvent "evt_2", .send .runtime 0, .send .runtime 0, .receive, .receive])
    (Streams.empty [] 1 1)).bind emittedBy) = some [2] := by
  decide +kernel

end Gooselake.Http

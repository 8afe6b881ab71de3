import Gooselake.Tools.ProcessPermits

/-!
`pump_stream` byte by byte: the loop over the reads of an output pipe, with the log file, the shared counter and the
shared flag. What is captured is a prefix of the stream that does not depend on how the reads cut it.
-/

namespace Gooselake.Tools

open Gooselake.Core Data Library Library.Exec

set_option autoImplicit false

/-! ## The loop -/

/-- What one `read` gives: a chunk, empty at the end of the stream, or an error. `written` is for the write that may
follow: none when it succeeds, else the number of bytes that reach the file before it fails. -/
inductive ReadOutcome where
  | chunk (bytes : List UInt8) (written : Option ℕ)
  | failed
  deriving DecidableEq, Repr

/-- The data of a `process.output` event. -/
structure OutputEvent where
  bytesSeen : ℕ
  bytesWritten : ℕ
  truncated : Bool
  deriving DecidableEq, Repr

/-- The log file, the counter and the flag of a stream, the budget of its pump and the events sent. -/
structure PumpState where
  file : List UInt8
  used : ℕ
  truncated : Bool
  emittedBudget : ℕ
  events : List OutputEvent
  deriving DecidableEq, Repr

def PumpState.opened (file : List UInt8) : PumpState where
  file := file
  used := 0
  truncated := false
  emittedBudget := 0
  events := []

/-- What reaches the file of a write of `bytes`. -/
def stored (bytes : List UInt8) : Option ℕ → List UInt8
  | none => bytes
  | some n => bytes.take n

def pumpChunk (maxBytes sampleBytes : ℕ) (chunk : List UInt8) (written : Option ℕ) (p : PumpState) : PumpState :=
  let remaining := maxBytes - p.used
  let toWrite := min remaining chunk.length
  let truncatedNow := decide (toWrite < chunk.length)
  let budget := p.emittedBudget + chunk.length
  let emit := decide (max sampleBytes 1 ≤ budget) || truncatedNow
  { file := p.file ++ stored (chunk.take toWrite) written
    used := p.used + toWrite
    truncated := p.truncated || truncatedNow
    emittedBudget := if emit then 0 else budget
    events := if emit then p.events ++ [⟨chunk.length, toWrite, truncatedNow⟩] else p.events }

def pumpLoop (maxBytes sampleBytes : ℕ) : List ReadOutcome → PumpState → PumpState
  | .chunk (b :: bytes) written :: reads, p =>
    pumpLoop maxBytes sampleBytes reads (pumpChunk maxBytes sampleBytes (b :: bytes) written p)
  | _, p => p

def pumpStream (config : ProcessManagerConfig) (file : List UInt8) (reads : List ReadOutcome) : PumpState :=
  pumpLoop config.maxOutputBytesPerProcess config.outputEventSampleBytes reads (.opened file)

/-! ## What is read -/

/-- The bytes up to the end of the stream. -/
def streamOf : List ReadOutcome → List UInt8
  | .chunk (b :: bytes) _ :: reads => (b :: bytes) ++ streamOf reads
  | _ => []

/-- No write to the log file fails. -/
def WritesSucceed (reads : List ReadOutcome) : Prop :=
  ∀ bytes written, .chunk bytes written ∈ reads → written = none

def readsOf (chunks : List (List UInt8)) : List ReadOutcome := chunks.map (.chunk · none) ++ [.chunk [] none]

theorem writesSucceed_readsOf (chunks : List (List UInt8)) : WritesSucceed (readsOf chunks) := by
  intro bytes written hmem
  rcases List.mem_append.mp hmem with h | h
  · obtain ⟨chunk, -, he⟩ := List.mem_map.mp h
    exact (ReadOutcome.chunk.inj he).2.symm
  · exact (ReadOutcome.chunk.inj (List.mem_singleton.mp h)).2

/-! ## What is captured -/

/-- The counter and the flag after `total` bytes. -/
structure Counted (maxBytes total : ℕ) (p : PumpState) : Prop where
  used : p.used = min total maxBytes
  truncated : p.truncated = decide (maxBytes < total)

theorem Counted.chunk {maxBytes total : ℕ} {p : PumpState} (h : Counted maxBytes total p) (sampleBytes : ℕ)
    (chunk : List UInt8) (written : Option ℕ) :
    Counted maxBytes (total + chunk.length) (pumpChunk maxBytes sampleBytes chunk written p) := by
  obtain ⟨hused, htruncated⟩ := h
  constructor
  · show p.used + min (maxBytes - p.used) chunk.length = min (total + chunk.length) maxBytes
    omega
  · show (p.truncated || decide (min (maxBytes - p.used) chunk.length < chunk.length)) = _
    rw [htruncated, ← Bool.decide_or, decide_eq_decide]
    omega

theorem stored_chunk {maxBytes : ℕ} {seen : List UInt8} {p : PumpState} (h : Counted maxBytes seen.length p)
    (chunk : List UInt8) :
    seen.take maxBytes ++ chunk.take (min (maxBytes - p.used) chunk.length) = (seen ++ chunk).take maxBytes := by
  have hlength : maxBytes - p.used = maxBytes - seen.length := by
    rw [h.used]
    omega
  rw [List.take_append, hlength, ← List.take_take, List.take_length]

theorem pumpLoop_stops {maxBytes : ℕ} {seen file : List UInt8} {p : PumpState} (h : Counted maxBytes seen.length p)
    {q : Prop} : Counted maxBytes (seen ++ []).length p ∧
      (q → p.file = file ++ seen.take maxBytes → p.file = file ++ (seen ++ []).take maxBytes) := by
  rw [List.append_nil]
  exact ⟨h, fun _ hfile => hfile⟩

theorem pumpLoop_keeps (maxBytes sampleBytes : ℕ) (reads : List ReadOutcome) (seen file : List UInt8) (p : PumpState)
    (hcounted : Counted maxBytes seen.length p) :
    Counted maxBytes (seen ++ streamOf reads).length (pumpLoop maxBytes sampleBytes reads p) ∧
      (WritesSucceed reads → p.file = file ++ seen.take maxBytes →
        (pumpLoop maxBytes sampleBytes reads p).file = file ++ (seen ++ streamOf reads).take maxBytes) := by
  induction reads generalizing seen p with
  | nil => exact pumpLoop_stops hcounted
  | cons read reads ih =>
    match read with
    | .failed | .chunk [] _ => exact pumpLoop_stops hcounted
    | .chunk (b :: bytes) written =>
      have hchunk := hcounted.chunk sampleBytes (b :: bytes) written
      rw [← List.length_append] at hchunk
      have h := ih (seen ++ (b :: bytes)) _ hchunk
      rw [List.append_assoc] at h
      refine ⟨h.1, fun hwrites hfile => h.2 (fun bytes' w hmem => hwrites bytes' w (List.mem_cons_of_mem _ hmem)) ?_⟩
      obtain rfl : written = none := hwrites _ _ (List.mem_cons_self ..)
      show p.file ++ (b :: bytes).take (min (maxBytes - p.used) (b :: bytes).length) = _
      rw [hfile, List.append_assoc, stored_chunk hcounted]

theorem pumpStream_counted (config : ProcessManagerConfig) (file : List UInt8) (reads : List ReadOutcome) :
    Counted config.maxOutputBytesPerProcess (streamOf reads).length (pumpStream config file reads) := by
  have hopened : Counted config.maxOutputBytesPerProcess ([] : List UInt8).length (PumpState.opened file) := by
    constructor
    · show 0 = min 0 _
      omega
    · show false = decide (_ < 0)
      simp
  exact (pumpLoop_keeps _ config.outputEventSampleBytes reads [] file _ hopened).1

theorem pumpStream_file (config : ProcessManagerConfig) (file : List UInt8) {reads : List ReadOutcome}
    (hwrites : WritesSucceed reads) : (pumpStream config file reads).file =
      file ++ (streamOf reads).take config.maxOutputBytesPerProcess := by
  have hopened : Counted config.maxOutputBytesPerProcess ([] : List UInt8).length (PumpState.opened file) :=
    pumpStream_counted config file []
  refine (pumpLoop_keeps _ config.outputEventSampleBytes reads [] file _ hopened).2 hwrites ?_
  rw [List.take_nil, List.append_nil]
  rfl

/-- However a stream is cut into reads, the file gets its first bytes up to the cap, after what it held before; the
counter counts them and the flag says whether there were more. -/
theorem capture_independent_of_chunking (config : ProcessManagerConfig) (file stream : List UInt8)
    (reads : List ReadOutcome) (hstream : streamOf reads = stream) (hwrites : WritesSucceed reads) :
    (pumpStream config file reads).file =
        file ++ stream.take (min stream.length config.maxOutputBytesPerProcess) ∧
      (pumpStream config file reads).used = min stream.length config.maxOutputBytesPerProcess ∧
      ((pumpStream config file reads).truncated = true ↔ config.maxOutputBytesPerProcess < stream.length) ∧
      ∀ reads', streamOf reads' = stream → WritesSucceed reads' →
        (pumpStream config file reads').file = (pumpStream config file reads).file ∧
        (pumpStream config file reads').used = (pumpStream config file reads).used ∧
        (pumpStream config file reads').truncated = (pumpStream config file reads).truncated := by
  subst hstream
  have hcounted := pumpStream_counted config file reads
  have hfile := pumpStream_file config file hwrites
  refine ⟨?_, hcounted.used, ?_, fun reads' hsame hwrites' => ?_⟩
  · rw [hfile, Nat.min_comm, ← List.take_take, List.take_length]
  · rw [hcounted.truncated, decide_eq_true_eq]
  · have hcounted' := pumpStream_counted config file reads'
    have hfile' := pumpStream_file config file hwrites'
    rw [hsame] at hcounted' hfile'
    exact ⟨hfile'.trans hfile.symm, hcounted'.used.trans hcounted.used.symm,
      hcounted'.truncated.trans hcounted.truncated.symm⟩

/-- Four bytes under a cap of three, in reads of two. -/
theorem capture_independent_of_chunking_crossed :
    let config : ProcessManagerConfig := ⟨true, 4, 60000, 3, 0, 4096, "logs"⟩
    (pumpStream config [] (readsOf [[1, 2], [3, 4]])).file = [1, 2, 3] ∧
      (pumpStream config [] (readsOf [[1, 2, 3], [4]])).file = [1, 2, 3] := by
  intro config
  have h := capture_independent_of_chunking config [] [1, 2, 3, 4] (readsOf [[1, 2], [3, 4]]) rfl
    (writesSucceed_readsOf _)
  have hother := h.2.2.2 (readsOf [[1, 2, 3], [4]]) rfl (writesSucceed_readsOf _)
  exact ⟨h.1, hother.1.trans h.1⟩

/-! ## The pump of the manager -/

def PumpState.capture (p : PumpState) : Capture := ⟨p.used, p.truncated, some p.emittedBudget⟩

theorem pumpRead_capture {p : Processes} {h : ℕ} {o : ManagedProcess} (ho : p.objects.lookup h = some o)
    (stream : OutputStream) (chunk : List UInt8) (written : Option ℕ) {pump : PumpState}
    (hcapture : capture stream o = pump.capture) :
    After (pumpRead h stream chunk.length) p fun r p' => r = .ok () ∧ p'.config = p.config ∧
      ∃ o', p'.objects.lookup h = some o' ∧ capture stream o' =
        (pumpChunk p.config.maxOutputBytesPerProcess p.config.outputEventSampleBytes chunk written pump).capture := by
  have hdone : ∀ c (p' : Processes), p'.objects = p.objects.insert h (setCapture c stream o) →
      ∃ o', p'.objects.lookup h = some o' ∧ capture stream o' = c := fun c p' hobjects =>
    ⟨_, by rw [hobjects]; exact AList.lookup_insert _, capture_setCapture c stream o⟩
  simp only [pumpRead, after_bind_iff, after_get, after_getObject, after_updateObject, update_eq ho]
  refine ⟨fun o' ho' => ?_, fun hn => by rw [ho] at hn; cases hn⟩
  obtain rfl : o = o' := Option.some.inj (ho.symm.trans ho')
  rw [hcapture]
  split
  · next hemit =>
    have hnext : (pumpChunk p.config.maxOutputBytesPerProcess p.config.outputEventSampleBytes chunk written
        pump).capture = ⟨_, _, some 0⟩ := congrArg (Capture.mk _ _ ∘ some) (if_pos hemit)
    refine ((books_appendProcessEvent _ _ _ _ _ _).and (appendProcessEvent_after _ _ _ _ _)).mono fun r p' hp => ?_
    refine ⟨hp.2.1, congrArg Books.config hp.1, ?_⟩
    rw [hnext]
    exact hdone _ p' hp.2.2.objects
  · next hquiet =>
    have hnext : (pumpChunk p.config.maxOutputBytesPerProcess p.config.outputEventSampleBytes chunk written
        pump).capture = ⟨_, _, some (pump.emittedBudget + chunk.length)⟩ :=
      congrArg (Capture.mk _ _ ∘ some) (if_neg hquiet)
    refine (after_pure _ _ _).mpr ⟨rfl, rfl, ?_⟩
    rw [hnext]
    exact hdone _ _ rfl

def pumpReads (h : ℕ) (stream : OutputStream) : List ReadOutcome → ProcessM Unit
  | .chunk (b :: bytes) _ :: reads => do
    pumpRead h stream (b :: bytes).length
    pumpReads h stream reads
  | _ => return ()

/-- The reads of the process table capture what the byte loop of the stream does. -/
theorem pumpReads_capture {p : Processes} {h : ℕ} {o : ManagedProcess} (ho : p.objects.lookup h = some o)
    (stream : OutputStream) (reads : List ReadOutcome) {pump : PumpState} (hcapture : capture stream o = pump.capture) :
    After (pumpReads h stream reads) p fun r p' => r = .ok () ∧ ∃ o', p'.objects.lookup h = some o' ∧
      capture stream o' = (pumpLoop p.config.maxOutputBytesPerProcess p.config.outputEventSampleBytes reads
        pump).capture := by
  induction reads generalizing p o pump with
  | nil => exact (after_pure _ _ _).mpr ⟨rfl, o, ho, hcapture⟩
  | cons read reads ih =>
    match read with
    | .failed | .chunk [] _ => exact (after_pure _ _ _).mpr ⟨rfl, o, ho, hcapture⟩
    | .chunk (b :: bytes) written =>
      refine after_bind (pumpRead_capture ho stream (b :: bytes) written hcapture) ?_ fun _ _ hr => by cases hr.1
      rintro a p' ⟨-, hconfig, o', ho', hcapture'⟩
      have h := ih ho' hcapture'
      rw [hconfig] at h
      exact h

/-- A pump of a process, under a cap of three bytes. -/
def pumping : Processes :=
  ⟨⟨true, 4, 60000, 3, 0, 4096, "logs"⟩, ToolStore.empty [], (∅ : Table ℕ ManagedProcess).insert 0
    { ManagedProcess.hydrated ⟨"proc_1", none, none, none, .null, none, .running, none, none, none, none, 0, none, none⟩
      with stdout := ⟨0, false, some 0⟩ }, ∅, 1, 2, 1, 4, 0, []⟩

theorem pumpReads_capture_pumping : After (pumpReads 0 .stdout (readsOf [[1, 2], [3, 4]])) pumping fun r p' =>
    r = .ok () ∧ ∃ o', p'.objects.lookup 0 = some o' ∧ capture .stdout o' = ⟨3, true, some 0⟩ :=
  @pumpReads_capture pumping 0 _ rfl .stdout _ (.opened []) rfl

end Gooselake.Tools

import Esp32Firmware.Eebus.ShipConnection

/-!
# Reassembly of SHIP messages

The websocket tasks push the chunks of a message into a queue, and the main task appends them to
the message it assembles.

## Implementation notes

`malloc_psram` finds memory for every frame, without it a frame is dropped. The ring of the queue is
a list. What other connections push takes its bytes and is skipped by this one. Of the state machine
only what it does to the assembly is a step: it empties a message that it has answered, and it
closes the connection.
-/

namespace Esp32Firmware.Eebus

section

/-- What a websocket task is given of a message. A server gets whole frames. -/
inductive Received where
  | client (opCode : UInt8) (fin : Bool) (payloadOffset payloadLen : ℕ) (data : List UInt8)
  | server (final : Bool) (payload : List UInt8)
deriving DecidableEq

inductive RxEvent where
  | frame (data : List UInt8) (fin : Bool)
  | disconnected
  | other (dataLen : ℕ)
deriving DecidableEq

def RxEvent.dataLen : RxEvent → ℕ
  | frame data _ => data.length
  | disconnected => 0
  | other dataLen => dataLen

def Received.data : Received → List UInt8
  | client _ _ _ _ data => data
  | server _ payload => payload

/-- The final flag of the chunk: of its frame, on the last chunk of the frame. -/
def Received.final : Received → Bool
  | client _ fin payloadOffset payloadLen data =>
    fin && decide (payloadLen ≤ payloadOffset + data.length)
  | server final _ => final

/-- `WS_TRANSPORT_OPCODES_FIN` is masked out. -/
def opcodeOf (opCode : UInt8) : UInt8 := opCode &&& 0x7F

/-- `websocket_event_handler` for data, and the callback of the server. -/
def Received.rxEvent (c : Received) : Option RxEvent :=
  match c with
  | client opCode _ _ _ data =>
    if data.length = 0 then none
    else if opcodeOf opCode = 8 then some .disconnected
    else if opcodeOf opCode ≠ 2 ∧ opcodeOf opCode ≠ 1 then none
    else some (.frame data c.final)
  | server final payload => some (.frame payload final)

/-- A chunk of a message has a byte, and the frame of a client's chunk is a binary frame, a text or
the continuation of one. -/
def Received.OfMessage : Received → Prop
  | client opCode _ _ _ data => data ≠ [] ∧ opcodeOf opCode ≤ 2
  | server _ payload => payload ≠ []

/-- The chunk gets to the buffer: a client drops the continuations, both drop single bytes. -/
def Received.kept : Received → Bool
  | client opCode _ _ _ data => decide (2 ≤ data.length) && decide (opcodeOf opCode ≠ 0)
  | server _ payload => decide (2 ≤ payload.length)

/-- The chunks of one message, in order. -/
structure IsSplit (chunks : List Received) : Prop where
  ofMessage : ∀ c ∈ chunks, c.OfMessage
  final : ∃ init last, chunks = init ++ [last] ∧ last.final = true ∧ ∀ c ∈ init, c.final = false
  length : 2 ≤ (chunks.flatMap Received.data).length

end

section

/-- What is handed over of the buffer. -/
def Message.content (m : Message) : List UInt8 := m.data.take m.length

/-- `process_frame` of an open connection: the message behind the chunk and what is handed to the
state machine. -/
def Message.processFrame (m : Message) (data : List UInt8) (fin : Bool) : Message × List (List UInt8) :=
  if data.length < 2 then (m, [])
  else
    let appended := m.append data fin
    (appended.1, if appended.2 then [appended.1.content] else [])

def processChunk (m : Message) (c : Received) : Message × List (List UInt8) :=
  match c.rxEvent with
  | some (.frame data fin) => m.processFrame data fin
  | _ => (m, [])

def processChunks (m : Message) : List Received → Message × List (List UInt8)
  | [] => (m, [])
  | c :: rest =>
    let next := processChunk m c
    ((processChunks next.1 rest).1, next.2 ++ (processChunks next.1 rest).2)

/-- Behind its last chunk a message is handed over as a whole if it fits and else not at all, and
nothing of it is left. -/
def HandsOver (m : Message) (chunks : List Received) : Prop :=
  (processChunks m chunks).2 =
      (if (chunks.flatMap Received.data).length < shipConnectionMaxBufferSize then
        [chunks.flatMap Received.data] else []) ∧
    (processChunks m chunks).1.multipartIndex = none

/-- What is assembled of chunks of these lengths. The buffer overflows before its last byte. -/
def assembled (lengths : List ℕ) : ℕ :=
  lengths.foldl (fun n l => if shipConnectionMaxBufferSize ≤ n + l then 0 else n + l) 0

/-- All of a message that fits gets to the buffer; a message that is too big ends with a chunk that
overflows the buffer. -/
def Clean (chunks : List Received) : Prop :=
  if (chunks.flatMap Received.data).length < shipConnectionMaxBufferSize then
    ∀ c ∈ chunks, c.kept
  else assembled ((chunks.filter Received.kept).map fun c => c.data.length) = 0

/-- `text` is what is assembled. -/
def Message.Assembles (m : Message) (text : List UInt8) : Prop :=
  (text = [] ∧ m.multipartIndex = none) ∨
    (text ≠ [] ∧ m.multipartIndex = some text.length ∧ m.data = text ∧ m.length = text.length)

variable {m : Message} {text data : List UInt8} {fin : Bool}

/-- The buffer that a chunk is appended to. -/
theorem Message.Assembles.fresh (h : m.Assembles text) :
    m.multipartIndex.getD 0 = text.length ∧
      (if m.multipartIndex = none then { data := [], length := 0 : Message } else m).data.take
        text.length = text ∧
      (if m.multipartIndex = none then { data := [], length := 0 : Message } else m).length =
        text.length := by
  obtain ⟨rfl, hindex⟩ | ⟨-, hindex, hm, hlength⟩ := h
  · simp [hindex]
  · simp [hindex, hm, hlength]

theorem Message.Assembles.overflows (h : m.Assembles text)
    (hfull : shipConnectionMaxBufferSize ≤ text.length + data.length) :
    (m.append data fin).1.Assembles [] ∧ (m.append data fin).2 = false := by
  obtain ⟨hindex, -, -⟩ := h.fresh
  simp [Message.append, hindex, hfull, Message.Assembles]

theorem Message.Assembles.grows (h : m.Assembles text) (hdata : data ≠ [])
    (hroom : ¬shipConnectionMaxBufferSize ≤ text.length + data.length) :
    (m.append data fin).2 = fin ∧ (m.append data fin).1.content = text ++ data ∧
      (m.append data fin).1.Assembles (if fin then [] else text ++ data) := by
  obtain ⟨hindex, htake, hlength⟩ := h.fresh
  have happend : m.append data fin = (⟨text ++ data, text.length + data.length,
        if fin then none else some (text.length + data.length)⟩, fin) := by
    simp only [Message.append, hindex, if_neg hroom, htake, hlength]
  rw [happend]
  refine ⟨rfl, ?_, ?_⟩
  · rw [Message.content, List.take_of_length_le (by simp)]
  · cases fin with
    | false => exact .inr ⟨by simp [hdata], by simp, rfl, by simp⟩
    | true => exact .inl ⟨rfl, rfl⟩

/-- The text behind a chunk that is not the last one. -/
def grow (text : List UInt8) (c : Received) : List UInt8 :=
  if c.kept then
    if shipConnectionMaxBufferSize ≤ text.length + c.data.length then [] else text ++ c.data
  else text

variable {c : Received}

theorem opcode_cases {opcode : UInt8} (h : opcode ≤ 2) : opcode = 0 ∨ opcode = 1 ∨ opcode = 2 := by
  rw [UInt8.le_iff_toNat_le] at h
  simp only [← UInt8.toNat_inj]
  simp only [UInt8.reduceToNat] at h ⊢
  omega

/-- The chunk gets to `process_frame` with its flag, unless a client drops it. -/
theorem rxEvent_eq (hmessage : c.OfMessage) :
    c.rxEvent = some (.frame c.data c.final) ∨ (c.rxEvent = none ∧ c.kept = false) := by
  cases c with
  | client opCode fin offset len data =>
    obtain ⟨hne, hopcode⟩ := hmessage
    have hlength : data.length ≠ 0 := by simpa using hne
    simp only [Received.rxEvent, Received.kept, if_neg hlength]
    obtain h | h | h := opcode_cases hopcode <;> simp [h, Received.data]
  | server final payload => exact .inl rfl

theorem processChunk_kept (hmessage : c.OfMessage) (hkept : c.kept) :
    processChunk m c = ((m.append c.data c.final).1,
        if (m.append c.data c.final).2 then [(m.append c.data c.final).1.content] else []) := by
  have hlong : ¬c.data.length < 2 := by
    cases c <;> simp [Received.kept, Received.data] at hkept ⊢ <;> omega
  obtain hevent | ⟨-, hdropped⟩ := rxEvent_eq hmessage
  · simp only [processChunk, hevent, Message.processFrame, if_neg hlong]
  · rw [hkept] at hdropped
    cases hdropped

theorem processChunk_not_kept (hmessage : c.OfMessage) (hkept : c.kept = false) :
    processChunk m c = (m, []) := by
  obtain hevent | ⟨hevent, -⟩ := rxEvent_eq hmessage
  · have hshort : c.data.length < 2 := by
      cases c with
      | client opCode fin offset len data =>
        simp only [Received.kept, Bool.and_eq_false_iff, decide_eq_false_iff_not, not_not]
          at hkept
        obtain hshort | hzero := hkept
        · exact Nat.lt_of_not_le hshort
        · simp [Received.rxEvent, hzero] at hevent
      | server final payload => simpa [Received.kept, Received.data] using hkept
    simp only [processChunk, hevent, Message.processFrame, if_pos hshort]
  · simp only [processChunk, hevent]

theorem data_ne_nil (hkept : c.kept) : c.data ≠ [] := by
  intro hnil
  cases c <;> simp_all [Received.kept, Received.data]

theorem Message.Assembles.chunk (h : m.Assembles text) (hmessage : c.OfMessage)
    (hfinal : c.final = false) :
    (processChunk m c).1.Assembles (grow text c) ∧ (processChunk m c).2 = [] := by
  cases hkept : c.kept with
  | false => simpa [processChunk_not_kept hmessage hkept, grow, hkept] using h
  | true =>
    rw [processChunk_kept hmessage hkept, grow, if_pos hkept, hfinal]
    by_cases hfull : shipConnectionMaxBufferSize ≤ text.length + c.data.length
    · obtain ⟨hempty, hnot⟩ := @overflows m text c.data false h hfull
      simp [hfull, hempty, hnot]
    · obtain ⟨hfin, -, hgrown⟩ := @grows m text c.data false h (data_ne_nil hkept) hfull
      simpa [hfull, hfin] using hgrown

/-- The last chunk of a message. -/
theorem Message.Assembles.lastChunk (h : m.Assembles text) (hmessage : c.OfMessage)
    (hkept : c.kept) (hfinal : c.final) :
    (processChunk m c).1.multipartIndex = none ∧ (processChunk m c).2 =
        if shipConnectionMaxBufferSize ≤ text.length + c.data.length then []
        else [text ++ c.data] := by
  rw [processChunk_kept hmessage hkept, hfinal]
  by_cases hfull : shipConnectionMaxBufferSize ≤ text.length + c.data.length
  · obtain ⟨hempty, hnot⟩ := @overflows m text c.data true h hfull
    obtain ⟨-, hindex⟩ | ⟨hne, -⟩ := hempty
    · simp [hfull, hnot, hindex]
    · exact absurd rfl hne
  · obtain ⟨hfin, hcontent, hgrown⟩ := @grows m text c.data true h (data_ne_nil hkept) hfull
    obtain ⟨-, hindex⟩ | ⟨hne, -⟩ := hgrown
    · simp [hfull, hfin, hcontent, hindex]
    · exact absurd rfl hne

theorem processChunks_append (m : Message) (chunks chunks' : List Received) :
    processChunks m (chunks ++ chunks') = ((processChunks (processChunks m chunks).1 chunks').1,
        (processChunks m chunks).2 ++ (processChunks (processChunks m chunks).1 chunks').2) := by
  induction chunks generalizing m with
  | nil => simp [processChunks]
  | cons c rest ih => simp [processChunks, ih]

theorem Message.Assembles.chunks (h : m.Assembles text) {init : List Received}
    (hmessage : ∀ c ∈ init, c.OfMessage) (hfinal : ∀ c ∈ init, c.final = false) :
    (processChunks m init).1.Assembles (init.foldl grow text) ∧ (processChunks m init).2 = [] := by
  induction init generalizing m text with
  | nil => exact ⟨h, rfl⟩
  | cons c rest ih =>
    obtain ⟨hchunk, hnone⟩ := h.chunk (hmessage c (by simp)) (hfinal c (by simp))
    obtain ⟨hrest, hnone'⟩ := ih hchunk (fun c hc => hmessage c (by simp [hc]))
      (fun c hc => hfinal c (by simp [hc]))
    exact ⟨hrest, by simp [processChunks, hnone, hnone']⟩

theorem length_foldl_grow (init : List Received) (text : List UInt8) :
    (init.foldl grow text).length = ((init.filter Received.kept).map fun c => c.data.length).foldl
        (fun n l => if shipConnectionMaxBufferSize ≤ n + l then 0 else n + l) text.length := by
  induction init generalizing text with
  | nil => rfl
  | cons c rest ih =>
    rw [List.foldl_cons, ih, grow]
    cases hkept : c.kept with
    | false => simp [hkept]
    | true =>
      simp only [hkept, List.filter_cons_of_pos, List.map_cons, List.foldl_cons]
      split_ifs <;> simp

theorem foldl_grow_of_lt {init : List Received} {text : List UInt8}
    (hroom : text.length + (init.flatMap Received.data).length < shipConnectionMaxBufferSize) :
    init.foldl grow text = text ++ (init.filter Received.kept).flatMap Received.data := by
  induction init generalizing text with
  | nil => simp
  | cons c rest ih =>
    rw [List.flatMap_cons, List.length_append] at hroom
    rw [List.foldl_cons, grow]
    cases hkept : c.kept with
    | false =>
      rw [if_neg (by simp), ih (by omega), List.filter_cons_of_neg (by simp [hkept])]
    | true =>
      rw [if_pos rfl, if_neg (by omega), ih (by rw [List.length_append]; omega),
        List.filter_cons_of_pos hkept, List.flatMap_cons, List.append_assoc]

theorem length_kept_le (chunks : List Received) :
    ((chunks.filter Received.kept).flatMap Received.data).length ≤
      (chunks.flatMap Received.data).length := by
  induction chunks with
  | nil => simp
  | cons c rest ih =>
    cases hkept : c.kept <;> simp [hkept] at ih ⊢ <;> omega

/-- What is kept of a message is the message only if every chunk is kept. -/
theorem kept_eq_iff {chunks : List Received} (hdata : ∀ c ∈ chunks, c.data ≠ []) :
    (chunks.filter Received.kept).flatMap Received.data = chunks.flatMap Received.data ↔
      ∀ c ∈ chunks, c.kept := by
  induction chunks with
  | nil => simp
  | cons c rest ih =>
    have hrest := ih fun c hc => hdata c (by simp [hc])
    rw [List.forall_mem_cons, List.flatMap_cons, ← hrest]
    cases hkept : c.kept with
    | false =>
      have hle := length_kept_le rest
      have hpos := List.length_pos_iff.2 (hdata c (by simp))
      rw [List.filter_cons_of_neg (by simp [hkept])]
      refine iff_of_false (fun heq => ?_) (fun h => by cases h.1)
      have hlength := congrArg List.length heq
      rw [List.length_append] at hlength
      omega
    | true => simp [hkept]

theorem Received.OfMessage.data_ne_nil (h : c.OfMessage) : c.data ≠ [] := by
  cases c with
  | client => exact h.1
  | server => exact h

/-- A message is handed over properly if and only if its chunks are clean. -/
theorem handsOver_iff (hidle : m.multipartIndex = none) {chunks : List Received}
    (h : IsSplit chunks) : HandsOver m chunks ↔ Clean chunks := by
  obtain ⟨hmessage, ⟨init, last, rfl, hlast, hinit⟩, -⟩ := h
  have hidle' : m.Assembles [] := .inl ⟨rfl, hidle⟩
  have hlastMessage : last.OfMessage := hmessage last (by simp)
  obtain ⟨hassembles, hnone⟩ := hidle'.chunks (fun c hc => hmessage c (by simp [hc])) hinit
  have hassembled : assembled (((init ++ [last]).filter Received.kept).map fun c =>
      c.data.length) = (grow (init.foldl grow []) last).length := by
    have hlength := length_foldl_grow (init ++ [last]) []
    rw [List.foldl_append] at hlength
    exact hlength.symm
  have htotal : ((init ++ [last]).flatMap Received.data).length =
      (init.flatMap Received.data).length + last.data.length := by simp
  have hkeptAll := @kept_eq_iff (init ++ [last]) fun c hc => (hmessage c hc).data_ne_nil
  rw [HandsOver, Clean, processChunks_append, hnone, List.nil_append, hassembled, grow]
  simp only [processChunks]
  cases hkept : last.kept with
  | true =>
    obtain ⟨hindex, hhanded⟩ := hassembles.lastChunk hlastMessage hkept hlast
    rw [hhanded]
    simp only [hindex]
    by_cases hfits : ((init ++ [last]).flatMap Received.data).length < shipConnectionMaxBufferSize
    · have hgrow : init.foldl grow [] = (init.filter Received.kept).flatMap Received.data :=
        foldl_grow_of_lt (by rw [List.length_nil]; omega)
      have hle := length_kept_le init
      rw [if_pos hfits, if_pos hfits, hgrow, if_neg (by omega), ← hkeptAll]
      simp [hkept]
    · rw [if_neg hfits, if_neg hfits]
      split_ifs <;> simp
      exact fun _ => hlastMessage.data_ne_nil
  | false =>
    have hempty : (processChunks m init).1.multipartIndex = none ↔ init.foldl grow [] = [] := by
      obtain ⟨hnil, hindex⟩ | ⟨hne, hindex, -⟩ := hassembles
      · simp [hnil, hindex]
      · simp [hne, hindex]
    rw [processChunk_not_kept hlastMessage hkept]
    by_cases hfits : ((init ++ [last]).flatMap Received.data).length < shipConnectionMaxBufferSize
    · rw [if_pos hfits, if_pos hfits]
      refine iff_of_false (fun h => by simp at h) fun h => ?_
      have hlastKept := h last (by simp)
      rw [hkept] at hlastKept
      cases hlastKept
    · rw [if_neg hfits, if_neg hfits, hempty]
      simp

end

structure Receiver where
  queue : List RxEvent := []
  messageIncoming : Message := {}
  closingScheduled : Bool := false
  handed : List (List UInt8) := []

inductive Step where
  /-- A websocket task pushes what it has received. -/
  | received (c : Received)
  /-- Another connection pushes an event. -/
  | otherReceived (dataLen : ℕ)
  /-- The main task takes an event of the queue. -/
  | processed
  /-- The state machine empties the message that it has answered. -/
  | answered
  | closed

def queuedBytes : List RxEvent → ℕ
  | [] => 0
  | event :: rest => event.dataLen + queuedBytes rest

/-- `QUEUE_SIZE` and `MAX_BYTES` -/
def HasRoom (queue : List RxEvent) (event : RxEvent) : Prop :=
  queue.length < 16 ∧ queuedBytes queue + event.dataLen ≤ 128 * 1024

instance (queue : List RxEvent) (event : RxEvent) : Decidable (HasRoom queue event) :=
  inferInstanceAs (Decidable (_ ∧ _))

def pushRxEvent (queue : List RxEvent) (event : RxEvent) : List RxEvent :=
  if HasRoom queue event then queue ++ [event] else queue

/-- Nothing finds a connection that is closing. -/
def processRxEvent (r : Receiver) (event : RxEvent) : Receiver :=
  if r.closingScheduled then r
  else
    match event with
    | .frame data fin =>
      let next := r.messageIncoming.processFrame data fin
      { r with messageIncoming := next.1, handed := r.handed ++ next.2 }
    | .disconnected => { r with closingScheduled := true }
    | .other _ => r

def Receiver.step (r : Receiver) : Step → Receiver
  | .received c =>
    match c.rxEvent with
    | none => r
    | some event => { r with queue := pushRxEvent r.queue event }
  | .otherReceived dataLen => { r with queue := pushRxEvent r.queue (.other dataLen) }
  | .processed =>
    match r.queue with
    | [] => r
    | event :: rest => processRxEvent { r with queue := rest } event
  | .answered => { r with messageIncoming := { r.messageIncoming with length := 0 } }
  | .closed => { r with closingScheduled := true }

def Receiver.run (r : Receiver) (steps : List Step) : Receiver := steps.foldl Receiver.step r

/-- The queue has room for what is received, no message is emptied while it is assembled, and the
connection stays open. -/
def Smooth : Receiver → List Step → Prop
  | _, [] => True
  | r, step :: rest =>
    (match step with
      | .received c => ∀ event ∈ c.rxEvent, HasRoom r.queue event
      | .answered => r.messageIncoming.multipartIndex = none
      | .closed => False
      | _ => True) ∧
    Smooth (r.step step) rest

def Step.chunk? : Step → Option Received
  | received c => some c
  | _ => none

def fitsBuffer (message : List UInt8) : Bool :=
  decide (message.length < shipConnectionMaxBufferSize)

/-- What the messages of a run are handed over as. -/
def expected (messages : List (List Received)) : List (List UInt8) :=
  (messages.map fun chunks => chunks.flatMap Received.data).filter fitsBuffer

def processEvents (m : Message) : List RxEvent → Message × List (List UInt8)
  | [] => (m, [])
  | .frame data fin :: rest =>
    let next := m.processFrame data fin
    ((processEvents next.1 rest).1, next.2 ++ (processEvents next.1 rest).2)
  | _ :: rest => processEvents m rest

theorem processEvents_filterMap (chunks : List Received) (m : Message) :
    processEvents m (chunks.filterMap Received.rxEvent) = processChunks m chunks := by
  induction chunks generalizing m with
  | nil => rfl
  | cons c rest ih =>
    cases hevent : c.rxEvent with
    | none => simp [processChunks, processChunk, hevent, ih]
    | some event =>
      cases event <;> simp [processChunks, processChunk, hevent, processEvents, ih]

theorem processEvents_other (events rest : List RxEvent) (dataLen : ℕ) (m : Message) :
    processEvents m (events ++ .other dataLen :: rest) = processEvents m (events ++ rest) := by
  induction events generalizing m with
  | nil => rfl
  | cons event events ih => cases event <;> simp [processEvents, ih]

/-- What an idle buffer holds is never looked at. -/
theorem processEvents_idle (events : List RxEvent) {m m' : Message}
    (h : m.multipartIndex = none) (h' : m'.multipartIndex = none) :
    (processEvents m events).2 = (processEvents m' events).2 := by
  induction events with
  | nil => rfl
  | cons event events ih =>
    cases event with
    | frame data fin =>
      have happend : m.append data fin = m'.append data fin := by simp [Message.append, h, h']
      simp only [processEvents, Message.processFrame, happend]
      split_ifs <;> simp [ih]
    | disconnected | other dataLen => exact ih

/-- The events of the chunks that a run receives. -/
def eventsOf (steps : List Step) : List RxEvent :=
  (steps.filterMap Step.chunk?).filterMap Received.rxEvent

/-- Nothing of what was received is lost or taken twice. -/
theorem run_handed (steps : List Step) (r : Receiver) (hopen : r.closingScheduled = false)
    (hqueue : .disconnected ∉ r.queue) (hsteps : .disconnected ∉ eventsOf steps)
    (hsmooth : Smooth r steps) :
    (r.run steps).handed ++ (processEvents (r.run steps).messageIncoming (r.run steps).queue).2 =
      r.handed ++ (processEvents r.messageIncoming (r.queue ++ eventsOf steps)).2 := by
  induction steps generalizing r with
  | nil => simp [Receiver.run, eventsOf]
  | cons step rest ih =>
    obtain ⟨hstep, hrest⟩ := hsmooth
    have hrun : r.run (step :: rest) = (r.step step).run rest := rfl
    rw [hrun]
    cases step with
    | received c =>
      cases hevent : c.rxEvent with
      | none =>
        have hsame : r.step (.received c) = r := by simp [Receiver.step, hevent]
        have hevents : eventsOf (.received c :: rest) = eventsOf rest := by
          simp [eventsOf, Step.chunk?, hevent]
        rw [hsame] at hrest ⊢
        rw [hevents] at hsteps ⊢
        exact ih r hopen hqueue hsteps hrest
      | some event =>
        have hroom : HasRoom r.queue event := hstep event (by simp [hevent])
        have hnext : r.step (.received c) = { r with queue := r.queue ++ [event] } := by
          simp [Receiver.step, hevent, pushRxEvent, hroom]
        have hevents : eventsOf (.received c :: rest) = event :: eventsOf rest := by
          simp [eventsOf, Step.chunk?, hevent]
        rw [hevents] at hsteps ⊢
        rw [hnext] at hrest ⊢
        rw [List.mem_cons, not_or] at hsteps
        have hqueue' : .disconnected ∉ r.queue ++ [event] := by
          simp [hqueue, hsteps.1]
        have hgo := ih { r with queue := r.queue ++ [event] } hopen hqueue' hsteps.2 hrest
        rw [hgo, List.append_assoc, List.singleton_append]
    | otherReceived dataLen =>
      have hevents : eventsOf (.otherReceived dataLen :: rest) = eventsOf rest := by
        simp [eventsOf, Step.chunk?, List.filterMap_cons]
      rw [hevents] at hsteps ⊢
      by_cases hroom : HasRoom r.queue (.other dataLen)
      · have hnext : r.step (.otherReceived dataLen) =
            { r with queue := r.queue ++ [.other dataLen] } := by
          simp [Receiver.step, pushRxEvent, hroom]
        rw [hnext] at hrest ⊢
        have hgo := ih { r with queue := r.queue ++ [.other dataLen] } hopen (by simp [hqueue])
          hsteps hrest
        rw [hgo, List.append_assoc, List.singleton_append, processEvents_other]
      · have hnext : r.step (.otherReceived dataLen) = r := by
          simp [Receiver.step, pushRxEvent, hroom]
        rw [hnext] at hrest ⊢
        exact ih r hopen hqueue hsteps hrest
    | processed =>
      have hevents : eventsOf (.processed :: rest) = eventsOf rest := by
        simp [eventsOf, Step.chunk?, List.filterMap_cons]
      rw [hevents] at hsteps ⊢
      cases hq : r.queue with
      | nil =>
        have hnext : r.step .processed = r := by simp [Receiver.step, hq]
        rw [hnext] at hrest ⊢
        rw [ih r hopen hqueue hsteps hrest, hq]
      | cons event queue =>
        rw [hq, List.mem_cons, not_or] at hqueue
        have hnext : r.step .processed = processRxEvent { r with queue := queue } event := by
          simp [Receiver.step, hq]
        rw [hnext] at hrest ⊢
        cases event with
        | frame data fin =>
          have hgo := ih _ (by simp [processRxEvent, hopen])
            (by simpa [processRxEvent, hopen] using hqueue.2) hsteps hrest
          rw [hgo]
          simp [processRxEvent, hopen, processEvents]
        | disconnected => exact absurd rfl hqueue.1
        | other dataLen =>
          have hgo := ih _ (by simp [processRxEvent, hopen])
            (by simpa [processRxEvent] using hqueue.2) hsteps hrest
          rw [hgo]
          simp [processRxEvent, processEvents]
    | answered =>
      have hidle : r.messageIncoming.multipartIndex = none := hstep
      have hgo := ih (r.step .answered) hopen hqueue hsteps hrest
      rw [hgo]
      exact congrArg (r.handed ++ ·) (processEvents_idle _ hidle hidle)
    | closed => exact hstep.elim

/-- Clean messages are handed over one after the other. -/
theorem processChunks_flatten (messages : List (List Received)) (m : Message)
    (hidle : m.multipartIndex = none)
    (hmessages : ∀ chunks ∈ messages, IsSplit chunks ∧ Clean chunks) :
    (processChunks m messages.flatten).2 = expected messages := by
  induction messages generalizing m with
  | nil => rfl
  | cons chunks rest ih =>
    obtain ⟨hsplit, hclean⟩ := hmessages chunks (by simp)
    obtain ⟨hhanded, hidle'⟩ := (handsOver_iff hidle hsplit).2 hclean
    have hrest := ih _ hidle' fun chunks hchunks => hmessages chunks (by simp [hchunks])
    rw [List.flatten_cons, processChunks_append, hhanded, hrest, expected, expected, List.map_cons]
    split_ifs with hfits
    · have hpos : fitsBuffer (chunks.flatMap Received.data) := decide_eq_true hfits
      rw [List.filter_cons_of_pos hpos, List.singleton_append]
    · have hneg : ¬fitsBuffer (chunks.flatMap Received.data) := fun h =>
        hfits (of_decide_eq_true h)
      rw [List.filter_cons_of_neg hneg, List.nil_append]

def frameFree (queue : List RxEvent) : Prop := ∀ event ∈ queue, ∃ dataLen, event = .other dataLen

theorem processEvents_of_frameFree {queue : List RxEvent} (h : frameFree queue) (m : Message) :
    processEvents m queue = (m, []) := by
  induction queue with
  | nil => rfl
  | cons event rest ih =>
    obtain ⟨dataLen, rfl⟩ := h event (by simp)
    exact ih fun e he => h e (by simp [he])

/-- A message in two chunks. -/
def twoChunks : List Received := [.server false [1, 2], .server true [3, 4]]

end Esp32Firmware.Eebus

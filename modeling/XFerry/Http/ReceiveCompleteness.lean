/-
What the receiver returns without a rejection.

Once the header block is received the receiver returns a whole request or rejects
it.  Before that it does neither when the peer falls silent or closes, or when the
callback of the headers times out: it returns what it has read.
-/

import XFerry.Http.Receive

namespace XFerry.Http

open Python EventMachine List FirstOccurrence Receiver

variable {unicode : Unicode} {config : ReceiveConfig}

/-- A full header block, its terminator, and the body it announces. -/
def IsWholeRequest (unicode : Unicode) (data : Bytes) : Prop :=
  ∃ header body, data = header ++ headerTerminator ++ body ∧
    find headerTerminator data = some header.length ∧
    parseContentLength unicode (decodeReplacing header) = some body.length

/-- What is handed to the request pipeline is a whole request.  A rejection hands over
nothing. -/
def ReceiveOutcome.Complete (unicode : Unicode) (outcome : ReceiveOutcome) : Prop :=
  ∀ data, outcome.handedOver = some data → IsWholeRequest unicode data

variable {outcome : ReceiveOutcome}

theorem ReceiveOutcome.handedOver_ne_nil {data : Bytes}
    (handed : outcome.handedOver = some data) : data ≠ [] := by
  cases outcome with
  | raised message => cases handed
  | returned result =>
    simp only [ReceiveOutcome.handedOver] at handed
    split at handed
    · cases handed
    rename_i nonempty
    cases handed
    exact nonempty

theorem reject_complete (reason : ReceiveRejectionReason) : (reject reason).Complete unicode := by
  intro data handed
  cases handed

theorem length_headerTerminator : headerTerminator.length = 4 := rfl

theorem isWholeRequest_iff {data : Bytes} {headerEnd : Nat}
    (located : find headerTerminator data = some headerEnd) :
    IsWholeRequest unicode data ↔
      parseContentLength unicode (decodeReplacing (data.take headerEnd)) =
        some (data.length - headerEnd - headerTerminator.length) := by
  constructor
  · rintro ⟨header, body, joined, found, announced⟩
    rw [located] at found
    cases found
    have header_eq : data.take header.length = header := by
      rw [joined, append_assoc, take_left]
    rw [header_eq, announced, joined]
    simp only [length_append]
    congr 1
    omega
  · intro announced
    have inside := find_le located
    refine ⟨data.take headerEnd, data.drop (headerEnd + headerTerminator.length),
      split_of_find located, ?_, ?_⟩
    · rw [length_take_of_le (by omega)]
      exact located
    · rw [announced, length_drop, Nat.sub_sub]

structure Framing.Fits (unicode : Unicode) (config : ReceiveConfig) (header : Bytes)
    (framing : Framing) : Prop where
  header_length_le : header.length ≤ config.maxHeaderSize
  contentLength_eq :
    parseContentLength unicode (decodeReplacing header) = some framing.contentLength
  contentLength_le : framing.contentLength ≤ framing.bodyLimit
  reserved : reserveBody config framing.contentLength = some framing.bodyReservation

inductive ReceiveOutcome.Refused : ReceiveOutcome → Prop where
  | rejected (reason : ReceiveRejectionReason) : Refused (reject reason)
  | raised (message : String) : Refused (.raised message)

theorem ReceiveOutcome.Refused.handedOver_eq (refused : outcome.Refused) :
    outcome.handedOver = none := by
  cases refused with
  | rejected | raised => rfl

theorem ReceiveOutcome.Refused.complete (refused : outcome.Refused) : outcome.Complete unicode := by
  intro data handed
  rw [refused.handedOver_eq] at handed
  cases handed

inductive Examined (unicode : Unicode) (config : ReceiveConfig) (header : Bytes) :
    Except (Option ReceiveOutcome) Framing → Prop where
  | refused {outcome : ReceiveOutcome} (refused : outcome.Refused) :
      Examined unicode config header (.error (some outcome))
  | timedOut : Examined unicode config header (.error none)
  | accepted {framing : Framing} (fits : framing.Fits unicode config header) :
      Examined unicode config header (.ok framing)

theorem examined (unicode : Unicode) (config : ReceiveConfig) (header : Bytes) :
    Examined unicode config header (examineHeaders unicode config header) := by
  unfold examineHeaders
  dsimp only
  split
  · exact .refused (.rejected _)
  rename_i short
  split
  · exact .refused (.rejected _)
  split
  · exact .refused (.rejected _)
  rename_i contentLength parsed
  split
  · exact .refused (.raised _)
  split
  · exact .refused (.rejected _)
  rename_i within
  split
  · exact .refused (.rejected _)
  · exact .timedOut
  · exact .refused (.raised _)
  split
  · exact .refused (.rejected _)
  rename_i bodyReservation room
  exact .accepted ⟨by omega, parsed, by simpa using within, room⟩

theorem fits_of_examineHeaders {header : Bytes} {framing : Framing}
    (accepted : examineHeaders unicode config header = .ok framing) :
    framing.Fits unicode config header := by
  have examined := examined unicode config header
  rw [accepted] at examined
  cases examined with
  | accepted fits => exact fits

theorem refused_of_examineHeaders {header : Bytes}
    (refused : examineHeaders unicode config header = .error (some outcome)) :
    outcome.Refused := by
  have examined := examined unicode config header
  rw [refused] at examined
  cases examined with
  | refused refused => exact refused

/-- The body is there exactly where the header block is complete, and is that of the
header block. -/
def Receiver.Valid (unicode : Unicode) (config : ReceiveConfig) (receiver : Receiver) : Prop :=
  match receiver.body with
  | none => find headerTerminator receiver.received = none
  | some body =>
    find headerTerminator receiver.received = some body.headerEnd ∧
      examineHeaders unicode config (receiver.received.take body.headerEnd) = .ok body.framing

theorem Receiver.initial_valid (startTime : Seconds) :
    (initial startTime).Valid unicode config := by
  simp [Receiver.Valid, initial, find, headerTerminator]

variable {receiver : Receiver} {body : Body}

section

variable (valid : receiver.Valid unicode config)
include valid

section

variable (inBody : receiver.body = some body)
include inBody

theorem Receiver.Valid.addBodyChunk {chunk : Bytes} :
    Receiver.Valid unicode config
      { receiver with received := receiver.received ++ chunk, body := some body } := by
  simp only [Receiver.Valid, inBody] at valid ⊢
  have inside := find_le valid.1
  refine ⟨find_append valid.1, ?_⟩
  rw [take_append_of_le_length (by omega)]
  exact valid.2

section

variable (full : body.framing.contentLength ≤ body.received receiver.received)
include full

theorem Receiver.Valid.isWholeRequest :
    IsWholeRequest unicode (receiver.received.take
      (body.headerEnd + headerTerminator.length + body.framing.contentLength)) := by
  simp only [Receiver.Valid, inBody] at valid
  obtain ⟨located, accepted⟩ := valid
  have inside := find_le located
  simp only [Body.received] at full
  have here : find headerTerminator (receiver.received.take
      (body.headerEnd + headerTerminator.length + body.framing.contentLength)) =
        some body.headerEnd := by
    rw [← take_append_drop (body.headerEnd + headerTerminator.length +
      body.framing.contentLength) receiver.received] at located
    apply find_of_find_append located
    rw [length_take]
    omega
  rw [isWholeRequest_iff here, take_take, Nat.min_eq_left (by omega),
    (fits_of_examineHeaders accepted).contentLength_eq, length_take]
  congr 1
  omega

theorem Receiver.Valid.result_complete : receiver.result.Complete unicode := by
  intro data handed
  simp only [result, inBody, ReceiveOutcome.handedOver] at handed
  split at handed
  · cases handed
  · cases handed
    exact valid.isWholeRequest inBody full

end

end

end

/-- A header block on which the callback times out has come with exactly its body. -/
def TimesOutWhole (unicode : Unicode) (config : ReceiveConfig) (data : Bytes) : Prop :=
  match find headerTerminator data with
  | none => True
  | some headerEnd =>
    examineHeaders unicode config (data.take headerEnd) = .error none →
      parseContentLength unicode (decodeReplacing (data.take headerEnd)) =
        some (data.length - headerEnd - headerTerminator.length)

/-- The peer neither falls silent nor closes where only a piece of a header block has
arrived, and the callback does not time out on a header block that has come with more or
less than its body. -/
def KeepsHeaderWhole (unicode : Unicode) (config : ReceiveConfig) : Phase → Turn → Prop
  | .waiting receiver, turn =>
    receiver.body = none → ¬ headerTimeout < turn.now - receiver.startTime →
      (receiver.received ≠ [] → ∃ chunk, turn.arrival = .data chunk) ∧
        TimesOutWhole unicode config (receiver.received ++ turn.arrival.bytes)
  | .finished _, _ => True

theorem exists_data_iff {arrival : Arrival} :
    (∃ chunk, arrival = .data chunk) ↔ arrival ≠ .closed ∧ arrival ≠ .timedOut := by
  cases arrival with
  | data | closed | timedOut => simp

instance (data : Bytes) : Decidable (TimesOutWhole unicode config data) := by
  unfold TimesOutWhole
  split
  · exact isTrue trivial
  · exact inferInstance

instance : ∀ (phase : Phase) (turn : Turn), Decidable (KeepsHeaderWhole unicode config phase turn)
  | .waiting receiver, turn =>
    decidable_of_iff (receiver.body = none → ¬ headerTimeout < turn.now - receiver.startTime →
        (receiver.received ≠ [] → turn.arrival ≠ .closed ∧ turn.arrival ≠ .timedOut) ∧
          TimesOutWhole unicode config (receiver.received ++ turn.arrival.bytes))
      (by simp only [KeepsHeaderWhole, exists_data_iff])
  | .finished _, _ => isTrue trivial

/-- What a phase reached by a turn must be, given whether the turn broke off a header
block. -/
def Phase.Follows (unicode : Unicode) (config : ReceiveConfig) (kept : Prop) : Phase → Prop
  | .waiting receiver => kept ∧ receiver.Valid unicode config
  | .finished outcome => outcome.Complete unicode ↔ kept

variable {kept : Prop}

theorem Phase.follows_of_complete (holds : kept)
    (complete : outcome.Complete unicode) : (Phase.finished outcome).Follows unicode config kept :=
  ⟨fun _ => holds, fun _ => complete⟩

theorem Receiver.checkBody_follows
    (holds : kept) (valid : receiver.Valid unicode config) (inBody : receiver.body = some body) :
    (receiver.checkBody body).Follows unicode config kept := by
  unfold checkBody
  split
  · exact Phase.follows_of_complete holds (reject_complete _)
  split
  · case isTrue full =>
    exact Phase.follows_of_complete holds (valid.result_complete inBody full)
  · exact ⟨holds, valid⟩

theorem Receiver.addHeaderChunk_follows {chunk : Bytes} {later : Seconds}
    (inHeaders : receiver.body = none) :
    (receiver.addHeaderChunk unicode config chunk later).Follows unicode config
      (TimesOutWhole unicode config (receiver.received ++ chunk)) := by
  unfold addHeaderChunk TimesOutWhole
  dsimp only
  cases located : find headerTerminator (receiver.received ++ chunk) with
  | none =>
    dsimp only
    split
    · exact Phase.follows_of_complete trivial (reject_complete _)
    refine ⟨trivial, ?_⟩
    simp only [Receiver.Valid, inHeaders]
    exact located
  | some headerEnd =>
    dsimp only
    split
    · case h_1 outcome refused =>
      rw [refused]
      exact Phase.follows_of_complete (fun timedOut => by cases timedOut)
        (refused_of_examineHeaders refused).complete
    · case h_2 timedOut =>
      -- What has been read is handed over, and is whole where it has exactly the body.
      have nonempty : receiver.received ++ chunk ≠ [] := by
        intro nothing
        rw [nothing] at located
        cases located
      simp only [Phase.Follows, result, inHeaders, ReceiveOutcome.Complete,
        ReceiveOutcome.handedOver, if_neg nonempty, Option.some.injEq, forall_eq',
        isWholeRequest_iff located]
      exact ⟨fun announced _ => announced, fun kept => kept timedOut⟩
    · case h_3 framing accepted =>
      rw [accepted]
      apply checkBody_follows (fun timedOut => by cases timedOut)
      · exact ⟨located, accepted⟩
      · rfl

theorem not_isWholeRequest_of_find_eq_none {data : Bytes}
    (missing : find headerTerminator data = none) :
    ¬ IsWholeRequest unicode data := by
  intro whole
  obtain ⟨header, body, _, located, _⟩ := whole
  rw [missing] at located
  cases located

theorem Receiver.turn_follows {turn : Turn} {next : Phase} (valid : receiver.Valid unicode config)
    (taken : receiver.turn unicode config turn = some next) :
    next.Follows unicode config (KeepsHeaderWhole unicode config (.waiting receiver) turn) := by
  cases inHeaders : receiver.body with
  | some body =>
    have kept : KeepsHeaderWhole unicode config (.waiting receiver) turn := by
      intro outside
      rw [inHeaders] at outside
      cases outside
    simp only [Receiver.turn, inHeaders, Receiver.bodyTurn] at taken
    split at taken
    · cases taken
      exact Phase.follows_of_complete kept (reject_complete _)
    split at taken
    · case isTrue full =>
      cases taken
      exact Phase.follows_of_complete kept (valid.result_complete inHeaders full)
    split at taken
    · cases taken
      exact Phase.follows_of_complete kept (reject_complete _)
    · split at taken
      · cases taken
        exact Phase.follows_of_complete kept (reject_complete _)
      split at taken
      · cases taken
        exact ⟨kept, valid⟩
      · cases taken
        exact Phase.follows_of_complete kept (reject_complete _)
    · split at taken
      · cases taken
      · cases taken
        exact Receiver.checkBody_follows kept (valid.addBodyChunk inHeaders) rfl
  | none =>
    have missing : find headerTerminator receiver.received = none := by
      simpa only [Receiver.Valid, inHeaders] using valid
    -- The loop ends here with what has arrived, which is whole only if it is nothing.
    have brokenOff (silent : ∀ chunk, turn.arrival ≠ .data chunk)
        (nothing : turn.arrival.bytes = [])
        (inTime : ¬ headerTimeout < turn.now - receiver.startTime) :
        (Phase.finished receiver.result).Follows unicode config
          (KeepsHeaderWhole unicode config (.waiting receiver) turn) := by
      simp only [result, inHeaders, Phase.Follows, ReceiveOutcome.Complete,
        ReceiveOutcome.handedOver]
      constructor
      · intro complete _ _
        refine ⟨fun nonempty => ?_, ?_⟩
        · exact absurd (complete receiver.received (if_neg nonempty))
            (not_isWholeRequest_of_find_eq_none missing)
        · simp only [TimesOutWhole, nothing, append_nil, missing]
      · intro kept data handed
        split at handed
        · cases handed
        rename_i nonempty
        obtain ⟨chunk, arrived⟩ := (kept inHeaders inTime).1 nonempty
        exact absurd arrived (silent chunk)
    simp only [Receiver.turn, inHeaders, Receiver.headerTurn] at taken
    split at taken
    · case isTrue late =>
      cases taken
      exact Phase.follows_of_complete (fun _ inTime => absurd late inTime) (reject_complete _)
    rename_i inTime
    split at taken
    · case h_1 arrived =>
      cases taken
      exact brokenOff (by simp [arrived]) (by simp [arrived, Arrival.bytes]) inTime
    · case h_2 arrived =>
      cases taken
      exact brokenOff (by simp [arrived]) (by simp [arrived, Arrival.bytes]) inTime
    rename_i chunk arrived
    split at taken
    · cases taken
    · cases taken
      have kept_iff : KeepsHeaderWhole unicode config (.waiting receiver) turn ↔
          TimesOutWhole unicode config (receiver.received ++ chunk) := by
        simp [KeepsHeaderWhole, inHeaders, inTime, arrived, Arrival.bytes]
      rw [kept_iff]
      exact Receiver.addHeaderChunk_follows inHeaders

theorem finished_of_run {turns : List Turn} {final : Phase}
    (reached : run (receiveStep unicode config) (.finished outcome) turns = some final) :
    turns = [] ∧ final = .finished outcome := by
  cases turns with
  | nil =>
    cases reached
    exact ⟨rfl, rfl⟩
  | cons turn rest => simp [run, receiveStep] at reached

theorem complete_iff_of_run {turns : List Turn} (valid : receiver.Valid unicode config)
    (reached : run (receiveStep unicode config) (.waiting receiver) turns =
      some (.finished outcome)) :
    outcome.Complete unicode ↔
      Along (receiveStep unicode config) (KeepsHeaderWhole unicode config)
        (.waiting receiver) turns := by
  induction turns generalizing receiver with
  | nil => cases reached
  | cons turn rest ih =>
    obtain ⟨next, taken, later⟩ := Option.bind_eq_some_iff.mp reached
    have follows := receiver.turn_follows valid taken
    rw [along_cons_some taken]
    cases next with
    | waiting receiver =>
      obtain ⟨kept, valid⟩ := follows
      rw [ih valid later]
      exact ⟨fun along => ⟨kept, along⟩, fun both => both.2⟩
    | finished ended =>
      obtain ⟨rfl, same⟩ := finished_of_run later
      cases same
      exact ⟨fun complete => ⟨follows.mp complete, trivial⟩, fun both => follows.mpr both.1⟩

/-- The receiver returns nothing but whole requests exactly where the peer does not
fall silent or close in the middle of a header block, and the callback does not time out
on one that has come with more or less than its body. -/
theorem receive_complete_iff (unicode : Unicode) (config : ReceiveConfig) (startTime : Seconds)
    (turns : List Turn) (outcome : ReceiveOutcome)
    (ended : receive unicode config startTime turns = some (.finished outcome)) :
    outcome.Complete unicode ↔
      Along (receiveStep unicode config) (KeepsHeaderWhole unicode config)
        (.waiting (.initial startTime)) turns :=
  complete_iff_of_run (initial_valid startTime) ended

def sampleReceive : ReceiveConfig :=
  { maxUploadSize := 100
    maxHeaderSize := 65536
    bodyIdleTimeout := some 5
    bodyTimeout := some 300
    bodyMinRate := 0
    bodyMemoryBudget := none
    bodyLimitResolver := none
    admitHeaders := none
    maxUploadSize_pos := by decide
    maxHeaderSize_pos := by decide
    bodyIdleTimeout_pos := by simp
    bodyTimeout_pos := by simp
    bodyMinRate_nonneg := le_refl 0 }

def asciiBytes (text : String) : Bytes := text.toList.map fun char => UInt8.ofNat char.toNat

def wholeTurns : List Turn :=
  [stillTurn (.data (asciiBytes "PUT / HTTP/1.1\r\ncontent-length: 2\r\n")),
    stillTurn (.data (asciiBytes "\r\nok"))]

def brokenOffTurns : List Turn :=
  [stillTurn (.data (asciiBytes "GET / HTTP/1.0\r\n")), stillTurn .closed]

theorem wholeTurns_complete :
    (ReceiveOutcome.returned
      { data := asciiBytes "PUT / HTTP/1.1\r\ncontent-length: 2\r\n\r\nok"
        bodyReservation := none
        rejectionReason := none }).Complete .ascii ↔
      Along (receiveStep .ascii sampleReceive) (KeepsHeaderWhole .ascii sampleReceive)
        (.waiting (.initial 0)) wholeTurns :=
  receive_complete_iff .ascii sampleReceive 0 wholeTurns _ (by decide +kernel)

theorem brokenOffTurns_not_complete :
    ∃ outcome, receive .ascii sampleReceive 0 brokenOffTurns = some (.finished outcome) ∧
      ¬ outcome.Complete .ascii := by
  refine ⟨.returned
    { data := asciiBytes "GET / HTTP/1.0\r\n"
      bodyReservation := none
      rejectionReason := none }, by decide +kernel, fun complete => ?_⟩
  have whole := complete (asciiBytes "GET / HTTP/1.0\r\n") (by decide +kernel)
  exact not_isWholeRequest_of_find_eq_none (by decide +kernel) whole

end XFerry.Http

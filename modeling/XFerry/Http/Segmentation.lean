/-
How much the receiver depends on the way a stream is cut into chunks.

The chunk that completes the header block may bring bytes of the body and of what
follows the request, and all of them count against the limit of the body.  Where
the largest such surplus stays within the limit every cut gives one outcome; where
it does not, two cuts give two.
-/

import XFerry.Http.ReceiveCompleteness

namespace XFerry.Http

open Python EventMachine List FirstOccurrence Receiver

/-! ### Streams and their cuts -/

def Delivers : Bytes → List Turn → Prop
  | _, [] => True
  | stream, turn :: rest =>
    match turn.arrival with
    | .data chunk => chunk <+: stream ∧ Delivers (stream.drop chunk.length) rest
    | .closed => stream = [] ∧ Delivers [] rest
    | .timedOut => False

def InTime (config : ReceiveConfig) : Phase → Turn → Prop
  | .waiting receiver, turn =>
    match receiver.body with
    | none => ¬ headerTimeout < turn.now - receiver.startTime
    | some body => body.expiredDeadline config receiver.received turn.now = none
  | .finished _, _ => True

/-- The callback does not time out on the header block of the stream. -/
def AdmissionAnswers (unicode : Unicode) (config : ReceiveConfig) (stream : Bytes) : Prop :=
  ∀ headerEnd, find headerTerminator stream = some headerEnd →
    examineHeaders unicode config (stream.take headerEnd) ≠ .error none

/-- One way of receiving the stream without timeouts, with what it leads to. -/
structure Cut (unicode : Unicode) (config : ReceiveConfig) (stream : Bytes) (startTime : Seconds)
    (turns : List Turn) (outcome : ReceiveOutcome) : Prop where
  answers : AdmissionAnswers unicode config stream
  delivers : Delivers stream turns
  inTime : Along (receiveStep unicode config) (InTime config) (.waiting (.initial startTime)) turns
  ended : receive unicode config startTime turns = some (.finished outcome)

def SegmentationIndependent (unicode : Unicode) (config : ReceiveConfig) (stream : Bytes) : Prop :=
  ∀ startTime turns outcome startTime' turns' outcome',
    Cut unicode config stream startTime turns outcome →
    Cut unicode config stream startTime' turns' outcome' → outcome = outcome'

def wholeOutcome (unicode : Unicode) (config : ReceiveConfig) (stream : Bytes) : ReceiveOutcome :=
  match find headerTerminator stream with
  | none =>
    if config.maxHeaderSize + headerTerminator.length ≤ stream.length then
      reject .headerTooLarge
    else .returned { data := stream, bodyReservation := none, rejectionReason := none }
  | some headerEnd =>
    match examineHeaders unicode config (stream.take headerEnd) with
    | .error (some outcome) => outcome
    | .error none => .returned { data := stream, bodyReservation := none, rejectionReason := none }
    | .ok framing =>
      if stream.length - headerEnd - headerTerminator.length < framing.contentLength then
        reject .bodyIncomplete
      else
        .returned
          { data := stream.take
              (headerEnd + headerTerminator.length + framing.contentLength)
            bodyReservation := framing.bodyReservation
            rejectionReason := none }

/-- The most bytes after the header block that can arrive in the chunk that completes
it. -/
def largestSurplus (config : ReceiveConfig) (stream : Bytes) (headerEnd : Nat) : Nat :=
  min (recvChunk - 1)
    (min (config.maxHeaderSize - headerEnd)
      (stream.length - headerEnd - headerTerminator.length))

/-- The surplus of an accepted header block stays within the limit of the body. -/
def SurplusFits (unicode : Unicode) (config : ReceiveConfig) (stream : Bytes) : Prop :=
  ∀ headerEnd framing, find headerTerminator stream = some headerEnd →
    examineHeaders unicode config (stream.take headerEnd) = .ok framing →
    largestSurplus config stream headerEnd ≤ framing.bodyLimit

variable {unicode : Unicode} {config : ReceiveConfig} {stream : Bytes}

/-! ### Where the surplus fits -/

def Receiver.Unfinished (config : ReceiveConfig) (receiver : Receiver) : Prop :=
  match receiver.body with
  | none => receiver.received.length < config.maxHeaderSize + headerTerminator.length
  | some body => body.received receiver.received < body.framing.contentLength

structure Receiver.Reads (unicode : Unicode) (config : ReceiveConfig) (stream rest : Bytes)
    (receiver : Receiver) : Prop where
  valid : receiver.Valid unicode config
  unfinished : receiver.Unfinished config
  joined : receiver.received ++ rest = stream

def Phase.Tends (unicode : Unicode) (config : ReceiveConfig) (stream rest : Bytes) : Phase → Prop
  | .waiting receiver => receiver.Reads unicode config stream rest
  | .finished outcome => outcome = wholeOutcome unicode config stream

theorem wholeOutcome_of_missing (missing : find headerTerminator stream = none)
    (short : stream.length < config.maxHeaderSize + headerTerminator.length) :
    wholeOutcome unicode config stream =
      .returned { data := stream, bodyReservation := none, rejectionReason := none } := by
  simp only [wholeOutcome, missing, if_neg (not_le.mpr short)]

theorem wholeOutcome_of_long {data more : Bytes} (missing : find headerTerminator data = none)
    (long : config.maxHeaderSize + headerTerminator.length ≤ data.length) :
    wholeOutcome unicode config (data ++ more) = reject .headerTooLarge := by
  cases located : find headerTerminator (data ++ more) with
  | none =>
    have longer : config.maxHeaderSize + headerTerminator.length ≤ (data ++ more).length := by
      rw [length_append]
      omega
    simp only [wholeOutcome, located, if_pos longer]
  | some headerEnd =>
    have reaches := length_lt_of_find_append missing located
    have inside := find_le located
    have tooLarge : config.maxHeaderSize < ((data ++ more).take headerEnd).length := by
      rw [length_take]
      omega
    simp only [wholeOutcome, located, examineHeaders, if_pos tooLarge]

variable {receiver : Receiver} {body : Body} {rest : Bytes}

section

variable (valid : receiver.Valid unicode config)
include valid

section

variable (inBody : receiver.body = some body)
include inBody

theorem Receiver.Valid.wholeOutcome_of_full
    (full : body.framing.contentLength ≤ body.received receiver.received) :
    receiver.result = wholeOutcome unicode config (receiver.received ++ rest) := by
  simp only [Receiver.Valid, inBody] at valid
  obtain ⟨located, accepted⟩ := valid
  have inside := find_le located
  have extended : find headerTerminator (receiver.received ++ rest) =
      some body.headerEnd := find_append located
  simp only [Body.received] at full
  have enough : ¬ (receiver.received ++ rest).length - body.headerEnd -
      headerTerminator.length < body.framing.contentLength := by
    rw [length_append]
    omega
  simp only [result, inBody, wholeOutcome, extended]
  rw [take_append_of_le_length (by omega), accepted]
  simp only [if_neg enough]
  rw [take_append_of_le_length (by omega)]

theorem Receiver.Valid.wholeOutcome_of_short
    (short : body.received receiver.received < body.framing.contentLength) :
    wholeOutcome unicode config receiver.received = reject .bodyIncomplete := by
  simp only [Receiver.Valid, inBody] at valid
  obtain ⟨located, accepted⟩ := valid
  simp only [Body.received] at short
  simp only [wholeOutcome, located, accepted, if_pos short]

theorem Receiver.checkBody_tends (joined : receiver.received ++ rest = stream)
    (within : body.received receiver.received ≤ body.framing.bodyLimit) :
    (receiver.checkBody body).Tends unicode config stream rest := by
  unfold checkBody
  rw [if_neg (not_lt.mpr within)]
  split
  · case isTrue full =>
    rw [← joined]
    exact valid.wholeOutcome_of_full inBody full
  rename_i short
  refine ⟨valid, ?_, joined⟩
  simp only [Receiver.Unfinished, inBody]
  omega

end

end

variable {chunk rest : Bytes}

section

variable (reads : receiver.Reads unicode config stream (chunk ++ rest))
include reads

theorem Receiver.Reads.addHeaderChunk_tends {later : Seconds}
    (inHeaders : receiver.body = none) (fits : SurplusFits unicode config stream)
    (answers : AdmissionAnswers unicode config stream)
    (sized : chunk.length ≤ receiver.headerRecvSize config) :
    (receiver.addHeaderChunk unicode config chunk later).Tends unicode config stream rest := by
  have missing : find headerTerminator receiver.received = none := by
    simpa only [Receiver.Valid, inHeaders] using reads.valid
  have short : receiver.received.length < config.maxHeaderSize + headerTerminator.length := by
    simpa only [Receiver.Unfinished, inHeaders] using reads.unfinished
  have joined : receiver.received ++ chunk ++ rest = stream := by
    rw [append_assoc]
    exact reads.joined
  have grown : (receiver.received ++ chunk).length ≤
      config.maxHeaderSize + headerTerminator.length := by
    simp only [headerRecvSize] at sized
    rw [length_append]
    omega
  unfold addHeaderChunk
  dsimp only
  split
  · case h_1 headerEnd located =>
    have inside := find_le located
    have reaches := length_lt_of_find_append missing located
    have inStream : find headerTerminator stream = some headerEnd := by
      rw [← joined]
      exact find_append located
    have sameHeader : stream.take headerEnd = (receiver.received ++ chunk).take headerEnd := by
      rw [← joined, take_append_of_le_length (by omega)]
    split
    · case h_1 outcome refused =>
      simp only [Phase.Tends, wholeOutcome, inStream, sameHeader, refused]
    · case h_2 timedOut =>
      rw [← sameHeader] at timedOut
      exact absurd timedOut (answers headerEnd inStream)
    rename_i framing accepted
    have bound := fits headerEnd framing inStream (by rw [sameHeader]; exact accepted)
    apply checkBody_tends
    · exact ⟨located, accepted⟩
    · rfl
    · exact joined
    · -- What follows the header block in this chunk is a surplus of the stream.
      have lengths := congrArg length joined
      simp only [headerRecvSize] at sized
      simp only [largestSurplus] at bound
      simp only [Body.received]
      simp only [length_append] at lengths reaches grown inside ⊢
      omega
  · case h_2 stillMissing =>
    split
    · case isTrue long =>
      have full : config.maxHeaderSize + headerTerminator.length ≤
          (receiver.received ++ chunk).length := by
        omega
      rw [Phase.Tends, ← joined, wholeOutcome_of_long stillMissing full]
    rename_i notLong
    refine ⟨?_, ?_, joined⟩
    · simpa only [Receiver.Valid, inHeaders] using stillMissing
    · simp only [Receiver.Unfinished, inHeaders]
      omega

theorem Receiver.Reads.addBodyChunk_tends
    (inBody : receiver.body = some body) (sized : chunk.length ≤ receiver.bodyRecvSize body) :
    (checkBody
      { receiver with received := receiver.received ++ chunk, body := some body } body).Tends
        unicode config stream rest := by
  have short : body.received receiver.received < body.framing.contentLength := by
    simpa only [Receiver.Unfinished, inBody] using reads.unfinished
  have located := reads.valid
  simp only [Receiver.Valid, inBody] at located
  have framed := fits_of_examineHeaders located.2
  apply checkBody_tends
  · exact reads.valid.addBodyChunk inBody
  · rfl
  · rw [append_assoc]
    exact reads.joined
  · have limited := framed.contentLength_le
    simp only [bodyRecvSize, Body.received] at sized
    simp only [Body.received, length_append] at short ⊢
    omega

end

theorem Receiver.Reads.turn_tends {turn : Turn}
    {later : List Turn} {next : Phase} (reads : receiver.Reads unicode config stream rest)
    (fits : SurplusFits unicode config stream) (answers : AdmissionAnswers unicode config stream)
    (delivers : Delivers rest (turn :: later))
    (inTime : InTime config (.waiting receiver) turn)
    (taken : receiver.turn unicode config turn = some next) :
    ∃ rest', Delivers rest' later ∧ next.Tends unicode config stream rest' := by
  cases inHeaders : receiver.body with
  | none =>
    simp only [InTime, inHeaders] at inTime
    simp only [Receiver.turn, inHeaders, Receiver.headerTurn, if_neg inTime] at taken
    cases arrived : turn.arrival with
    | timedOut => simp [Delivers, arrived] at delivers
    | closed =>
      simp only [Delivers, arrived] at delivers
      simp only [arrived] at taken
      cases taken
      refine ⟨[], delivers.2, ?_⟩
      have missing : find headerTerminator receiver.received = none := by
        simpa only [Receiver.Valid, inHeaders] using reads.valid
      have short : receiver.received.length < config.maxHeaderSize + headerTerminator.length := by
        simpa only [Receiver.Unfinished, inHeaders] using reads.unfinished
      have all : receiver.received = stream := by
        simpa [delivers.1] using reads.joined
      rw [← all, Phase.Tends, wholeOutcome_of_missing missing short]
      simp only [Receiver.result, inHeaders]
    | data chunk =>
      simp only [Delivers, arrived] at delivers
      simp only [arrived] at taken
      split at taken
      · cases taken
      rename_i allowed
      cases taken
      obtain ⟨⟨more, rfl⟩, delivers⟩ := delivers
      rw [drop_left] at delivers
      exact ⟨more, delivers, reads.addHeaderChunk_tends inHeaders fits answers (by omega)⟩
  | some body =>
    have short : ¬ body.framing.contentLength ≤ body.received receiver.received := by
      have unfinished := reads.unfinished
      simp only [Receiver.Unfinished, inHeaders] at unfinished
      omega
    simp only [InTime, inHeaders] at inTime
    simp only [Receiver.turn, inHeaders, Receiver.bodyTurn, inTime, if_neg short] at taken
    cases arrived : turn.arrival with
    | timedOut => simp [Delivers, arrived] at delivers
    | closed =>
      simp only [Delivers, arrived] at delivers
      simp only [arrived] at taken
      cases taken
      refine ⟨[], delivers.2, ?_⟩
      have all : receiver.received = stream := by
        simpa [delivers.1] using reads.joined
      rw [← all, Phase.Tends]
      exact (reads.valid.wholeOutcome_of_short inHeaders (by omega)).symm
    | data chunk =>
      simp only [Delivers, arrived] at delivers
      simp only [arrived] at taken
      split at taken
      · cases taken
      rename_i allowed
      cases taken
      obtain ⟨⟨more, rfl⟩, delivers⟩ := delivers
      rw [drop_left] at delivers
      refine ⟨more, delivers, reads.addBodyChunk_tends inHeaders ?_⟩
      omega

variable {outcome : ReceiveOutcome}

theorem Receiver.Reads.outcome_eq {turns : List Turn}
    (reads : receiver.Reads unicode config stream rest)
    (fits : SurplusFits unicode config stream) (answers : AdmissionAnswers unicode config stream)
    (delivers : Delivers rest turns)
    (inTime : Along (receiveStep unicode config) (InTime config) (.waiting receiver) turns)
    (ended : run (receiveStep unicode config) (.waiting receiver) turns =
      some (.finished outcome)) : outcome = wholeOutcome unicode config stream := by
  induction turns generalizing receiver rest with
  | nil => cases ended
  | cons turn later ih =>
    obtain ⟨next, taken, last⟩ := Option.bind_eq_some_iff.mp ended
    have prompt := (along_cons_some taken).mp inTime
    obtain ⟨more, delivers, tends⟩ := reads.turn_tends fits answers delivers prompt.1 taken
    cases next with
    | waiting receiver => exact ih tends delivers prompt.2 last
    | finished reached =>
      obtain ⟨rfl, same⟩ := finished_of_run last
      cases same
      exact tends

theorem Receiver.initial_reads (startTime : Seconds) :
    (initial startTime).Reads unicode config stream stream := by
  refine ⟨initial_valid startTime, ?_, rfl⟩
  have positive := config.maxHeaderSize_pos
  simp only [Receiver.Unfinished, initial, length_nil]
  omega

theorem Cut.outcome_eq {startTime : Seconds} {turns : List Turn}
    (cut : Cut unicode config stream startTime turns outcome)
    (fits : SurplusFits unicode config stream) :
    outcome = wholeOutcome unicode config stream :=
  (initial_reads startTime).outcome_eq fits cut.answers cut.delivers cut.inTime cut.ended

/-! ### Where the surplus does not fit -/

structure Receiver.Still (receiver : Receiver) : Prop where
  startTime_eq : receiver.startTime = 0
  bodyStart : ∀ body ∈ receiver.body, ∀ startTime ∈ body.startTime, startTime = 0

theorem defaultBodyMinRateGrace_pos : 0 < defaultBodyMinRateGrace := by
  unfold defaultBodyMinRateGrace
  norm_num

section

variable (still : ∀ startTime ∈ body.startTime, startTime = 0)
include still

theorem Body.rateDeadline_pos {deadline : Seconds}
    (found : body.rateDeadline config = some deadline) : 0 < deadline := by
  unfold Body.rateDeadline at found
  split at found
  · cases found
  rename_i startTime started
  split at found
  · cases found
  · cases found
    rw [still startTime started, zero_add]
    exact lt_of_lt_of_le defaultBodyMinRateGrace_pos (le_max_left _ _)

theorem Body.expiredDeadline_still {data : Bytes} : body.expiredDeadline config data 0 = none := by
  unfold Body.expiredDeadline
  cases started : body.startTime with
  | none => rfl
  | some startTime =>
    have zero := still startTime started
    have noTotal : ¬ (config.bodyTimeout.any fun timeout =>
        decide (timeout ≤ 0 - startTime)) = true := by
      cases timed : config.bodyTimeout with
      | none => simp
      | some timeout =>
        have positive := config.bodyTimeout_pos timeout timed
        simp [zero, positive]
    have noRate : ¬ ((body.rateDeadline config).any fun deadline =>
        decide (deadline ≤ 0)) = true := by
      cases rated : body.rateDeadline config with
      | none => simp
      | some deadline =>
        have positive := Body.rateDeadline_pos still rated
        simp [positive]
    simp only [if_neg noTotal, if_neg noRate]
    simp

end

theorem Receiver.Still.inTime (still : receiver.Still) (arrival : Arrival) :
    InTime config (.waiting receiver) (stillTurn arrival) := by
  cases inHeaders : receiver.body with
  | none =>
    simp only [InTime, inHeaders, stillTurn, still.startTime_eq, headerTimeout]
    norm_num
  | some body =>
    simp only [InTime, inHeaders, stillTurn]
    exact Body.expiredDeadline_still (still.bodyStart body inHeaders)

/-- Some cut of what is still to be read leads from the receiver to the outcome. -/
def Receiver.Leads (unicode : Unicode) (config : ReceiveConfig) (rest : Bytes)
    (outcome : ReceiveOutcome) (receiver : Receiver) : Prop :=
  ∃ turns, Delivers rest turns ∧
    Along (receiveStep unicode config) (InTime config) (.waiting receiver) turns ∧
    run (receiveStep unicode config) (.waiting receiver) turns = some (.finished outcome)

theorem Receiver.initial_still : (initial 0).Still := by
  refine ⟨rfl, fun body present => ?_⟩
  cases present

theorem Receiver.Leads.cut (leads : (initial 0).Leads unicode config stream outcome)
    (answers : AdmissionAnswers unicode config stream) :
    ∃ turns, Cut unicode config stream 0 turns outcome := by
  obtain ⟨turns, delivers, inTime, ended⟩ := leads
  exact ⟨turns, answers, delivers, inTime, ended⟩

theorem Receiver.Still.leads_of_finished (still : receiver.Still)
    (taken : receiver.turn unicode config (stillTurn (.data chunk)) =
      some (.finished outcome)) : receiver.Leads unicode config (chunk ++ rest) outcome := by
  refine ⟨[stillTurn (.data chunk)], ?_, ?_, ?_⟩
  · exact ⟨prefix_append chunk rest, trivial⟩
  · exact (along_cons_some taken).mpr ⟨still.inTime _, trivial⟩
  · rw [run_singleton]
    exact taken

theorem Receiver.Still.leads_of_waiting {receiver next : Receiver} (still : receiver.Still)
    (taken : receiver.turn unicode config (stillTurn (.data chunk)) = some (.waiting next))
    (leads : next.Leads unicode config rest outcome) :
    receiver.Leads unicode config (chunk ++ rest) outcome := by
  obtain ⟨turns, delivers, inTime, ended⟩ := leads
  refine ⟨stillTurn (.data chunk) :: turns, ?_, ?_, ?_⟩
  · refine ⟨prefix_append chunk rest, ?_⟩
    rw [drop_left]
    exact delivers
  · exact (along_cons_some taken).mpr ⟨still.inTime _, inTime⟩
  · rw [run_cons, receiveStep, taken, Option.bind_some]
    exact ended

theorem Receiver.Still.add (still : receiver.Still)
    (inBody : receiver.body = some body) (data : Bytes) :
    Receiver.Still { receiver with received := data, body := some body } := by
  refine ⟨still.startTime_eq, fun other present => ?_⟩
  cases present
  exact still.bodyStart body inBody

theorem Receiver.Still.leads_body (still : receiver.Still) (inBody : receiver.body = some body)
    (limited : body.framing.contentLength ≤ body.framing.bodyLimit)
    (inside : body.headerEnd + headerTerminator.length ≤ receiver.received.length)
    (short : body.received receiver.received < body.framing.contentLength) :
    ∃ outcome, receiver.Leads unicode config rest outcome ∧ outcome ≠ reject .bodyTooLarge := by
  induction rest generalizing receiver with
  | nil =>
    have taken : receiver.turn unicode config (stillTurn .closed) =
        some (.finished (reject .bodyIncomplete)) := by
      simp only [turn, inBody, bodyTurn, stillTurn,
        Body.expiredDeadline_still (still.bodyStart body inBody), if_neg (not_le.mpr short)]
    refine ⟨reject .bodyIncomplete, ⟨[stillTurn .closed], ⟨rfl, trivial⟩, ?_, ?_⟩, ?_⟩
    · exact (along_cons_some taken).mpr ⟨still.inTime _, trivial⟩
    · rw [run_singleton]
      exact taken
    · simp [reject]
  | cons byte rest ih =>
    have taken : receiver.turn unicode config (stillTurn (.data [byte])) =
        some (checkBody { receiver with
          received := receiver.received ++ [byte], body := some body } body) := by
      have allowed : ¬ ([byte] = [] ∨ receiver.bodyRecvSize body < [byte].length) := by
        simp only [bodyRecvSize, recvChunk, length_singleton]
        simp
      simp only [turn, inBody, bodyTurn, stillTurn,
        Body.expiredDeadline_still (still.bodyStart body inBody), if_neg (not_le.mpr short),
        if_neg allowed]
    have grown : body.received (receiver.received ++ [byte]) =
        body.received receiver.received + 1 := by
      simp only [Body.received, length_append, length_singleton]
      omega
    unfold checkBody at taken
    dsimp only at taken
    rw [if_neg (by omega)] at taken
    split at taken
    · refine ⟨_, still.leads_of_finished taken, ?_⟩
      simp [result, reject]
    rename_i unfinished
    obtain ⟨outcome, leads, other⟩ := ih (still.add inBody (receiver.received ++ [byte])) rfl
      (by rw [length_append]; omega) (not_le.mp unfinished)
    exact ⟨outcome, still.leads_of_waiting taken leads, other⟩

theorem Receiver.Still.leads_header {piece rest : Bytes} (still : receiver.Still)
    (inHeaders : receiver.body = none)
    (missing : find headerTerminator (receiver.received ++ piece) = none)
    (short : (receiver.received ++ piece).length < config.maxHeaderSize + headerTerminator.length)
    (leads : Receiver.Leads unicode config rest outcome
      { receiver with received := receiver.received ++ piece, body := none }) :
    receiver.Leads unicode config (piece ++ rest) outcome := by
  induction piece generalizing receiver with
  | nil =>
    simp only [append_nil, ← inHeaders] at leads
    exact leads
  | cons byte more ih =>
    rw [append_cons] at missing short
    have missingHere := find_eq_none_of_append missing
    have shortHere : (receiver.received ++ [byte]).length <
        config.maxHeaderSize + headerTerminator.length := by
      rw [length_append] at short
      omega
    have taken : receiver.turn unicode config (stillTurn (.data [byte])) =
        some (.waiting { receiver with
          received := receiver.received ++ [byte], body := none }) := by
      have prompt : InTime config (.waiting receiver) (stillTurn (.data [byte])) :=
        still.inTime (.data [byte])
      have allowed : ¬ ([byte] = [] ∨ receiver.headerRecvSize config < [byte].length) := by
        simp only [headerRecvSize, recvChunk, length_singleton]
        simp
      have notLong : ¬ config.maxHeaderSize + headerTerminator.length - 1 <
          (receiver.received ++ [byte]).length := by omega
      simp only [InTime, inHeaders] at prompt
      simp only [turn, inHeaders, headerTurn, if_neg prompt]
      simp only [stillTurn, if_neg allowed, addHeaderChunk, missingHere, if_neg notLong, inHeaders]
    have next : Receiver.Still { receiver with
        received := receiver.received ++ [byte], body := none } := by
      refine ⟨still.startTime_eq, fun body present => ?_⟩
      cases present
    apply still.leads_of_waiting taken
    apply ih next rfl missing short
    simp only [append_cons receiver.received byte more] at leads
    exact leads

/-! ### Two cuts of one stream -/

def beforeTerminator (stream : Bytes) (headerEnd : Nat) : Receiver :=
  { startTime := 0, received := stream.take (headerEnd + 3), body := none }

theorem beforeTerminator_still (stream : Bytes) (headerEnd : Nat) :
    (beforeTerminator stream headerEnd).Still := by
  refine ⟨rfl, fun body present => ?_⟩
  cases present

def completingChunk (stream : Bytes) (headerEnd surplus : Nat) : Bytes :=
  (stream.drop (headerEnd + 3)).take (surplus + 1)

theorem take_append_completingChunk (stream : Bytes) (headerEnd surplus : Nat) :
    stream.take (headerEnd + 3) ++ completingChunk stream headerEnd surplus =
      stream.take (headerEnd + 3 + (surplus + 1)) := by
  rw [completingChunk, ← take_add]

theorem turn_completingChunk {headerEnd surplus : Nat} {framing : Framing}
    (located : find headerTerminator stream = some headerEnd)
    (accepted : examineHeaders unicode config (stream.take headerEnd) = .ok framing)
    (within : surplus ≤ largestSurplus config stream headerEnd) :
    ∃ body : Body, body.framing = framing ∧ body.headerEnd = headerEnd ∧
      (∀ startTime ∈ body.startTime, startTime = 0) ∧
      body.received (stream.take (headerEnd + 3 + (surplus + 1))) = surplus ∧
      (beforeTerminator stream headerEnd).turn unicode config
          (stillTurn (.data (completingChunk stream headerEnd surplus))) =
        some (checkBody
          { startTime := 0
            received := stream.take (headerEnd + 3 + (surplus + 1))
            body := some body } body) := by
  have inside := find_le located
  have framed := (fits_of_examineHeaders accepted).header_length_le
  rw [length_headerTerminator] at inside
  simp only [largestSurplus, recvChunk, length_headerTerminator] at within
  have joined := take_append_completingChunk stream headerEnd surplus
  have chunkLength : (completingChunk stream headerEnd surplus).length = surplus + 1 := by
    rw [completingChunk, length_take, length_drop]
    omega
  have here : find headerTerminator
      (stream.take (headerEnd + 3 + (surplus + 1))) = some headerEnd := by
    rw [← take_append_drop (headerEnd + 3 + (surplus + 1)) stream] at located
    apply find_of_find_append located
    rw [length_take, length_headerTerminator]
    omega
  have sameHeader : (stream.take (headerEnd + 3 + (surplus + 1))).take headerEnd =
      stream.take headerEnd := by
    rw [take_take, Nat.min_eq_left (by omega)]
  have prompt : InTime config (.waiting (beforeTerminator stream headerEnd))
      (stillTurn (.data (completingChunk stream headerEnd surplus))) :=
    (beforeTerminator_still stream headerEnd).inTime _
  have allowed : ¬ (completingChunk stream headerEnd surplus = [] ∨
      (beforeTerminator stream headerEnd).headerRecvSize config <
        (completingChunk stream headerEnd surplus).length) := by
    rw [← length_eq_zero_iff, chunkLength]
    simp only [headerRecvSize, beforeTerminator, recvChunk, length_headerTerminator, length_take]
    omega
  let body : Body :=
    { headerEnd := headerEnd
      framing := framing
      startTime := if 0 < framing.contentLength then some 0 else none }
  refine ⟨body, rfl, rfl, ?_, ?_, ?_⟩
  · intro startTime started
    dsimp only [body] at started
    split at started
    · cases started
      rfl
    · cases started
  · simp only [body, Body.received, length_headerTerminator, length_take]
    omega
  · simp only [InTime, beforeTerminator, stillTurn] at prompt
    simp only [beforeTerminator] at allowed
    simp only [turn, beforeTerminator, headerTurn, stillTurn, if_neg prompt,
      if_neg allowed, addHeaderChunk, joined, here, sameHeader, accepted]
    rfl

theorem find_take_eq_none {headerEnd : Nat}
    (located : find headerTerminator stream = some headerEnd) :
    find headerTerminator (stream.take (headerEnd + 3)) = none := by
  cases earlier : find headerTerminator (stream.take (headerEnd + 3)) with
  | none => rfl
  | some position =>
    have fits := find_le earlier
    have extended : find headerTerminator
        (stream.take (headerEnd + 3) ++ stream.drop (headerEnd + 3)) = some position :=
      find_append earlier
    rw [take_append_drop, located] at extended
    cases extended
    rw [length_headerTerminator, length_take] at fits
    omega

theorem cut_of_leads {headerEnd : Nat} (located : find headerTerminator stream = some headerEnd)
    (short : headerEnd ≤ config.maxHeaderSize) (answers : AdmissionAnswers unicode config stream)
    (leads : (beforeTerminator stream headerEnd).Leads unicode config
      (stream.drop (headerEnd + 3)) outcome) :
    ∃ turns, Cut unicode config stream 0 turns outcome := by
  have bound : ((initial 0).received ++ stream.take (headerEnd + 3)).length <
      config.maxHeaderSize + headerTerminator.length := by
    simp only [initial, nil_append, length_take, length_headerTerminator]
    omega
  have whole : (initial 0).Leads unicode config
      (stream.take (headerEnd + 3) ++ stream.drop (headerEnd + 3)) outcome :=
    initial_still.leads_header rfl (find_take_eq_none located) bound leads
  rw [take_append_drop] at whole
  exact whole.cut answers

theorem surplusFits_of_independent (independent : SegmentationIndependent unicode config stream) :
    SurplusFits unicode config stream := by
  intro headerEnd framing located accepted
  by_contra exceeds
  have limit : framing.bodyLimit + 1 ≤ largestSurplus config stream headerEnd := by omega
  have framed := fits_of_examineHeaders accepted
  have inside := find_le located
  have short : headerEnd ≤ config.maxHeaderSize := by
    have bound := framed.header_length_le
    rw [length_take] at bound
    omega
  have split (surplus : Nat) : stream.drop (headerEnd + 3) =
      completingChunk stream headerEnd surplus ++
        (stream.drop (headerEnd + 3)).drop (surplus + 1) :=
    (take_append_drop _ _).symm
  have rejected : (beforeTerminator stream headerEnd).Leads unicode config
      (stream.drop (headerEnd + 3)) (reject .bodyTooLarge) := by
    obtain ⟨body, rfl, rfl, _started, surplus, taken⟩ := turn_completingChunk located accepted limit
    rw [checkBody, if_pos (by dsimp only; omega)] at taken
    rw [split (body.framing.bodyLimit + 1)]
    exact (beforeTerminator_still stream body.headerEnd).leads_of_finished taken
  have received : ∃ outcome, (beforeTerminator stream headerEnd).Leads unicode config
      (stream.drop (headerEnd + 3)) outcome ∧ outcome ≠ reject .bodyTooLarge := by
    obtain ⟨body, rfl, rfl, started, none_, taken⟩ :=
      turn_completingChunk located accepted (Nat.zero_le _)
    have still := beforeTerminator_still stream body.headerEnd
    rw [split 0]
    rw [checkBody, if_neg (by dsimp only; omega)] at taken
    split at taken
    · refine ⟨_, still.leads_of_finished taken, ?_⟩
      simp [result, reject]
    rename_i unfinished
    have next : Receiver.Still
        { startTime := 0
          received := stream.take (body.headerEnd + 3 + (0 + 1))
          body := some body } := by
      refine ⟨rfl, fun other present => ?_⟩
      cases present
      exact started
    obtain ⟨outcome, leads, other⟩ := next.leads_body rfl framed.contentLength_le
      (by dsimp only; rw [length_headerTerminator, length_take] at *; omega)
      (not_le.mp unfinished)
    exact ⟨outcome, still.leads_of_waiting taken leads, other⟩
  have answers : AdmissionAnswers unicode config stream := by
    intro other found
    rw [located] at found
    cases found
    rw [accepted]
    intro timedOut
    cases timedOut
  obtain ⟨turns, cut⟩ := cut_of_leads located short answers rejected
  obtain ⟨outcome, leads, other⟩ := received
  obtain ⟨turns', cut'⟩ := cut_of_leads located short answers leads
  exact other (independent _ _ _ _ _ _ cut' cut)

/-- Every cut of the stream gives one outcome exactly where the surplus that can come
with the header block stays within the limit of the body. -/
theorem segmentationIndependent_iff (unicode : Unicode) (config : ReceiveConfig) (stream : Bytes) :
    SegmentationIndependent unicode config stream ↔ SurplusFits unicode config stream := by
  constructor
  · exact surplusFits_of_independent
  · intro fits startTime turns outcome startTime' turns' outcome' cut cut'
    rw [cut.outcome_eq fits, cut'.outcome_eq fits]

def bodilessReceive : ReceiveConfig :=
  { sampleReceive with bodyLimitResolver := some fun _ => some 0 }

def bodilessRequest : Bytes := asciiBytes "GET /_xferry/encrypted-files HTTP/1.1\r\n\r\n"

/-- The first byte of a second request arrives with the first one or after it. -/
theorem bodilessRequest_depends_on_segmentation :
    ¬ SegmentationIndependent .ascii bodilessReceive (bodilessRequest ++ asciiBytes "G") := by
  intro independent
  have apart : (initial 0).Leads .ascii bodilessReceive
      (bodilessRequest ++ asciiBytes "G")
      (.returned { data := bodilessRequest, bodyReservation := none, rejectionReason := none }) :=
    initial_still.leads_of_finished (by decide +kernel)
  have together : (initial 0).Leads .ascii bodilessReceive
      ((bodilessRequest ++ asciiBytes "G") ++ []) (reject .bodyTooLarge) :=
    initial_still.leads_of_finished (by decide +kernel)
  have answers : AdmissionAnswers .ascii bodilessReceive (bodilessRequest ++ asciiBytes "G") := by
    intro headerEnd found
    have here : find headerTerminator (bodilessRequest ++ asciiBytes "G") = some 37 := by
      decide +kernel
    rw [here] at found
    cases found
    decide +kernel
  obtain ⟨turns, cut⟩ := apart.cut answers
  obtain ⟨turns', cut'⟩ := together.cut answers
  have same := independent _ _ _ _ _ _ cut cut'
  simp [reject] at same

end XFerry.Http

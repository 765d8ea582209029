/-
A session does not depend on how the client's bytes are cut into chunks.

The loop is compared with one that has the whole stream: what it answers to a
stream is what it answers to a part, followed by what it answers to the rest
with the bytes that were left.
-/

import XFerry.WebSocket.Session

namespace XFerry.WebSocket

open EventMachine Python List

variable (answers : Nat → Answers)

variable {session : Session}

theorem parse_buffer_lt {given : Answers} (still : (session.parse given).phase = .parsing) :
    (session.parse given).buffer.length < session.buffer.length := by
  unfold Session.parse at still ⊢
  cases result : parseWsFrame session.buffer true with
  | error error =>
    simp only [result] at still
    cases still
  | ok parsed =>
    cases parsed with
    | none =>
      simp only [result] at still
      cases still
    | some frame =>
      have consumed := parseWsFrame_consumed result
      simp only [result] at still ⊢
      split
      · rename_i ended
        rw [if_pos ended] at still
        cases still
      · rw [length_drop]
        omega

def drain (session : Session) : Session :=
  if session.phase = .parsing then
    drain (session.parse (answers session.link.frames))
  else
    session
termination_by if session.phase = .parsing then session.buffer.length + 1 else 0
decreasing_by
  rename_i parsing
  rw [if_pos parsing]
  split
  · rename_i still
    exact Nat.succ_lt_succ (parse_buffer_lt still)
  · exact Nat.succ_pos _

/-- The chunks that `recv` gives; an empty one is the end of the stream. -/
def converse : Session → List Bytes → Session
  | session, [] => session
  | session, chunk :: rest =>
    if session.phase = .receiving then
      converse (drain answers (session.receive chunk)) rest
    else
      session

def connected : Session := { Session.opened with phase := .receiving }

def respond (link : Link) (stream : Bytes) : Link × Option Bytes :=
  match _parsed : parseWsFrame stream true with
  | .error error => ((link.reject error).finish, none)
  | .ok none => (link, some stream)
  | .ok (some frame) =>
    let handled := handleFrame (answers link.frames) { link with frames := link.frames + 1 } frame
    if handled.2 then
      (handled.1.finish, none)
    else
      respond handled.1 (stream.drop frame.consumed)
termination_by stream.length
decreasing_by
  have consumed := parseWsFrame_consumed _parsed
  rw [length_drop]
  omega

section Respond

variable {answers : Nat → Answers} {link : Link} {stream : Bytes}

theorem respond_of_error {error : ParseError} (parsed : parseWsFrame stream true = .error error) :
    respond answers link stream = ((link.reject error).finish, none) := by
  rw [respond]
  split
  · rename_i other found
    rw [parsed] at found
    cases found
    rfl
  · rename_i found
    rw [parsed] at found
    cases found
  · rename_i frame found
    rw [parsed] at found
    cases found

theorem respond_of_incomplete (parsed : parseWsFrame stream true = .ok none) :
    respond answers link stream = (link, some stream) := by
  rw [respond]
  split
  · rename_i error found
    rw [parsed] at found
    cases found
  · rfl
  · rename_i frame found
    rw [parsed] at found
    cases found

theorem respond_of_frame {frame : WsFrame} (parsed : parseWsFrame stream true = .ok (some frame)) :
    respond answers link stream =
      let handled := handleFrame (answers link.frames) { link with frames := link.frames + 1 } frame
      if handled.2 then (handled.1.finish, none)
      else respond answers handled.1 (stream.drop frame.consumed) := by
  rw [respond]
  split
  · rename_i error found
    rw [parsed] at found
    cases found
  · rename_i found
    rw [parsed] at found
    cases found
  · rename_i other found
    rw [parsed] at found
    cases found
    rfl

theorem respond_leftover (answers : Nat → Answers) (link : Link) (stream : Bytes) :
    ∀ rest, (respond answers link stream).2 = some rest → parseWsFrame rest true = .ok none := by
  induction link, stream using respond.induct answers with
  | case1 link stream error parsed =>
    rw [respond_of_error parsed]
    exact fun rest left => nomatch left
  | case2 link stream parsed =>
    rw [respond_of_incomplete parsed]
    intro rest left
    cases left
    exact parsed
  | case3 link stream frame parsed handled ended =>
    rw [respond_of_frame parsed]
    rw [if_pos ended]
    exact fun rest left => nomatch left
  | case4 link stream frame parsed handled goes ih =>
    rw [respond_of_frame parsed]
    rw [if_neg goes]
    exact ih

theorem respond_append (answers : Nat → Answers) (more : Bytes) (link : Link) (stream : Bytes) :
    respond answers link (stream ++ more) =
      match respond answers link stream with
      | (link, none) => (link, none)
      | (link, some rest) => respond answers link (rest ++ more) := by
  induction link, stream using respond.induct answers with
  | case1 link stream error parsed =>
    have still : parseWsFrame (stream ++ more) true = .error error := by
      rw [parseWsFrame_append more (by rw [parsed]; exact fun same => nomatch same), parsed]
    rw [respond_of_error parsed, respond_of_error still]
  | case2 link stream parsed => rw [respond_of_incomplete parsed]
  | case3 link stream frame parsed handled ended =>
    have still : parseWsFrame (stream ++ more) true = .ok (some frame) := by
      rw [parseWsFrame_append more (by rw [parsed]; exact fun same => nomatch same), parsed]
    rw [respond_of_frame parsed, respond_of_frame still]
    rw [if_pos ended, if_pos ended]
  | case4 link stream frame parsed handled goes ih =>
    have still : parseWsFrame (stream ++ more) true = .ok (some frame) := by
      rw [parseWsFrame_append more (by rw [parsed]; exact fun same => nomatch same), parsed]
    have within := (parseWsFrame_consumed parsed).2
    rw [respond_of_frame parsed, respond_of_frame still]
    rw [if_neg goes, if_neg goes, drop_append_of_le_length within]
    exact ih

end Respond

def Session.After (session : Session) (responded : Link × Option Bytes) : Prop :=
  session.link = responded.1 ∧
    match responded.2 with
    | none => session.phase = .finished
    | some rest => session.phase = .receiving ∧ session.buffer = rest

theorem drain_after (session : Session) (parsing : session.phase = .parsing) :
    (drain answers session).After (respond answers session.link session.buffer) := by
  induction session using drain.induct answers with
  | case1 session _ ih =>
    rw [drain, if_pos parsing]
    unfold Session.parse at ih ⊢
    cases result : parseWsFrame session.buffer true with
    | error error =>
      rw [respond_of_error result, drain, if_neg (fun same => nomatch same)]
      exact ⟨rfl, rfl⟩
    | ok parsed =>
      cases parsed with
      | none =>
        rw [respond_of_incomplete result, drain, if_neg (fun same => nomatch same)]
        exact ⟨rfl, rfl, rfl⟩
      | some frame =>
        rw [respond_of_frame result]
        simp only [result] at ih ⊢
        split
        · rw [drain, if_neg (fun same => nomatch same)]
          exact ⟨rfl, rfl⟩
        rename_i goes
        rw [if_neg goes] at ih
        exact ih parsing
  | case2 session other => exact absurd parsing other

theorem converse_of_over (finished : session.phase = .finished) (chunks : List Bytes) :
    converse answers session chunks = session := by
  cases chunks with
  | nil => rfl
  | cons chunk rest => rw [converse, if_neg (by rw [finished]; exact fun same => nomatch same)]

/-- A session that waits for bytes, with no whole frame in its buffer, ends up
where the whole stream leaves it. -/
theorem converse_after (chunks : List Bytes) (nonempty : ∀ chunk ∈ chunks, chunk ≠ []) :
    ∀ session : Session, session.phase = .receiving →
      parseWsFrame session.buffer true = .ok none →
      (converse answers session chunks).After
        (respond answers session.link (session.buffer ++ chunks.flatten)) := by
  induction chunks with
  | nil =>
    intro session receiving incomplete
    rw [flatten_nil, append_nil, respond_of_incomplete incomplete]
    exact ⟨rfl, receiving, rfl⟩
  | cons chunk rest ih =>
    intro session receiving _
    have some : chunk.isEmpty = false :=
      isEmpty_eq_false_iff.mpr (nonempty chunk (mem_cons_self ..))
    have received : session.receive chunk =
        { session with phase := .parsing, buffer := session.buffer ++ chunk } := by
      rw [Session.receive, some, if_neg Bool.false_ne_true]
    have drained := drain_after answers (session.receive chunk) (by rw [received])
    rw [converse, if_pos receiving, flatten_cons, ← append_assoc, respond_append]
    rw [received] at drained ⊢
    cases responded : respond answers session.link (session.buffer ++ chunk) with
    | mk link leftover =>
      rw [responded] at drained
      cases leftover with
      | none =>
        obtain ⟨same, finished⟩ := drained
        rw [converse_of_over answers finished]
        exact ⟨same, finished⟩
      | some left =>
        obtain ⟨same, waiting, buffer⟩ := drained
        have incomplete := respond_leftover answers session.link (session.buffer ++ chunk)
          left (by rw [responded])
        have later := ih (fun other member => nonempty other (mem_cons_of_mem _ member))
          _ waiting (by rw [buffer]; exact incomplete)
        rw [same, buffer] at later
        exact later

theorem converse_append (first second : List Bytes) :
    ∀ session : Session, converse answers session (first ++ second) =
      converse answers (converse answers session first) second := by
  induction first with
  | nil => exact fun session => rfl
  | cons chunk rest ih =>
    intro session
    rw [cons_append]
    by_cases receiving : session.phase = .receiving
    · rw [converse, if_pos receiving, ih]
      conv_rhs => rw [converse, if_pos receiving]
    have stays (chunks : List Bytes) : converse answers session chunks = session := by
      cases chunks with
      | nil => rfl
      | cons chunk rest => rw [converse, if_neg receiving]
    rw [stays, stays, stays]

theorem connected_after (chunks : List Bytes) (nonempty : ∀ chunk ∈ chunks, chunk ≠ []) :
    (converse answers connected chunks).After
      (respond answers Link.opened chunks.flatten) :=
  converse_after answers chunks nonempty connected rfl rfl

theorem converse_end {responded : Link × Option Bytes} (after : session.After responded) :
    (converse answers session [[]]).link =
      match responded.2 with
      | none => responded.1
      | some _ => responded.1.finish := by
  obtain ⟨link, leftover⟩ := responded
  obtain ⟨same, place⟩ := after
  cases leftover with
  | none =>
    rw [converse_of_over answers place]
    exact same
  | some rest =>
    rw [converse, if_pos place.1, converse, drain, if_neg (fun same => nomatch same)]
    exact congrArg Link.finish same

/-- Two ways of cutting one stream into chunks make one session: the same
messages, the same frames and, when the stream has ended, the same close code.
The parser gives the same frame or error on every extension of a buffer. -/
theorem segmentation_independent :
    (∀ (data more : Bytes) (requireMask : Bool), parseWsFrame data requireMask ≠ .ok none →
      parseWsFrame (data ++ more) requireMask = parseWsFrame data requireMask) ∧
    ∀ (answers : Nat → Answers) (left right : List Bytes),
      (∀ chunk ∈ left, chunk ≠ []) → (∀ chunk ∈ right, chunk ≠ []) →
      left.flatten = right.flatten →
      (converse answers connected left).link = (converse answers connected right).link ∧
        (converse answers connected (left ++ [[]])).link =
          (converse answers connected (right ++ [[]])).link := by
  refine ⟨fun data more requireMask decided => parseWsFrame_append more decided, ?_⟩
  intro answers left right leftNonempty rightNonempty same
  have leftAfter := connected_after answers left leftNonempty
  have rightAfter := connected_after answers right rightNonempty
  rw [same] at leftAfter
  constructor
  · rw [leftAfter.1, rightAfter.1]
  · rw [converse_append, converse_append, converse_end answers leftAfter,
      converse_end answers rightAfter]

/-- An empty masked text frame, whole and cut after its second byte. -/
theorem cutFrame_segmentation_independent :
    let answers : Nat → Answers :=
      fun _ => { acquired := true, replies := some [[]], accepts := fun _ => true }
    (converse answers connected [[0x81, 0x80, 0, 0, 0, 0]]).link =
        (converse answers connected [[0x81, 0x80], [0, 0, 0, 0]]).link ∧
      (converse answers connected [[0x81, 0x80, 0, 0, 0, 0], []]).link =
        (converse answers connected [[0x81, 0x80], [0, 0, 0, 0], []]).link :=
  segmentation_independent.2 _ [[0x81, 0x80, 0, 0, 0, 0]] [[0x81, 0x80], [0, 0, 0, 0]]
    (by decide) (by decide) rfl

end XFerry.WebSocket

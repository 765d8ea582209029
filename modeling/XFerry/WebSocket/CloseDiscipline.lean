/-
When a session's Close frame is its last frame.

`send_close` keeps its own flag, and every way out of the loop goes through it.
The one Close frame that passes it by is the answer to a message for which there
is no dispatch capacity, and the loop goes on after that one.
-/

import XFerry.WebSocket.Session

namespace XFerry.WebSocket

open EventMachine Python List

def CloseLast (sent : List ServerFrame) : Prop :=
  sent.Pairwise fun earlier _ => earlier.opcode ≠ .close

instance (sent : List ServerFrame) : Decidable (CloseLast sent) :=
  inferInstanceAs (Decidable (List.Pairwise _ _))

def Admitted (session : Session) (event : SocketEvent) : Prop :=
  match event with
  | .parse answers =>
    ∀ frame, parseWsFrame session.buffer true = .ok (some frame) → frame.opcode = .text →
      answers.acquired = true
  | _ => True

def Quiet (sent : List ServerFrame) : Prop := ∀ frame ∈ sent, frame.opcode ≠ .close

theorem Quiet.closeLast {sent : List ServerFrame} (quiet : Quiet sent) : CloseLast sent :=
  pairwise_of_forall_mem_list fun earlier member _ _ => quiet earlier member

theorem Quiet.closeLast_snoc {sent : List ServerFrame} (quiet : Quiet sent) (last : ServerFrame) :
    CloseLast (sent ++ [last]) := by
  rw [CloseLast, pairwise_append]
  refine ⟨quiet.closeLast, pairwise_singleton _ _, ?_⟩
  exact fun earlier member _ _ => quiet earlier member

theorem Quiet.append {first second : List ServerFrame} (quiet : Quiet first)
    (also : Quiet second) : Quiet (first ++ second) := by
  intro frame member
  cases mem_append.mp member with
  | inl left => exact quiet frame left
  | inr right => exact also frame right

theorem not_closeLast_append {sent extra : List ServerFrame} (closed : ¬ Quiet sent)
    (more : extra ≠ []) : ¬ CloseLast (sent ++ extra) := by
  intro last
  apply closed
  intro frame member
  obtain ⟨next, after⟩ := exists_mem_of_ne_nil extra more
  exact (pairwise_append.mp last).2.2 frame member next after

/-! ### What one step sends -/

/-- Frames are sent without the flag, and none of them is a Close frame exactly
when `admitted` holds. -/
def Talks (admitted : Prop) (link next : Link) : Prop :=
  next.closeSent = link.closeSent ∧
    ∃ extra, next.sent = link.sent ++ extra ∧ (Quiet extra ↔ admitted)

theorem Talks.silent (link next : Link) (flag : next.closeSent = link.closeSent)
    (sent : next.sent = link.sent) : Talks True link next :=
  ⟨flag, [], by rw [sent, append_nil], iff_true_intro fun _ member => nomatch member⟩

theorem Talks.trans {first second : Prop} {link middle next : Link}
    (early : Talks first link middle) (late : Talks second middle next) :
    Talks (first ∧ second) link next := by
  obtain ⟨earlyFlag, extra, earlySent, earlyQuiet⟩ := early
  obtain ⟨lateFlag, more, lateSent, lateQuiet⟩ := late
  refine ⟨lateFlag.trans earlyFlag, extra ++ more, ?_, ?_⟩
  · rw [lateSent, earlySent, append_assoc]
  · rw [← earlyQuiet, ← lateQuiet, Quiet, forall_mem_append]
    rfl

theorem Talks.of_iff {first second : Prop} {link next : Link} (talks : Talks first link next)
    (same : first ↔ second) : Talks second link next := by
  rw [← propext same]
  exact talks

theorem talks_send (link : Link) (frame : ServerFrame) :
    Talks (frame.opcode ≠ .close) link (link.send frame) := by
  refine ⟨rfl, [frame], rfl, ?_⟩
  rw [Quiet, forall_mem_singleton]

theorem sendReplies_talks (accepts : Nat → Bool) (replies : List Bytes) (index : Nat)
    (link : Link) : Talks True link (sendReplies accepts index link replies).1 := by
  induction replies generalizing index link with
  | nil => exact Talks.silent link link rfl rfl
  | cons reply rest ih =>
    have here := talks_send link { opcode := .text, payload := reply }
    have text : Opcode.text ≠ .close := by decide
    unfold sendReplies
    dsimp only
    split
    · exact (here.trans (ih _ _)).of_iff (by simp only [ne_eq, text, not_false_eq_true, and_self])
    · exact here.of_iff (iff_true_intro text)

theorem handleBoundedWsMessage_talks (answers : Answers) (link : Link) (payload : Bytes) :
    Talks (answers.acquired = true) link (handleBoundedWsMessage answers link payload).1 := by
  have taken := Talks.silent link { link with handled := link.handled ++ [payload] } rfl rfl
  unfold handleBoundedWsMessage
  dsimp only
  cases acquired : answers.acquired with
  | true =>
    rw [if_pos rfl]
    cases answers.replies with
    | none => exact taken.of_iff (iff_of_true trivial rfl)
    | some replies =>
      exact (taken.trans (sendReplies_talks answers.accepts replies 0 _)).of_iff
        (iff_of_true ⟨trivial, trivial⟩ rfl)
  | false =>
    rw [if_neg Bool.false_ne_true]
    refine (taken.trans (talks_send _ (closeFrame 1013 "Server busy"))).of_iff ?_
    exact iff_of_false (fun both => both.2 rfl) Bool.false_ne_true

/-- The session ends here: its last frame is the Close frame of `send_close`, if
the flag was not set. -/
def Closes (admitted : Prop) (link next : Link) : Prop :=
  ∃ middle last, Talks admitted link middle ∧
    (middle.closeSent = false → next.sent = middle.sent ++ [last])

variable {admitted : Prop}

theorem Talks.closes {link middle : Link} (talks : Talks admitted link middle)
    (code : Nat) (reason : String) :
    Closes admitted link (middle.sendClose code reason).finish := by
  refine ⟨middle, closeFrame code reason, talks, ?_⟩
  intro unset
  simp only [Link.sendClose, unset, Link.finish, Link.send, Bool.false_eq_true, if_false, if_true]

theorem Talks.finish {link middle : Link} (talks : Talks admitted link middle) :
    Closes admitted link middle.finish := by
  refine ⟨middle, closeFrame 1000 "", talks, ?_⟩
  intro unset
  simp only [Link.sendClose, unset, Link.finish, Link.send, Bool.false_eq_true, if_false]

theorem handleFrame_effect (answers : Answers) (link : Link) (frame : WsFrame) :
    let handled := handleFrame answers link frame
    let admitted := frame.opcode = .text → answers.acquired = true
    if handled.2 then
      Closes admitted link handled.1.finish
    else
      Talks admitted link handled.1 := by
  have silent := Talks.silent link link rfl rfl
  unfold handleFrame
  cases kind : frame.opcode with
  | continuation | pong => exact silent.of_iff (iff_of_true trivial fun text => nomatch text)
  | close | binary =>
    exact (silent.of_iff (iff_of_true trivial fun text => nomatch text)).closes _ _
  | ping =>
    have pong : Opcode.pong ≠ .close := by decide
    have answered : Talks (Opcode.ping = .text → answers.acquired = true) link
        (link.send { opcode := .pong, payload := frame.payload }) :=
      (talks_send link _).of_iff (iff_of_true pong fun text => nomatch text)
    cases taken : answers.accepts 0 with
    | true => simpa [taken] using answered
    | false => simpa [taken] using answered.finish
  | text =>
    have talks : Talks (Opcode.text = .text → answers.acquired = true) link
        (handleBoundedWsMessage answers link frame.payload).1 :=
      (handleBoundedWsMessage_talks answers link frame.payload).of_iff
        ⟨fun acquired _ => acquired, fun acquired => acquired rfl⟩
    dsimp only
    cases raised : (handleBoundedWsMessage answers link frame.payload).2 with
    | true => exact talks.closes _ _
    | false => exact talks

/-- A step after the handshake: the session ends with it or goes on. -/
def Effect (admitted : Prop) (session next : Session) : Prop :=
  next.phase ≠ .handshake ∧
    if next.phase = .finished then
      Closes admitted session.link next.link
    else
      Talks admitted session.link next.link

theorem Closes.effect {session : Session} {link : Link}
    (closes : Closes admitted session.link link.finish) (ended : Session) :
    Effect admitted session (ended.finish link) := by
  have finished : (ended.finish link).phase = .finished := rfl
  rw [Effect, finished, if_pos rfl]
  exact ⟨by decide, closes⟩

theorem Talks.effect {session next : Session} {link : Link}
    (talks : Talks admitted session.link link) (shown : next.link = link)
    (goes : next.phase = .receiving ∨ next.phase = .parsing) : Effect admitted session next := by
  rw [← shown] at talks
  cases goes with
  | inl receiving | inr receiving =>
    rw [Effect, receiving, if_neg (by decide)]
    exact ⟨by decide, talks⟩

section Step

variable {session next : Session}

theorem admitted_of_no_frame (answers : Answers)
    (none : ∀ frame, parseWsFrame session.buffer true ≠ .ok (some frame)) :
    Admitted session (.parse answers) :=
  fun frame parsed _ => absurd parsed (none frame)

theorem admitted_iff_of_frame (answers : Answers) {frame : WsFrame}
    (parsed : parseWsFrame session.buffer true = .ok (some frame)) :
    Admitted session (.parse answers) ↔ (frame.opcode = .text → answers.acquired = true) := by
  constructor
  · exact fun admitted text => admitted frame parsed text
  · intro admitted other found text
    rw [parsed] at found
    cases found
    exact admitted text

theorem silent_of (link : Link) (holds : admitted) : Talks admitted link link :=
  (Talks.silent link link rfl rfl).of_iff (iff_true_intro holds).symm

theorem parse_effect (parsing : session.phase = .parsing) (answers : Answers) :
    Effect (Admitted session (.parse answers)) session (session.parse answers) := by
  unfold Session.parse
  cases result : parseWsFrame session.buffer true with
  | error error =>
    have admitted := admitted_of_no_frame answers fun frame found =>
      absurd (result.symm.trans found) (by simp)
    have silent := silent_of session.link admitted
    cases error with
    | protocol | value => exact (silent.closes _ _).effect session
  | ok parsed =>
    cases parsed with
    | none =>
      have admitted := admitted_of_no_frame answers fun frame found =>
        absurd (result.symm.trans found) (by simp)
      exact (silent_of session.link admitted).effect rfl (.inl rfl)
    | some frame =>
      have consumed := Talks.silent session.link
        { session.link with frames := session.link.frames + 1 } rfl rfl
      have handled := handleFrame_effect answers
        { session.link with frames := session.link.frames + 1 } frame
      have admitted := (admitted_iff_of_frame answers result).symm
      dsimp only at handled ⊢
      cases ended : (handleFrame answers
          { session.link with frames := session.link.frames + 1 } frame).2 with
      | true =>
        rw [ended, if_pos rfl] at handled
        rw [if_pos rfl]
        obtain ⟨middle, last, talks, closes⟩ := handled
        apply Closes.effect
        exact ⟨middle, last,
          (consumed.trans talks).of_iff ((Iff.of_eq (true_and _)).trans admitted), closes⟩
      | false =>
        rw [ended, if_neg Bool.false_ne_true] at handled
        rw [if_neg Bool.false_ne_true]
        have talks := (consumed.trans handled).of_iff ((Iff.of_eq (true_and _)).trans admitted)
        exact talks.effect rfl (.inr parsing)

theorem timeOut_effect (receiving : session.phase = .receiving) (lapsed accepts : Bool) :
    Effect True session (session.timeOut lapsed accepts) := by
  have silent := silent_of session.link trivial
  have pinged : Talks True session.link (session.link.send { opcode := .ping, payload := [] }) :=
    (talks_send session.link _).of_iff (iff_true_intro fun same => nomatch same)
  unfold Session.timeOut
  split
  · exact (silent.closes _ _).effect session
  split
  · exact silent.effect rfl (.inl receiving)
  dsimp only
  cases accepts with
  | true => exact pinged.effect rfl (.inl receiving)
  | false => exact pinged.finish.effect session

theorem refuseTimeout_effect (taken : session.refuseTimeout = some next) :
    Effect True session next := by
  unfold Session.refuseTimeout at taken
  split at taken
  · cases taken
  · split at taken
    · cases taken
    · cases taken
      exact ((silent_of session.link trivial).closes _ _).effect session
  · dsimp only at taken
    split at taken
    · cases taken
    · cases taken
      have consumed := Talks.silent session.link
        { session.link with frames := session.link.frames + 1 } rfl rfl
      exact (consumed.closes _ _).effect _

theorem step_effect {event : SocketEvent} (started : session.phase ≠ .handshake)
    (taken : step session event = some next) :
    session.phase ≠ .finished ∧ Effect (Admitted session event) session next := by
  have silent : Talks True session.link session.link := silent_of session.link trivial
  cases phase : session.phase with
  | handshake => exact absurd phase started
  | finished =>
    simp only [step, phase] at taken
    cases taken
  | parsing =>
    refine ⟨by decide, ?_⟩
    cases event with
    | parse answers =>
      simp only [step, phase, Option.some.injEq] at taken
      rw [← taken]
      exact parse_effect phase answers
    | timeoutRefused =>
      simp only [step, phase] at taken
      exact refuseTimeout_effect taken
    | _ =>
      simp only [step, phase] at taken
      cases taken
  | receiving =>
    refine ⟨by decide, ?_⟩
    cases event with
    | stopped =>
      simp only [step, phase, Option.some.injEq] at taken
      rw [← taken]
      exact silent.finish.effect session
    | received chunk =>
      simp only [step, phase, Option.some.injEq] at taken
      rw [← taken, Session.receive]
      split
      · exact silent.finish.effect session
      · exact silent.effect rfl (.inr rfl)
    | timedOut lapsed accepts =>
      simp only [step, phase, Option.some.injEq] at taken
      rw [← taken]
      exact timeOut_effect phase lapsed accepts
    | failed =>
      simp only [step, phase, Option.some.injEq] at taken
      rw [← taken]
      exact (silent.closes _ _).effect session
    | _ =>
      simp only [step, phase] at taken
      cases taken

end Step

/-! ### Runs -/

/-- The flag is not set while the session goes on. -/
structure Session.Open (session : Session) : Prop where
  started : session.phase ≠ .handshake
  unset : session.phase ≠ .finished → session.link.closeSent = false

/-- No Close frame has been sent before the session is over, and none but the
last is one. -/
structure Session.Closing (session : Session) : Prop extends session.Open where
  quiet : session.phase ≠ .finished → Quiet session.link.sent
  last : CloseLast session.link.sent

/-- A Close frame has been sent, and something after it once the session is over. -/
structure Session.Overrun (session : Session) : Prop extends session.Open where
  closed : session.phase ≠ .finished → ¬ Quiet session.link.sent
  after : session.phase = .finished → ¬ CloseLast session.link.sent

section Run

variable {session next : Session} {event : SocketEvent} {admitted : Prop}

section

variable (effect : Effect admitted session next)
include effect

section

variable (going : session.phase ≠ .finished)
include going

theorem Effect.isOpen (isOpen : session.Open) : next.Open := by
  refine ⟨effect.1, ?_⟩
  intro still
  have talks := effect.2
  rw [if_neg still] at talks
  exact talks.1.trans (isOpen.unset going)

theorem Effect.closing (closing : session.Closing) (holds : admitted) : next.Closing := by
  have isOpen := effect.isOpen going closing.toOpen
  have effect := effect.2
  by_cases finished : next.phase = .finished
  · rw [if_pos finished] at effect
    obtain ⟨middle, last, ⟨flag, extra, sent, quiet⟩, closes⟩ := effect
    refine { toOpen := isOpen, quiet := fun still => absurd finished still, last := ?_ }
    rw [closes (flag.trans (closing.unset going)), sent]
    exact ((closing.quiet going).append (quiet.mpr holds)).closeLast_snoc last
  · rw [if_neg finished] at effect
    obtain ⟨_, extra, sent, quiet⟩ := effect
    have silent : Quiet next.link.sent := by
      rw [sent]
      exact (closing.quiet going).append (quiet.mpr holds)
    exact { toOpen := isOpen, quiet := fun _ => silent, last := silent.closeLast }

theorem Effect.overrun (isOpen : session.Open) (broken : ¬ Quiet session.link.sent ∨ ¬ admitted) :
    next.Overrun := by
  have stillOpen := effect.isOpen going isOpen
  have effect := effect.2
  have loud {extra : List ServerFrame} (quiet : Quiet extra ↔ admitted) :
      ¬ Quiet (session.link.sent ++ extra) := by
    intro both
    rw [Quiet, forall_mem_append] at both
    exact broken.elim (fun closed => closed both.1) fun refused => refused (quiet.mp both.2)
  by_cases finished : next.phase = .finished
  · rw [if_pos finished] at effect
    obtain ⟨middle, last, ⟨flag, extra, sent, quiet⟩, closes⟩ := effect
    refine ⟨stillOpen, fun still => absurd finished still, fun _ => ?_⟩
    rw [closes (flag.trans (isOpen.unset going)), sent]
    exact not_closeLast_append (loud quiet) (cons_ne_nil _ _)
  · rw [if_neg finished] at effect
    obtain ⟨_, extra, sent, quiet⟩ := effect
    refine ⟨stillOpen, fun _ => ?_, fun ended => absurd ended finished⟩
    rw [sent]
    exact loud quiet

end

end

theorem step_closing (closing : session.Closing) (holds : Admitted session event)
    (taken : step session event = some next) : next.Closing := by
  obtain ⟨going, effect⟩ := step_effect closing.started taken
  exact effect.closing going closing holds

theorem step_overrun (overrun : session.Overrun) (taken : step session event = some next) :
    next.Overrun := by
  obtain ⟨going, effect⟩ := step_effect overrun.started taken
  exact effect.overrun going overrun.toOpen (.inl (overrun.closed going))

theorem along_admitted_of_closeLast {events : List SocketEvent} {final : Session}
    (isOpen : session.Open) (reached : run step session events = some final)
    (finished : final.phase = .finished) (last : CloseLast final.link.sent) :
    Along step Admitted session events := by
  induction events generalizing session with
  | nil => trivial
  | cons event rest ih =>
    obtain ⟨next, taken, later⟩ := Option.bind_eq_some_iff.mp reached
    obtain ⟨going, effect⟩ := step_effect isOpen.started taken
    rw [along_cons_some taken]
    by_cases holds : Admitted session event
    · exact ⟨holds, ih (effect.isOpen going isOpen) later⟩
    have overrun : final.Overrun :=
      run_invariant_of_step Session.Overrun (fun _ _ _ kept moved => step_overrun kept moved)
        (effect.overrun going isOpen (.inr holds)) later
    exact absurd last (overrun.after finished)

end Run

/-- The Close frame of a session is its last frame in every run that turns no
message away for want of dispatch capacity; of the runs that end, in no others. -/
theorem run_closeLast_iff (events : List SocketEvent) (final : Session)
    (reached : run step Session.opened events = some final) :
    (Along step Admitted Session.opened events → CloseLast final.link.sent) ∧
      (final.phase = .finished → CloseLast final.link.sent →
        Along step Admitted Session.opened events) := by
  cases events with
  | nil =>
    cases reached
    exact ⟨fun _ => List.Pairwise.nil, fun finished => nomatch finished⟩
  | cons event rest =>
    obtain ⟨next, taken, later⟩ := Option.bind_eq_some_iff.mp reached
    rw [along_cons_some taken]
    cases event with
    | handshake accepts =>
      cases taken
      cases accepts with
      | true =>
        have closing : Session.Closing { Session.opened with phase := .receiving } :=
          { started := by decide
            unset := fun _ => rfl
            quiet := fun _ _ member => nomatch member
            last := List.Pairwise.nil }
        constructor
        · rintro ⟨_, along⟩
          exact (run_invariant Session.Closing (fun _ _ _ kept holds moved =>
            step_closing kept holds moved) closing along later).last
        · intro finished last
          exact ⟨trivial, along_admitted_of_closeLast closing.toOpen later finished last⟩
      | false =>
        cases rest with
        | nil =>
          cases later
          exact ⟨fun _ => List.Pairwise.nil, fun _ _ => ⟨trivial, trivial⟩⟩
        | cons event rest =>
          obtain ⟨_, moved, _⟩ := Option.bind_eq_some_iff.mp later
          cases moved
    | _ => cases taken

def emptyTextFrame : Bytes := [0x81, 0x80, 0, 0, 0, 0]

def messageEvents (acquired : Bool) : List SocketEvent :=
  [ .handshake true,
    .received emptyTextFrame,
    .parse { acquired := acquired, replies := some [[]], accepts := fun _ => true },
    .parse { acquired := acquired, replies := none, accepts := fun _ => true },
    .stopped ]

theorem messageEvents_closeLast_iff :
    ∃ final, run step Session.opened (messageEvents true) = some final ∧
      (Along step Admitted Session.opened (messageEvents true) → CloseLast final.link.sent) ∧
      (final.phase = .finished → CloseLast final.link.sent →
        Along step Admitted Session.opened (messageEvents true)) := by
  have finishes : (run step Session.opened (messageEvents true)).isSome = true := by
    decide +kernel
  obtain ⟨final, ran⟩ := Option.isSome_iff_exists.mp finishes
  exact ⟨final, ran, run_closeLast_iff (messageEvents true) final ran⟩

/-- After the answer to an overload the session sends the Close frame of its end. -/
theorem overload_sends_two_closes :
    ¬ ∀ (events : List SocketEvent) (final : Session),
      run step Session.opened events = some final → CloseLast final.link.sent := by
  intro always
  have reached : (run step Session.opened (messageEvents false)).map (fun final =>
      final.link.sent.map ServerFrame.opcode) = some [.close, .close] := by decide +kernel
  obtain ⟨final, ran, sent⟩ := Option.map_eq_some_iff.mp reached
  have last := always (messageEvents false) final ran
  have opcodes : (final.link.sent.map ServerFrame.opcode).Pairwise
      fun earlier _ => earlier ≠ .close := pairwise_map.mpr last
  rw [sent] at opcodes
  exact absurd opcodes (by decide)

end XFerry.WebSocket

/-
What the bounded decompression makes of a body of gzip streams.

The format says what the beginning of a stream inflates to; the contract of the
decompressor follows it from call to call, with what has been read and given so far.
-/

import XFerry.Advanced.PayloadDecoding

namespace XFerry.AdvancedPayload

open Python Http Json List

/-- A format of compressed streams that say where they end.  `output` is what any bytes
give before they end or break off. -/
structure GzipFormat where
  Member : Bytes → Prop
  output : Bytes → Bytes
  member_ne_nil : ∀ member, Member member → member ≠ []
  prefix_free : ∀ shorter longer, Member shorter → Member longer → shorter <+: longer →
    shorter = longer
  output_prefix : ∀ front whole, front <+: whole → output front <+: output whole

def GzipFormat.Unended (format : GzipFormat) (data : Bytes) : Prop :=
  ∀ member, format.Member member → ¬ member <+: data

variable {State : Type}

/-- The documented behaviour of a streaming decompressor: `Reads state read given` holds
when the state has taken these bytes in and given those out. -/
structure GzipContract (inflater : Inflater State) (format : GzipFormat) where
  Reads : State → Bytes → Bytes → Prop
  start : Reads inflater.start [] []
  given_prefix : ∀ state read given, Reads state read given → given <+: format.output read
  stops : ∀ state read given member, Reads state read given → format.Member member →
    member <+: read → member = read
  bounded : ∀ state chunk limit next output, 0 < limit →
    inflater.decompress state chunk limit = some (next, output) → output.length ≤ limit
  refuses : ∀ state chunk limit read given member, Reads state read given →
    inflater.eof state = false → inflater.decompress state chunk limit = none →
    format.Member member → ¬ read ++ chunk <+: member ∧ ¬ member <+: read ++ chunk
  reads : ∀ state chunk limit next output read given, Reads state read given →
    inflater.eof state = false → 0 < limit →
    inflater.decompress state chunk limit = some (next, output) →
    ∃ used left, chunk = used ++ left ∧ Reads next (read ++ used) (given ++ output) ∧
      (inflater.eof next = true → format.Member (read ++ used) ∧
        given ++ output = format.output (read ++ used) ∧ inflater.unusedData next = left) ∧
      (inflater.eof next = false → output.length < limit →
        left = [] ∧ format.Unended (read ++ used))

variable {inflater : Inflater State} {format : GzipFormat}
  (contract : GzipContract inflater format) {decodedLimit : Nat}

theorem inflateChunk_nil (rounds : Nat) (state : State) (output : Bytes) :
    inflateChunk inflater decodedLimit rounds state output [] = .ok (state, output) := by
  cases rounds with
  | zero | succ => rfl

inductive ChunkResult (contract : GzipContract inflater format) (decodedLimit : Nat)
    (before read given chunk : Bytes) : Except GzipFault (State × Bytes) → Prop where
  | refused (never : ∀ member, format.Member member →
      ¬ read ++ chunk <+: member ∧ ¬ member <+: read ++ chunk) :
      ChunkResult contract decodedLimit before read given chunk (.error .invalidStream)
  | tooLarge (used decoded : Bytes) (next : State) (front : used <+: chunk)
      (reads : contract.Reads next (read ++ used) (given ++ decoded))
      (exceeds : decodedLimit < (before ++ (given ++ decoded)).length)
      (ended : inflater.eof next = true → format.Member (read ++ used)) :
      ChunkResult contract decodedLimit before read given chunk (.error .decodedTooLarge)
  | ended (used left decoded : Bytes) (next : State) (whole : chunk = used ++ left)
      (member : format.Member (read ++ used))
      (all : given ++ decoded = format.output (read ++ used))
      (within : (before ++ (given ++ decoded)).length ≤ decodedLimit)
      (isEnd : inflater.eof next = true) (unused : inflater.unusedData next = left) :
      ChunkResult contract decodedLimit before read given chunk
        (.ok (next, before ++ (given ++ decoded)))
  | goesOn (decoded : Bytes) (next : State)
      (reads : contract.Reads next (read ++ chunk) (given ++ decoded))
      (unended : format.Unended (read ++ chunk))
      (within : (before ++ (given ++ decoded)).length ≤ decodedLimit)
      (notEnd : inflater.eof next = false) :
      ChunkResult contract decodedLimit before read given chunk
        (.ok (next, before ++ (given ++ decoded)))

variable {rounds : Nat} {state : State}

theorem inflateChunk_result {before read given chunk : Bytes}
    (reads : contract.Reads state read given) (goesOn : inflater.eof state = false)
    (within : (before ++ given).length ≤ decodedLimit) (enough : chunk.length ≤ rounds)
    (isChunk : chunk ≠ []) :
    ChunkResult contract decodedLimit before read given chunk
      (inflateChunk inflater decodedLimit rounds state (before ++ given) chunk) := by
  cases rounds with
  | zero => exact absurd (eq_nil_of_length_eq_zero (Nat.le_zero.mp enough)) isChunk
  | succ rounds =>
    obtain ⟨byte, bytes, rfl⟩ := exists_cons_of_ne_nil isChunk
    unfold inflateChunk
    dsimp only
    cases called : inflater.decompress state (byte :: bytes)
        (decodedLimit - (before ++ given).length + 1) with
    | none => exact .refused fun member => contract.refuses _ _ _ _ _ member reads goesOn called
    | some answer =>
      obtain ⟨next, decoded⟩ := answer
      obtain ⟨used, left, whole, nextReads, ended, went⟩ :=
        contract.reads _ _ _ _ _ _ _ reads goesOn (Nat.succ_pos _) called
      have size : (before ++ (given ++ decoded)).length =
          (before ++ given).length + decoded.length := by
        rw [← append_assoc, length_append]
      dsimp only
      by_cases tooLarge : decodedLimit - (before ++ given).length < decoded.length
      · rw [if_pos tooLarge]
        exact .tooLarge used decoded next (whole ▸ prefix_append used left) nextReads
          (by omega) fun isEnd => (ended isEnd).1
      rw [if_neg tooLarge, append_assoc]
      cases isEnd : inflater.eof next with
      | true =>
        obtain ⟨member, all, unused⟩ := ended isEnd
        exact .ended used left decoded next whole member all (by omega) isEnd unused
      | false =>
        obtain ⟨rfl, unended⟩ := went isEnd (by omega)
        rw [append_nil] at whole
        cases whole
        have allRead := (inflater.consumed _ _ _ _ _ called isEnd (by omega)).1
        rw [if_neg Bool.false_ne_true, allRead, inflateChunk_nil]
        exact .goesOn decoded next nextReads unended (by omega) isEnd

theorem comparable_of_prefix {α : Type} {left right whole : List α} (first : left <+: whole)
    (second : right <+: whole) : left <+: right ∨ right <+: left :=
  prefix_or_prefix_of_prefix first second

def afterChunk (inflater : Inflater State) (decodedLimit rounds : Nat) (rest : Bytes) :
    Except GzipFault (State × Bytes) → Except GzipFault (State × Bytes × Bytes)
  | .error fault => .error fault
  | .ok (next, output) =>
    if inflater.eof next = true then .ok (next, output, inflater.unusedData next ++ rest)
    else inflateMember inflater decodedLimit rounds next output rest

variable {output pending : Bytes}

theorem inflateMember_succ (more : pending ≠ []) :
    inflateMember inflater decodedLimit (rounds + 1) state output pending =
      afterChunk inflater decodedLimit rounds (pending.drop gzipDecompressChunkSize)
        (inflateChunk inflater decodedLimit (pending.take gzipDecompressChunkSize).length state
          output (pending.take gzipDecompressChunkSize)) := by
  obtain ⟨byte, bytes, rfl⟩ := exists_cons_of_ne_nil more
  unfold inflateMember afterChunk
  dsimp only
  cases inflateChunk inflater decodedLimit
      ((byte :: bytes).take gzipDecompressChunkSize).length state output
      ((byte :: bytes).take gzipDecompressChunkSize) with
  | error fault => rfl
  | ok answer => rfl

theorem take_chunk_ne_nil {pending : Bytes} (more : pending ≠ []) :
    pending.take gzipDecompressChunkSize ≠ [] := by
  have positive := length_pos_of_ne_nil more
  have size : 0 < gzipDecompressChunkSize := by decide
  rw [← length_pos_iff, length_take]
  omega

theorem inflateMember_member {before read given unread : Bytes}
    (after : Bytes) (reads : contract.Reads state read given)
    (goesOn : inflater.eof state = false) (member : format.Member (read ++ unread))
    (more : unread ≠ []) (within : (before ++ given).length ≤ decodedLimit)
    (enough : (unread ++ after).length ≤ rounds) :
    inflateMember inflater decodedLimit rounds state (before ++ given) (unread ++ after) =
        .error .decodedTooLarge ∧
        decodedLimit < (before ++ format.output (read ++ unread)).length ∨
      ∃ last, inflateMember inflater decodedLimit rounds state (before ++ given)
          (unread ++ after) = .ok (last, before ++ format.output (read ++ unread), after) ∧
        inflater.eof last = true ∧ (before ++
          format.output (read ++ unread)).length ≤ decodedLimit := by
  induction rounds generalizing state read given unread with
  | zero =>
    rw [length_append] at enough
    exact absurd (eq_nil_of_length_eq_zero (by omega)) more
  | succ rounds ih =>
    have pendingSome : unread ++ after ≠ [] := append_ne_nil_of_left_ne_nil more after
    have chunkSome := take_chunk_ne_nil pendingSome
    obtain ⟨chunk, isChunk⟩ : ∃ chunk, (unread ++ after).take gzipDecompressChunkSize = chunk :=
      ⟨_, rfl⟩
    obtain ⟨rest, isRest⟩ : ∃ rest, (unread ++ after).drop gzipDecompressChunkSize = rest :=
      ⟨_, rfl⟩
    have parts : unread ++ after = chunk ++ rest := by
      rw [← isChunk, ← isRest, take_append_drop]
    have called := inflateChunk_result contract reads goesOn within (Nat.le_refl chunk.length)
      (isChunk ▸ chunkSome)
    have memberFront : read ++ unread <+: read ++ (chunk ++ rest) := by
      rw [← parts, ← append_assoc]
      exact prefix_append _ _
    have chunkFront : read ++ chunk <+: read ++ (chunk ++ rest) :=
      (prefix_append_right_inj read).mpr (prefix_append _ _)
    rw [inflateMember_succ pendingSome, isChunk, isRest]
    generalize inflateChunk inflater decodedLimit chunk.length state (before ++ given) chunk =
      answer at called ⊢
    cases called with
    | refused never =>
      exfalso
      obtain ⟨shorter, longer⟩ := never _ member
      rcases comparable_of_prefix chunkFront memberFront with front | front
      · exact shorter front
      · exact longer front
    | tooLarge used decoded next front nextReads exceeds ended =>
      left
      refine ⟨rfl, ?_⟩
      have usedFront : read ++ used <+: read ++ unread := by
        rcases comparable_of_prefix (((prefix_append_right_inj read).mpr front).trans
          chunkFront) memberFront with shorter | longer
        · exact shorter
        · exact (contract.stops _ _ _ _ nextReads member longer).symm ▸ prefix_refl _
      have given := ((contract.given_prefix _ _ _ nextReads).trans
        (format.output_prefix _ _ usedFront)).length_le
      rw [length_append] at exceeds ⊢
      omega
    | ended used left decoded next whole ends all held isEnd unused =>
      right
      have usedFront : read ++ used <+: read ++ (chunk ++ rest) := by
        rw [whole, append_assoc]
        exact (prefix_append_right_inj read).mpr (prefix_append _ _)
      have same : read ++ used = read ++ unread := by
        rcases comparable_of_prefix usedFront memberFront with front | front
        · exact format.prefix_free _ _ ends member front
        · exact (format.prefix_free _ _ member ends front).symm
      cases append_cancel_left same
      rw [whole, append_assoc] at parts
      cases append_cancel_left parts
      refine ⟨next, ?_, isEnd, all ▸ held⟩
      rw [afterChunk, if_pos isEnd, unused, all]
    | goesOn decoded next nextReads unended held notEnd =>
      obtain ⟨unread, rfl⟩ : ∃ later, unread = chunk ++ later := by
        rcases comparable_of_prefix chunkFront memberFront with front | front
        · obtain ⟨later, whole⟩ := (prefix_append_right_inj read).mp front
          exact ⟨later, whole.symm⟩
        · exact absurd front (unended _ member)
      rw [append_assoc] at parts
      cases append_cancel_left parts
      have chunkLength : 0 < chunk.length := length_pos_of_ne_nil (isChunk ▸ chunkSome)
      rw [← append_assoc] at member
      have still : unread ≠ [] := by
        rintro rfl
        rw [append_nil] at member
        exact unended _ member (prefix_refl _)
      rw [afterChunk, if_neg (by simp [notEnd]), ← append_assoc read chunk unread]
      refine ih nextReads notEnd member still held ?_
      rw [append_assoc, length_append] at enough
      omega

theorem inflateMember_unended {before read given pending : Bytes}
    (reads : contract.Reads state read given) (goesOn : inflater.eof state = false)
    (unended : format.Unended (read ++ pending))
    (within : (before ++ format.output (read ++ pending)).length ≤ decodedLimit)
    (enough : pending.length ≤ rounds) :
    inflateMember inflater decodedLimit rounds state (before ++ given) pending =
        .error .invalidStream ∨
      ∃ last output, inflateMember inflater decodedLimit rounds state (before ++ given) pending =
        .ok (last, output, []) ∧ inflater.eof last = false := by
  induction rounds generalizing state read given pending with
  | zero =>
    cases eq_nil_of_length_eq_zero (Nat.le_zero.mp enough)
    exact .inr ⟨state, before ++ given, rfl, goesOn⟩
  | succ rounds ih =>
    by_cases finished : pending = []
    · cases finished
      exact .inr ⟨state, before ++ given, rfl, goesOn⟩
    have chunkSome := take_chunk_ne_nil finished
    obtain ⟨chunk, isChunk⟩ : ∃ chunk, pending.take gzipDecompressChunkSize = chunk := ⟨_, rfl⟩
    obtain ⟨rest, isRest⟩ : ∃ rest, pending.drop gzipDecompressChunkSize = rest := ⟨_, rfl⟩
    obtain rfl : pending = chunk ++ rest := by
      rw [← isChunk, ← isRest, take_append_drop]
    have shorter {front : Bytes} (isFront : front <+: read ++ (chunk ++ rest)) :
        (before ++ format.output front).length ≤ decodedLimit := by
      have less := (format.output_prefix _ _ isFront).length_le
      rw [length_append] at within ⊢
      omega
    have givenShort {state : State} {front given : Bytes}
        (reads : contract.Reads state front given)
        (isFront : front <+: read ++ (chunk ++ rest)) :
        (before ++ given).length ≤ decodedLimit := by
      have less := (contract.given_prefix _ _ _ reads).length_le
      have bound := shorter isFront
      rw [length_append] at bound ⊢
      omega
    have called := inflateChunk_result contract reads goesOn
      (givenShort reads (prefix_append _ _)) (Nat.le_refl chunk.length)
      (isChunk ▸ chunkSome)
    have chunkLength : 0 < chunk.length := length_pos_of_ne_nil (isChunk ▸ chunkSome)
    have usedFront {used : Bytes} (isFront : used <+: chunk) :
        read ++ used <+: read ++ (chunk ++ rest) :=
      (prefix_append_right_inj read).mpr (isFront.trans (prefix_append _ _))
    rw [inflateMember_succ finished, isChunk, isRest]
    generalize inflateChunk inflater decodedLimit chunk.length state (before ++ given) chunk =
      answer at called ⊢
    cases called with
    | refused never => exact .inl rfl
    | tooLarge used decoded next front nextReads exceeds ended =>
      exact absurd (givenShort nextReads (usedFront front)) (Nat.not_le.mpr exceeds)
    | ended used left decoded next whole ends all held isEnd unused =>
      exact absurd (usedFront (whole ▸ prefix_append _ _)) (unended _ ends)
    | goesOn decoded next nextReads _ held notEnd =>
      rw [afterChunk, if_neg (by simp [notEnd])]
      rw [← append_assoc] at unended within
      rw [length_append] at enough
      exact ih nextReads notEnd unended within (by omega)

def afterMember (inflater : Inflater State) (decodedLimit rounds : Nat) :
    Except GzipFault (State × Bytes × Bytes) → Except GzipFault Bytes
  | .error fault => .error fault
  | .ok (last, output, rest) =>
    if inflater.eof last = false then .error .invalidStream
    else inflateMembers inflater decodedLimit rounds output rest

theorem inflateMembers_succ (more : pending ≠ []) :
    inflateMembers inflater decodedLimit (rounds + 1) output pending =
      afterMember inflater decodedLimit rounds
        (inflateMember inflater decodedLimit pending.length inflater.start output pending) := by
  obtain ⟨byte, bytes, rfl⟩ := exists_cons_of_ne_nil more
  unfold inflateMembers afterMember
  cases inflateMember inflater decodedLimit (byte :: bytes).length inflater.start output
      (byte :: bytes) with
  | error fault => rfl
  | ok answer => rfl

variable {members : List Bytes}

section

variable (contract : GzipContract inflater format)
include contract

theorem inflateMembers_members {before : Bytes}
    (tail : Bytes) (each : ∀ member ∈ members, format.Member member)
    (within : before.length ≤ decodedLimit) (enough : (members.flatten ++ tail).length ≤ rounds) :
    inflateMembers inflater decodedLimit rounds before (members.flatten ++ tail) =
        .error .decodedTooLarge ∧
        decodedLimit < (before ++ (members.map format.output).flatten).length ∨
      ∃ left, tail.length ≤ left ∧
        inflateMembers inflater decodedLimit rounds before (members.flatten ++ tail) =
          inflateMembers inflater decodedLimit left
            (before ++ (members.map format.output).flatten) tail ∧
        (before ++ (members.map format.output).flatten).length ≤ decodedLimit := by
  induction members generalizing rounds before with
  | nil =>
    rw [map_nil, flatten_nil, append_nil]
    exact .inr ⟨rounds, enough, rfl, within⟩
  | cons member members ih =>
    rw [forall_mem_cons] at each
    obtain ⟨isMember, others⟩ := each
    have memberSome := format.member_ne_nil member isMember
    have memberLength := length_pos_of_ne_nil memberSome
    rw [map_cons, flatten_cons, flatten_cons, append_assoc]
    rw [flatten_cons, append_assoc, length_append] at enough
    obtain ⟨rounds, rfl⟩ : ∃ fewer, rounds = fewer + 1 := ⟨rounds - 1, by omega⟩
    rw [inflateMembers_succ (append_ne_nil_of_left_ne_nil memberSome _)]
    have inflated := inflateMember_member contract (members.flatten ++ tail) contract.start
      inflater.eof_start (show format.Member ([] ++ member) from isMember) memberSome
      (show (before ++ []).length ≤ decodedLimit by rwa [append_nil]) (Nat.le_refl _)
    rw [append_nil, nil_append] at inflated
    rcases inflated with ⟨failed, exceeds⟩ | ⟨last, finished, isEnd, held⟩
    · left
      rw [failed]
      refine ⟨rfl, ?_⟩
      rw [length_append] at exceeds ⊢
      rw [length_append]
      omega
    · rw [finished, afterMember, if_neg (by simp [isEnd]), ← append_assoc before]
      exact ih others held (by omega)

theorem boundedGzipDecompress_members (some : members ≠ [])
    (each : ∀ member ∈ members, format.Member member) :
    boundedGzipDecompress inflater decodedLimit members.flatten =
      if (members.map format.output).flatten.length ≤ decodedLimit then
        .ok (members.map format.output).flatten
      else .error .decodedTooLarge := by
  obtain ⟨first, rest, rfl⟩ := exists_cons_of_ne_nil some
  have nonempty : (first :: rest).flatten ≠ [] := by
    exact append_ne_nil_of_left_ne_nil (format.member_ne_nil first (each first mem_cons_self)) _
  rw [boundedGzipDecompress, if_neg nonempty]
  have inflated := inflateMembers_members contract [] each
    (show [].length ≤ decodedLimit from Nat.zero_le _)
    (show ((first :: rest).flatten ++ []).length ≤ (first :: rest).flatten.length by
      rw [append_nil])
  rw [append_nil, nil_append] at inflated
  rcases inflated with ⟨failed, exceeds⟩ | ⟨left, _, finished, held⟩
  · rw [failed, if_neg (Nat.not_le.mpr exceeds)]
  rw [finished, if_pos held]
  cases left with
  | zero | succ => rfl

theorem boundedGzipDecompress_unended {tail : Bytes} (more : tail ≠ [])
    (each : ∀ member ∈ members, format.Member member) (unended : format.Unended tail)
    (within : ((members.map format.output).flatten ++ format.output tail).length ≤ decodedLimit) :
    boundedGzipDecompress inflater decodedLimit (members.flatten ++ tail) =
      .error .invalidStream := by
  rw [boundedGzipDecompress, if_neg (append_ne_nil_of_right_ne_nil _ more)]
  rcases inflateMembers_members contract tail each
    (show [].length ≤ decodedLimit from Nat.zero_le _) (Nat.le_refl _) with
    ⟨_, exceeds⟩ | ⟨left, enough, finished, _⟩
  · rw [nil_append] at exceeds
    rw [length_append] at within
    omega
  have tailLength := length_pos_of_ne_nil more
  obtain ⟨left, rfl⟩ : ∃ fewer, left = fewer + 1 := ⟨left - 1, by omega⟩
  rw [finished, nil_append, inflateMembers_succ more]
  have stuck := inflateMember_unended contract contract.start inflater.eof_start
    (show format.Unended ([] ++ tail) from unended) within (Nat.le_refl tail.length)
  rw [append_nil] at stuck
  rcases stuck with failed | ⟨last, output, stopped, notEnd⟩
  · rw [failed]
    rfl
  · rw [stopped, afterMember, if_pos notEnd]

end

theorem boundedGzipDecompress_finishes (compressed : Bytes) :
    boundedGzipDecompress inflater decodedLimit compressed ≠ .error .outOfRounds := by
  intro endless
  unfold boundedGzipDecompress at endless
  split at endless
  · cases endless
  have finishes : Finishes
      (inflateMembers inflater decodedLimit compressed.length [] compressed) fun _ => True :=
    inflateMembers_finishes inflater (Nat.le_refl compressed.length)
  rw [endless] at finishes
  exact finishes rfl

/-- Output at one moment: what the calls have given, and what is held of it, where a copy
counts again. -/
structure Holding where
  given : Nat
  held : Nat
deriving DecidableEq

def piecesOfChunk (inflater : Inflater State) (decodedLimit : Nat) :
    Nat → State → Bytes → Bytes → List Bytes
  | _, _, _, [] => []
  | 0, _, _, _ :: _ => []
  | rounds + 1, state, output, chunk =>
    let remaining := decodedLimit - output.length
    match inflater.decompress state chunk (remaining + 1) with
    | none => []
    | some (next, decoded) =>
      decoded ::
        if remaining < decoded.length ∨ inflater.eof next = true then []
        else
          piecesOfChunk inflater decodedLimit rounds next (output ++ decoded)
            (inflater.unconsumedTail next)

def piecesOfMember (inflater : Inflater State) (decodedLimit : Nat) :
    Nat → State → Bytes → Bytes → List Bytes
  | _, _, _, [] => []
  | 0, _, _, _ :: _ => []
  | rounds + 1, state, output, pending =>
    let chunk := pending.take gzipDecompressChunkSize
    piecesOfChunk inflater decodedLimit chunk.length state output chunk ++
      match inflateChunk inflater decodedLimit chunk.length state output chunk with
      | .error _ => []
      | .ok (next, output) =>
        if inflater.eof next = true then []
        else
          piecesOfMember inflater decodedLimit rounds next output
            (pending.drop gzipDecompressChunkSize)

def piecesOfMembers (inflater : Inflater State) (decodedLimit : Nat) :
    Nat → Bytes → Bytes → List Bytes
  | _, _, [] => []
  | 0, _, _ :: _ => []
  | rounds + 1, output, pending =>
    piecesOfMember inflater decodedLimit pending.length inflater.start output pending ++
      match inflateMember inflater decodedLimit pending.length inflater.start output pending with
      | .error _ => []
      | .ok (last, output, rest) =>
        if inflater.eof last = false then []
        else piecesOfMembers inflater decodedLimit rounds output rest

/-- The moments around the calls, by the lengths of `output` and of what the variable
`decoded` names: in front of a call, after it with the new piece beside both, when `decoded`
names the piece, and (in front of the next call) when `output` has the piece as well.  At the
end `bytes(output)` is one copy more. -/
def holdings (decodedLimit : Nat) (returns : Bool) : Nat → Nat → List Bytes → List Holding
  | output, decoded, [] =>
    ⟨output, output + decoded⟩ ::
      if returns = true then [⟨output, output + decoded + output⟩] else []
  | output, decoded, piece :: rest =>
    let given := output + piece.length
    ⟨output, output + decoded⟩ :: ⟨given, output + decoded + piece.length⟩ :: ⟨given, given⟩ ::
      if decodedLimit < given then []
      else holdings decodedLimit returns given piece.length rest

def heldByDecompress (inflater : Inflater State) (decodedLimit : Nat) (compressed : Bytes) :
    List Holding :=
  if compressed = [] then []
  else
    holdings decodedLimit (boundedGzipDecompress inflater decodedLimit compressed).isOk 0 0
      (piecesOfMembers inflater decodedLimit compressed.length [] compressed)

/-- Each piece is called for when the output fits, and goes over the limit by a byte. -/
def PiecesFit (decodedLimit : Nat) : Nat → List Bytes → Prop
  | _, [] => True
  | output, piece :: rest =>
    output ≤ decodedLimit ∧ output + piece.length ≤ decodedLimit + 1 ∧
      PiecesFit decodedLimit (output + piece.length) rest

theorem PiecesFit.append {output : Nat} {front back : List Bytes}
    (first : PiecesFit decodedLimit output front)
    (second : PiecesFit decodedLimit (output + front.flatten.length) back) :
    PiecesFit decodedLimit output (front ++ back) := by
  induction front generalizing output with
  | nil => exact second
  | cons piece rest ih =>
    obtain ⟨within, fits, later⟩ := first
    rw [flatten_cons, length_append, ← Nat.add_assoc] at second
    exact ⟨within, fits, ih later second⟩

theorem holdings_le {returns : Bool} {pieces : List Bytes} {output decoded : Nat}
    (fit : PiecesFit decodedLimit output pieces) (within : output ≤ decodedLimit)
    (named : decoded ≤ output) :
    ∀ holding ∈ holdings decodedLimit returns output decoded pieces,
      holding.given ≤ decodedLimit + 1 ∧ holding.held ≤ 3 * decodedLimit + 1 := by
  induction pieces generalizing output decoded with
  | nil =>
    have now : output ≤ decodedLimit + 1 ∧ output + decoded ≤ 3 * decodedLimit + 1 := by omega
    have copied : output ≤ decodedLimit + 1 ∧ output + decoded + output ≤ 3 * decodedLimit + 1 := by
      omega
    unfold holdings
    rw [forall_mem_cons]
    refine ⟨now, ?_⟩
    split
    · exact forall_mem_singleton.mpr copied
    · exact forall_mem_nil _
  | cons piece rest ih =>
    obtain ⟨_, fits, later⟩ := fit
    have now : output ≤ decodedLimit + 1 ∧ output + decoded ≤ 3 * decodedLimit + 1 := by omega
    have called : output + decoded + piece.length ≤ 3 * decodedLimit + 1 := by omega
    have renamed : output + piece.length ≤ 3 * decodedLimit + 1 := by omega
    unfold holdings
    dsimp only
    rw [forall_mem_cons, forall_mem_cons, forall_mem_cons]
    refine ⟨now, ⟨fits, called⟩, ⟨fits, renamed⟩, ?_⟩
    split
    · exact forall_mem_nil _
    · exact ih later (by omega) (by omega)

theorem inflateChunk_gives {output chunk : Bytes} (within : output.length ≤ decodedLimit) :
    Ensures (inflateChunk inflater decodedLimit rounds state output chunk) fun answer =>
      answer.2 = output ++ (piecesOfChunk inflater decodedLimit rounds state output chunk).flatten ∧
        answer.2.length ≤ decodedLimit := by
  have done : output = output ++ ([] : List Bytes).flatten := (append_nil output).symm
  induction rounds generalizing state output chunk with
  | zero =>
    cases chunk with
    | nil => exact .ok ⟨done, within⟩
    | cons byte bytes => exact .error _
  | succ rounds ih =>
    cases chunk with
    | nil => exact .ok ⟨done, within⟩
    | cons byte bytes =>
      unfold inflateChunk piecesOfChunk
      dsimp only
      cases inflater.decompress state (byte :: bytes) (decodedLimit - output.length + 1) with
      | none => exact .error _
      | some answer =>
        obtain ⟨next, piece⟩ := answer
        dsimp only
        by_cases tooLarge : decodedLimit - output.length < piece.length
        · rw [if_pos tooLarge]
          exact .error _
        have grown : (output ++ piece).length ≤ decodedLimit := by
          rw [length_append]
          omega
        rw [if_neg tooLarge]
        by_cases ends : inflater.eof next = true
        · rw [if_pos ends, if_pos (.inr ends), flatten_singleton]
          exact .ok ⟨rfl, grown⟩
        · rw [if_neg ends, if_neg (not_or.mpr ⟨tooLarge, ends⟩), flatten_cons, ← append_assoc]
          exact ih grown (append_nil _).symm

theorem inflateMember_gives (within : output.length ≤ decodedLimit) :
    Ensures (inflateMember inflater decodedLimit rounds state output pending) fun answer =>
      answer.2.1 = output ++
          (piecesOfMember inflater decodedLimit rounds state output pending).flatten ∧
        answer.2.1.length ≤ decodedLimit := by
  have done : output = output ++ ([] : List Bytes).flatten := (append_nil output).symm
  induction rounds generalizing state output pending with
  | zero =>
    cases pending with
    | nil => exact .ok ⟨done, within⟩
    | cons byte bytes => exact .error _
  | succ rounds ih =>
    by_cases finished : pending = []
    · cases finished
      exact .ok ⟨done, within⟩
    obtain ⟨byte, bytes, rfl⟩ := exists_cons_of_ne_nil finished
    have given : Ensures (inflateChunk inflater decodedLimit
        ((byte :: bytes).take gzipDecompressChunkSize).length state output
        ((byte :: bytes).take gzipDecompressChunkSize)) _ := inflateChunk_gives within
    rw [inflateMember_succ finished]
    unfold piecesOfMember
    dsimp only
    generalize inflateChunk inflater decodedLimit
      ((byte :: bytes).take gzipDecompressChunkSize).length state output
      ((byte :: bytes).take gzipDecompressChunkSize) = inflated at given ⊢
    cases inflated with
    | error fault => exact .error fault
    | ok answer =>
      obtain ⟨next, decoded⟩ := answer
      obtain ⟨whole, fits⟩ := given _ rfl
      dsimp only [afterChunk] at whole fits ⊢
      rw [flatten_append, ← append_assoc, ← whole]
      split
      · rw [flatten_nil, append_nil]
        exact .ok ⟨rfl, fits⟩
      · exact ih fits (append_nil decoded).symm

section

variable (contract : GzipContract inflater format)
include contract

theorem piecesOfChunk_fit {output chunk : Bytes} (within : output.length ≤ decodedLimit) :
    PiecesFit decodedLimit output.length
      (piecesOfChunk inflater decodedLimit rounds state output chunk) := by
  induction rounds generalizing state output chunk with
  | zero =>
    cases chunk with
    | nil | cons => exact trivial
  | succ rounds ih =>
    cases chunk with
    | nil => exact trivial
    | cons byte bytes =>
      unfold piecesOfChunk
      dsimp only
      split
      · exact trivial
      rename_i next piece called
      have bound := contract.bounded _ _ _ _ _ (Nat.succ_pos _) called
      refine ⟨within, by omega, ?_⟩
      split
      · exact trivial
      rw [← length_append]
      refine ih ?_
      rw [length_append]
      omega

theorem piecesOfMember_fit (within : output.length ≤ decodedLimit) :
    PiecesFit decodedLimit output.length
      (piecesOfMember inflater decodedLimit rounds state output pending) := by
  induction rounds generalizing state output pending with
  | zero =>
    cases pending with
    | nil | cons => exact trivial
  | succ rounds ih =>
    cases pending with
    | nil => exact trivial
    | cons byte bytes =>
      unfold piecesOfMember
      refine (piecesOfChunk_fit contract within).append ?_
      split
      · exact trivial
      rename_i next decoded inflated
      obtain ⟨whole, fits⟩ := inflateChunk_gives within _ inflated
      rw [← length_append, ← whole]
      split
      · exact trivial
      · exact ih fits

theorem piecesOfMembers_fit (within : output.length ≤ decodedLimit) :
    PiecesFit decodedLimit output.length
      (piecesOfMembers inflater decodedLimit rounds output pending) := by
  induction rounds generalizing output pending with
  | zero =>
    cases pending with
    | nil | cons => exact trivial
  | succ rounds ih =>
    cases pending with
    | nil => exact trivial
    | cons byte bytes =>
      unfold piecesOfMembers
      refine (piecesOfMember_fit contract within).append ?_
      split
      · exact trivial
      rename_i last decoded rest inflated
      obtain ⟨whole, fits⟩ := inflateMember_gives within _ inflated
      rw [← length_append, ← whole]
      split
      · exact trivial
      · exact ih fits

theorem heldByDecompress_le (compressed : Bytes) :
    ∀ holding ∈ heldByDecompress inflater decodedLimit compressed,
      holding.given ≤ decodedLimit + 1 ∧ holding.held ≤ 3 * decodedLimit + 1 := by
  unfold heldByDecompress
  split
  · exact forall_mem_nil _
  · have fit : PiecesFit decodedLimit ([] : Bytes).length
        (piecesOfMembers inflater decodedLimit compressed.length [] compressed) :=
      piecesOfMembers_fit contract (Nat.zero_le _)
    exact holdings_le fit (Nat.zero_le _) le_rfl

end

theorem GzipFormat.unended_of_truncated {member tail : Bytes} (isMember : format.Member member)
    (front : tail <+: member) (truncated : tail ≠ member) : format.Unended tail := by
  intro shorter isShorter inTail
  have same := format.prefix_free _ _ isShorter isMember (inTail.trans front)
  rw [same] at inTail
  exact truncated (front.eq_of_length_le inTail.length_le)

theorem GzipFormat.exists_members (format : GzipFormat) (data : Bytes) :
    ∃ (members : List Bytes) (tail : Bytes), data = members.flatten ++ tail ∧
      (∀ member ∈ members, format.Member member) ∧ format.Unended tail := by
  induction length : data.length using Nat.strongRecOn generalizing data with
  | ind length ih =>
    by_cases unended : format.Unended data
    · exact ⟨[], data, rfl, forall_mem_nil _, unended⟩
    simp only [Unended, not_forall, not_not] at unended
    obtain ⟨member, isMember, rest, rfl⟩ := unended
    have positive := length_pos_of_ne_nil (format.member_ne_nil member isMember)
    rw [length_append] at length
    obtain ⟨members, tail, rfl, each, stuck⟩ := ih rest.length (by omega) rest rfl
    refine ⟨member :: members, tail, ?_, forall_mem_cons.mpr ⟨isMember, each⟩, stuck⟩
    rw [flatten_cons, append_assoc]

theorem decode_of_invalidStream {payload : CanonicalAdvancedPayload} {encoded : Str}
    {compressed : Bytes} (noRaw : payload.rawData = none)
    (isEncoded : payload.encodedData = some encoded)
    (decoded : payload.encoding = some .gzipBase64 ∧ strictBase64 encoded = .ok compressed ∨
      payload.encoding = some .gzipBase64url ∧ strictBase64url encoded = .ok compressed)
    (invalid : boundedGzipDecompress inflater decodedLimit compressed = .error .invalidStream) :
    decodeAdvancedPayloadData inflater decodedLimit payload = .error invalidEncoding := by
  have refused : gunzip inflater decodedLimit compressed = .error invalidEncoding := by
    rw [gunzip, invalid]
  unfold decodeAdvancedPayloadData
  rw [noRaw, isEncoded]
  have text : ∃ encoding, payload.encoding = some encoding ∧
      decodeText inflater decodedLimit encoded encoding = .error invalidEncoding := by
    rcases decoded with ⟨encoding, read⟩ | ⟨encoding, read⟩
    all_goals
      refine ⟨_, encoding, ?_⟩
      rw [decodeText, read]
      exact refused
  obtain ⟨_, encoding, text⟩ := text
  rw [encoding]
  dsimp only
  rw [text]
  rfl

/-- Of every body at most the limit and one byte is produced, of which at most three times as
much is held: a concatenation of streams is inflated to all of its output or to the error for
too much, anything else, where its output fits, to the error for an invalid encoding. -/
theorem boundedGzipDecompress_outcome (contract : GzipContract inflater format)
    (decodedLimit : Nat) :
    (∀ compressed, boundedGzipDecompress inflater decodedLimit compressed ≠ .error .outOfRounds ∧
      ∀ holding ∈ heldByDecompress inflater decodedLimit compressed,
        holding.given ≤ decodedLimit + 1 ∧ holding.held ≤ 3 * decodedLimit + 1) ∧
    (∀ members : List Bytes, members ≠ [] → (∀ member ∈ members, format.Member member) →
      boundedGzipDecompress inflater decodedLimit members.flatten =
        if (members.map format.output).flatten.length ≤ decodedLimit then
          .ok (members.map format.output).flatten
        else .error .decodedTooLarge) ∧
    boundedGzipDecompress inflater decodedLimit [] = .error .invalidStream ∧
    (∀ (members : List Bytes) (tail : Bytes), tail ≠ [] →
      (∀ member ∈ members, format.Member member) →
      (format.Unended tail ∨ ∃ member, format.Member member ∧ tail <+: member ∧ tail ≠ member) →
      ((members.map format.output).flatten ++ format.output tail).length ≤ decodedLimit →
      boundedGzipDecompress inflater decodedLimit (members.flatten ++ tail) =
        .error .invalidStream) ∧
    (∀ compressed, ∃ (members : List Bytes) (tail : Bytes), compressed = members.flatten ++ tail ∧
      (∀ member ∈ members, format.Member member) ∧ format.Unended tail) ∧
    ∀ payload encoded compressed, payload.rawData = none → payload.encodedData = some encoded →
      (payload.encoding = some .gzipBase64 ∧ strictBase64 encoded = .ok compressed ∨
        payload.encoding = some .gzipBase64url ∧ strictBase64url encoded = .ok compressed) →
      boundedGzipDecompress inflater decodedLimit compressed = .error .invalidStream →
      decodeAdvancedPayloadData inflater decodedLimit payload = .error invalidEncoding := by
  refine ⟨fun compressed => ⟨boundedGzipDecompress_finishes compressed,
    heldByDecompress_le contract compressed⟩, ?_, rfl, ?_, format.exists_members, ?_⟩
  · exact fun members some each => boundedGzipDecompress_members contract some each
  · rintro members tail more each (unended | ⟨member, isMember, front, truncated⟩) within
    · exact boundedGzipDecompress_unended contract more each unended within
    · exact boundedGzipDecompress_unended contract more each
        (format.unended_of_truncated isMember front truncated) within
  · exact fun payload encoded compressed noRaw isEncoded decoded invalid =>
      decode_of_invalidStream noRaw isEncoded decoded invalid

def gzipOfA : Bytes :=
  [0x1F, 0x8B, 0x08, 0x00, 0x00, 0x00, 0x00, 0x00, 0x02, 0xFF, 0x4B, 0x04, 0x00, 0x43, 0xBE, 0xB7,
    0xE8, 0x01, 0x00, 0x00, 0x00]

def sampleFormat : GzipFormat :=
  { Member := fun data => data = gzipOfA
    output := fun data => if gzipOfA <+: data then [97] else []
    member_ne_nil := by
      rintro member rfl
      decide
    prefix_free := by
      rintro shorter longer rfl rfl _
      rfl
    output_prefix := by
      intro front whole inWhole
      by_cases inFront : gzipOfA <+: front
      · rw [if_pos inFront, if_pos (inFront.trans inWhole)]
      · rw [if_neg inFront]
        exact nil_prefix }

theorem exists_used {member read chunk : Bytes} (inWhole : member <+: read ++ chunk)
    (before : ¬ member <+: read) :
    ∃ used, used ≠ [] ∧ read ++ used = member ∧
      chunk = used ++ (read ++ chunk).drop member.length := by
  rcases comparable_of_prefix inWhole (prefix_append read chunk) with early | ⟨used, rfl⟩
  · exact absurd early before
  refine ⟨used, ?_, rfl, ?_⟩
  · rintro rfl
    rw [append_nil] at before
    exact before (prefix_refl _)
  · obtain ⟨rest, rfl⟩ := (prefix_append_right_inj read).mp inWhole
    rw [← append_assoc, drop_left]

def sampleInflater : Inflater (Bytes × Bytes) :=
  { start := ([], [])
    decompress := fun state chunk _ =>
      let whole := state.1 ++ chunk
      if gzipOfA <+: whole ∧ ¬ gzipOfA <+: state.1 then
        some ((gzipOfA, whole.drop gzipOfA.length), [97])
      else if whole <+: gzipOfA ∧ whole ≠ gzipOfA then some ((whole, []), [])
      else none
    eof := fun state => decide (state.1 = gzipOfA)
    unusedData := fun state => state.2
    unconsumedTail := fun _ => []
    drained := fun _ => True
    drained_start := trivial
    eof_start := rfl
    consumed := fun _ _ _ _ _ _ _ _ => ⟨rfl, trivial⟩
    ended := by
      intro state chunk limit next output _ called _ isEnd
      dsimp only at called
      split at called
      · case isTrue both =>
          cases called
          obtain ⟨used, some, _, whole⟩ := exists_used both.1 both.2
          exact ⟨used, some, whole⟩
      · split at called
        · case isTrue both =>
            cases called
            exact absurd (of_decide_eq_true isEnd) both.2
        · cases called }

def sampleContract : GzipContract sampleInflater sampleFormat :=
  { Reads := fun state read given =>
      state.1 = read ∧ given = sampleFormat.output read ∧ (gzipOfA <+: read → gzipOfA = read)
    start := ⟨rfl, rfl, by decide⟩
    given_prefix := by
      rintro state read given ⟨_, rfl, _⟩
      exact prefix_refl _
    stops := by
      rintro state read given member ⟨_, _, stops⟩ rfl inRead
      exact stops inRead
    bounded := by
      intro state chunk limit next output positive called
      dsimp only [sampleInflater] at called
      split at called
      · cases called
        exact positive
      split at called
      · cases called
        exact Nat.zero_le limit
      · cases called
    refuses := by
      rintro state chunk limit read given member ⟨rfl, _, stops⟩ goesOn called rfl
      have unended : ¬ gzipOfA <+: state.1 :=
        fun inRead => of_decide_eq_false goesOn (stops inRead).symm
      dsimp only [sampleInflater] at called
      split at called
      · cases called
      rename_i notEnd
      have outside : ¬ gzipOfA <+: state.1 ++ chunk := fun inWhole => notEnd ⟨inWhole, unended⟩
      split at called
      · cases called
      rename_i notFront
      refine ⟨fun front => notFront ⟨front, ?_⟩, outside⟩
      intro same
      rw [same] at outside
      exact outside (prefix_refl _)
    reads := by
      rintro state chunk limit next output read given ⟨rfl, rfl, stops⟩ goesOn positive called
      have unended : ¬ gzipOfA <+: state.1 :=
        fun inRead => of_decide_eq_false goesOn (stops inRead).symm
      have noOutput : sampleFormat.output state.1 = [] := if_neg unended
      dsimp only [sampleInflater] at called
      split at called
      · case isTrue both =>
          cases called
          obtain ⟨used, _, same, whole⟩ := exists_used both.1 both.2
          have given : sampleFormat.output (state.1 ++ used) = [97] := by
            rw [same]
            decide
          have isEnd : sampleInflater.eof
            (gzipOfA, (state.1 ++ chunk).drop gzipOfA.length) = true :=
            show decide (gzipOfA = gzipOfA) = true from decide_eq_true rfl
          refine ⟨used, _, whole, ⟨same.symm, ?_, fun _ => same.symm⟩, fun _ => ⟨same, ?_, rfl⟩,
            fun goesOn => absurd (isEnd.symm.trans goesOn) (by decide)⟩
          all_goals
            rw [given, noOutput]
            rfl
      · case isFalse notEnd =>
          have outside : ¬ gzipOfA <+: state.1 ++ chunk := fun inWhole => notEnd ⟨inWhole, unended⟩
          split at called
          · case isTrue both =>
              cases called
              have given : sampleFormat.output (state.1 ++ chunk) = [] := if_neg outside
              refine ⟨chunk, [], (append_nil chunk).symm,
                ⟨rfl, ?_, fun inWhole => absurd inWhole outside⟩,
                fun isEnd => absurd (of_decide_eq_true isEnd) both.2,
                fun _ _ => ⟨rfl, ?_⟩⟩
              · rw [given, noOutput]
                rfl
              · rintro member rfl inWhole
                exact outside inWhole
          · cases called }

/-- Two streams are inflated to their outputs, where these fit. -/
theorem gzipOfA_twice :
    boundedGzipDecompress sampleInflater 2 (gzipOfA ++ gzipOfA) = .ok [97, 97] ∧
      boundedGzipDecompress sampleInflater 1 (gzipOfA ++ gzipOfA) = .error .decodedTooLarge := by
  have each : ∀ member ∈ [gzipOfA, gzipOfA], sampleFormat.Member member := by
    intro member present
    rcases mem_cons.mp present with rfl | later
    · rfl
    · exact mem_singleton.mp later
  have joined : [gzipOfA, gzipOfA].flatten = gzipOfA ++ gzipOfA := rfl
  have outputs : ([gzipOfA, gzipOfA].map sampleFormat.output).flatten = [97, 97] := by decide
  constructor
  · have whole := (boundedGzipDecompress_outcome sampleContract 2).2.1 _ (cons_ne_nil _ _) each
    exact whole
  · have whole := (boundedGzipDecompress_outcome sampleContract 1).2.1 _ (cons_ne_nil _ _) each
    exact whole

/-- The byte that `gzipOfA` inflates to is held three times when `bytes(output)` is made. -/
theorem gzipOfA_heldThrice :
    ¬ ∀ (decodedLimit : Nat) (compressed : Bytes),
      ∀ holding ∈ heldByDecompress sampleInflater decodedLimit compressed,
        holding.held ≤ decodedLimit + 1 := by
  intro bounded
  have moments : heldByDecompress sampleInflater 1 gzipOfA =
      [⟨0, 0⟩, ⟨1, 1⟩, ⟨1, 1⟩, ⟨1, 2⟩, ⟨1, 3⟩] := by
    decide +kernel
  have held := bounded 1 gzipOfA ⟨1, 3⟩ (moments ▸ by decide)
  exact absurd held (by decide)

end XFerry.AdvancedPayload

import LeanLibp2p.Lib.Dialogue
import LeanLibp2p.Multiformats.MultistreamSelect

/-!
# Blocking negotiation

`libp2p_multistream_select_select_one` and `libp2p_multistream_select_accept` of
`multistream_select.c`, over streams whose read and write functions block and transfer at least a
byte.
-/

namespace LeanLibp2p

open LeanLibp2p.Lib

variable (supported : List Bytes)

/-- A function that works on a `libp2p_multistream_select_stream_t`. -/
abbrev SelectProc (α : Type) := Proc UInt8 MultistreamSelectErr α

/-- The loop of `multistream_select_read_exact`; `fuel` is at least `remaining`. -/
def multistreamSelectReadExactLoop : Nat → Nat → Bytes → SelectProc Bytes
  | 0, _, got => .ret got
  | fuel + 1, remaining, got =>
    if remaining = 0 then .ret got
    else .read remaining fun answer =>
      match answer with
      | .error e => .fail e
      | .ok bytes =>
        if bytes.length = 0 ∨ remaining < bytes.length then .fail .io
        else multistreamSelectReadExactLoop fuel (remaining - bytes.length) (got ++ bytes)

/-- `multistream_select_read_exact` (`multistream_select.c:173-208`). -/
def multistreamSelectReadExact (outLen : Nat) : SelectProc Bytes :=
  multistreamSelectReadExactLoop outLen outLen []

/-- The loop of `multistream_select_write_exact`; `fuel` is at least the length of the data. -/
def multistreamSelectWriteExactLoop : Nat → Bytes → SelectProc Unit
  | 0, _ => .ret ()
  | fuel + 1, data =>
    if data.length = 0 then .ret ()
    else .write data fun answer =>
      match answer with
      | .error e => .fail e
      | .ok written =>
        if written = 0 ∨ data.length < written then .fail .io
        else multistreamSelectWriteExactLoop fuel (data.drop written)

/-- `multistream_select_write_exact` (`multistream_select.c:210-245`). -/
def multistreamSelectWriteExact (data : Bytes) : SelectProc Unit :=
  multistreamSelectWriteExactLoop data.length data

/-- The first loop of `libp2p_multistream_select_read_message`, which reads the length. -/
def multistreamSelectReadPrefixLoop : Nat → Bytes → SelectProc Nat
  | 0, _ => .fail .malformedVarint
  | fuel + 1, got => do
    let bytes ← multistreamSelectReadExact 1
    match uvarintDecode (got ++ bytes) with
    | .ok (messageLen, _) => .ret messageLen
    | .error .truncated => multistreamSelectReadPrefixLoop fuel (got ++ bytes)
    | .error _ => .fail .malformedVarint

/-- `libp2p_multistream_select_read_message` (`multistream_select.c:485-593`). -/
def multistreamSelectReadMessage (outLen : Nat) : SelectProc Bytes := do
  let messageLen ← multistreamSelectReadPrefixLoop uvarintMaxBytes []
  if multistreamSelectMaxMessageBytes < messageLen then .fail .messageTooLarge
  else if messageLen = 0 then .fail .missingNewline
  else do
    let message ← multistreamSelectReadExact messageLen
    if message.getD (messageLen - 1) 0 ≠ multistreamSelectNewline then .fail .missingNewline
    else if outLen < messageLen - 1 then .fail .bufTooSmall
    else .ret (message.take (messageLen - 1))

/-- `libp2p_multistream_select_write_message` (`multistream_select.c:467-483`). -/
def multistreamSelectWriteMessage (payload : Bytes) : SelectProc Unit := do
  let frame ← .ofResult
    (multistreamSelectMessageEncode payload multistreamSelectMaxEncodedMessageBytes)
  multistreamSelectWriteExact frame

/-- `multistream_select_write_two_messages` (`multistream_select.c:247-278`). -/
def multistreamSelectWriteTwoMessages (first second : Bytes) : SelectProc Unit := do
  let frame ← .ofResult
    (multistreamSelectMessageEncode first (multistreamSelectMaxEncodedMessageBytes * 2))
  let frame' ← .ofResult
    (multistreamSelectMessageEncode second
      (multistreamSelectMaxEncodedMessageBytes * 2 - frame.length))
  multistreamSelectWriteExact (frame ++ frame')

/-- `multistream_select_find_protocol` (`multistream_select.c:280-303`): the number of protocols if
    none is the payload. -/
def multistreamSelectFindProtocol (ids : List Bytes) (payload : Bytes) : Nat :=
  ids.findIdx fun id => id = payload

/-- `multistream_select_read_expected_protocol_id` (`multistream_select.c:305-323`). -/
def multistreamSelectReadExpectedProtocolId : SelectProc Unit := do
  let payload ← multistreamSelectReadMessage multistreamSelectMaxPayloadBytes
  if payload = multistreamSelectProtocolId then .ret () else .fail .protocolMismatch

/-- The loop of `libp2p_multistream_select_select_one` over the candidates from `index` on, of which
    the first has been offered. -/
def multistreamSelectSelectOneLoop : List Bytes → Nat → SelectProc Nat
  | [], _ => .fail .notAvailable
  | id :: ids, index => do
    let response ← multistreamSelectReadMessage multistreamSelectMaxPayloadBytes
    if response = id then .ret index
    else if response = multistreamSelectNa then
      match ids with
      | [] => .fail .notAvailable
      | next :: _ => do
        multistreamSelectWriteMessage next
        multistreamSelectSelectOneLoop ids (index + 1)
    else .fail .unrecognizedResponse

/-- `libp2p_multistream_select_select_one` (`multistream_select.c:758-842`). -/
def multistreamSelectSelectOne (ids : List Bytes) : SelectProc Nat := do
  Proc.ofResult (multistreamSelectProtocolsValid ids)
  match ids with
  | [] => .fail .invalidArg
  | first :: _ => do
    multistreamSelectWriteTwoMessages multistreamSelectProtocolId first
    multistreamSelectReadExpectedProtocolId
    multistreamSelectSelectOneLoop ids 0

/-- One round of the loop of `libp2p_multistream_select_accept`. -/
def multistreamSelectAcceptRound (ids : List Bytes) : SelectProc Nat := do
  let request ← multistreamSelectReadMessage multistreamSelectMaxPayloadBytes
  if request = multistreamSelectLs then do
    let payload ← .ofResult
      (multistreamSelectLsResponsePayloadEncode ids multistreamSelectMaxPayloadBytes)
    multistreamSelectWriteMessage payload
    .again
  else if multistreamSelectFindProtocol ids request < ids.length then do
    multistreamSelectWriteMessage request
    .ret (multistreamSelectFindProtocol ids request)
  else do
    multistreamSelectWriteMessage multistreamSelectNa
    .again

/-- `libp2p_multistream_select_accept` (`multistream_select.c:844-944`) up to its loop. -/
def multistreamSelectAccept (ids : List Bytes) : SelectProc Nat := do
  Proc.ofResult (multistreamSelectProtocolsValid ids)
  multistreamSelectWriteMessage multistreamSelectProtocolId
  multistreamSelectReadExpectedProtocolId
  .again

namespace MultistreamSelect

/-! ## Messages -/

theorem readExactLoop_script {fuel : Nat} {data got : Bytes} (h : data.length ≤ fuel) :
    Proc.Says (multistreamSelectReadExactLoop fuel data.length got) (Event.gets data)
      (got ++ data) := by
  induction fuel generalizing data got with
  | zero =>
    have hnil := List.length_eq_zero_iff.mp (Nat.le_zero.mp h)
    subst hnil
    rw [List.append_nil]
    exact .ret got
  | succ fuel ih =>
    unfold multistreamSelectReadExactLoop
    by_cases hzero : data.length = 0
    · rw [if_pos hzero]
      have hnil := List.length_eq_zero_iff.mp hzero
      subst hnil
      rw [List.append_nil]
      exact .ret got
    · rw [if_neg hzero]
      refine .readAll rfl (Nat.pos_of_ne_zero hzero) fun n hn hle => ?_
      have hlen : (data.take n).length = n := by
        rw [List.length_take]
        omega
      have hrest := @ih (data.drop n) (got ++ data.take n) (by rw [List.length_drop]; omega)
      rw [List.append_assoc, List.take_append_drop, List.length_drop] at hrest
      dsimp only
      rw [hlen, if_neg (by omega)]
      exact hrest

theorem readExact_script (data : Bytes) :
    Proc.Says (multistreamSelectReadExact data.length) (Event.gets data) data :=
  @readExactLoop_script data.length data [] (Nat.le_refl _)

theorem writeExactLoop_script {fuel : Nat} {data : Bytes} (h : data.length ≤ fuel) :
    Proc.Says (multistreamSelectWriteExactLoop fuel data) (Event.puts data) () := by
  induction fuel generalizing data with
  | zero =>
    have hnil := List.length_eq_zero_iff.mp (Nat.le_zero.mp h)
    subst hnil
    exact .ret ()
  | succ fuel ih =>
    unfold multistreamSelectWriteExactLoop
    by_cases hzero : data.length = 0
    · rw [if_pos hzero]
      have hnil := List.length_eq_zero_iff.mp hzero
      subst hnil
      exact .ret ()
    · rw [if_neg hzero]
      refine .writeAll (fun hnil => hzero (congrArg List.length hnil)) fun n hn hle => ?_
      dsimp only
      rw [if_neg (by omega)]
      exact ih (by rw [List.length_drop]; omega)

theorem writeExact_script (data : Bytes) :
    Proc.Says (multistreamSelectWriteExact data) (Event.puts data) () :=
  writeExactLoop_script (Nat.le_refl _)

/-- The rest of a length is read byte by byte. -/
theorem readPrefixLoop_script {fuel value : Nat} {got rest : Bytes} (hrest : rest ≠ [])
    (hfuel : rest.length ≤ fuel)
    (hpart : ∀ part more, part ++ more = got ++ rest → more ≠ [] →
      uvarintDecode part = .error .truncated)
    (hwhole : uvarintDecode (got ++ rest) = .ok (value, (got ++ rest).length)) :
    Proc.Says (multistreamSelectReadPrefixLoop fuel got) (Event.gets rest) value := by
  induction fuel generalizing got rest with
  | zero => exact absurd (List.length_eq_zero_iff.mp (Nat.le_zero.mp hfuel)) hrest
  | succ fuel ih =>
    obtain ⟨b, rest, rfl⟩ := List.exists_cons_of_ne_nil hrest
    have hread := readExact_script [b]
    unfold multistreamSelectReadPrefixLoop
    change Proc.Says _ (Event.gets [b] ++ Event.gets rest) value
    refine Proc.Says.bind hread ?_
    cases rest with
    | nil =>
      rw [hwhole]
      exact .ret value
    | cons c rest =>
      have hsplit : (got ++ [b]) ++ (c :: rest) = got ++ (b :: c :: rest) := by simp
      rw [hpart (got ++ [b]) (c :: rest) hsplit (by simp)]
      refine ih (by simp) (by simpa using hfuel) ?_ ?_
      · rwa [hsplit]
      · rwa [hsplit]

/-- The length of a message, and no part of it, is read. -/
theorem uvarintDecode_begin {value : Nat} (h : value < 2 ^ 63) :
    uvarintDecode (uvarintEncodeLoop 9 value) =
        .ok (value, (uvarintEncodeLoop 9 value).length) ∧
      ∀ part more, part ++ more = uvarintEncodeLoop 9 value → more ≠ [] →
        uvarintDecode part = .error .truncated := by
  have hsize : (uvarintEncodeLoop 9 value).length = uvarintSize value :=
    uvarintEncodeLoop_length 9 value
  have hencode : uvarintEncode value 10 = .ok (uvarintEncodeLoop 9 value) :=
    uvarintEncode_ok h (uvarintSize_le value)
  have hwhole := uvarintDecode_encode hencode []
  rw [List.append_nil] at hwhole
  refine ⟨hwhole, fun part more hsplit hmore => ?_⟩
  by_contra htruncated
  have happend := uvarintDecode_append more htruncated
  rw [hsplit, hwhole] at happend
  have hle := uvarintDecode_bounds happend.symm
  have hlen := congrArg List.length hsplit
  have hpos := List.length_pos_of_ne_nil hmore
  rw [List.length_append] at hlen
  omega

theorem readMessage_script {payload : Bytes} {outLen : Nat}
    (hlen : payload.length ≤ multistreamSelectMaxPayloadBytes) (hout : payload.length ≤ outLen) :
    Proc.Says (multistreamSelectReadMessage outLen) (Event.gets (multistreamFrame payload)) payload := by
  have hmax : multistreamSelectMaxPayloadBytes = 1023 := rfl
  have hmessage : multistreamSelectMaxMessageBytes = 1024 := rfl
  have hsize := @uvarintSize_le_two (payload.length + 1) (by omega)
  obtain ⟨hwhole, hpart⟩ := @uvarintDecode_begin (payload.length + 1) (by omega)
  have hheader : Proc.Says (multistreamSelectReadPrefixLoop uvarintMaxBytes [])
      (Event.gets (uvarintEncodeLoop 9 (payload.length + 1))) (payload.length + 1) := by
    refine readPrefixLoop_script (uvarintEncodeLoop_ne_nil _ _) ?_ hpart hwhole
    rw [uvarintEncodeLoop_length]
    have hnine : uvarintMaxBytes = 9 := rfl
    unfold uvarintSize at hsize
    omega
  have hbody := readExact_script (payload ++ [multistreamSelectNewline])
  rw [List.length_append, List.length_singleton] at hbody
  unfold multistreamFrame multistreamSelectReadMessage
  rw [List.append_assoc, Event.gets_append]
  refine hheader.bind ?_
  rw [if_neg (by omega), if_neg (by omega)]
  refine hbody.bindRet ?_
  rw [Nat.add_sub_cancel, if_neg, if_neg (by omega), List.take_left]
  simp

theorem writeMessage_script {payload : Bytes}
    (hlen : payload.length ≤ multistreamSelectMaxPayloadBytes) :
    Proc.Says (multistreamSelectWriteMessage payload) (Event.puts (multistreamFrame payload)) () := by
  unfold multistreamSelectWriteMessage
  rw [multistreamSelectMessageEncode_eq hlen (Nat.le_refl _)]
  exact writeExact_script _

theorem writeTwoMessages_script {first second : Bytes}
    (hfirst : first.length ≤ multistreamSelectMaxPayloadBytes)
    (hsecond : second.length ≤ multistreamSelectMaxPayloadBytes) :
    Proc.Says (multistreamSelectWriteTwoMessages first second)
      (Event.puts (multistreamFrame first ++ multistreamFrame second)) () := by
  have hmax : multistreamSelectMaxPayloadBytes = 1023 := rfl
  have hframe : multistreamSelectMaxEncodedMessageBytes = 1026 := rfl
  have hsize := @uvarintSize_le_two (first.length + 1) (by omega)
  have hlen := multistreamFrame_length first
  unfold multistreamSelectWriteTwoMessages
  rw [multistreamSelectMessageEncode_eq hfirst (by omega)]
  change Proc.Says (Proc.ofResult (multistreamSelectMessageEncode second _) >>= _) _ ()
  rw [multistreamSelectMessageEncode_eq hsecond (by omega)]
  exact writeExact_script _

theorem readExpectedProtocolId_script :
    Proc.Says multistreamSelectReadExpectedProtocolId
      (Event.gets (multistreamFrame multistreamSelectProtocolId)) () := by
  unfold multistreamSelectReadExpectedProtocolId
  exact (readMessage_script (by decide) (by decide)).bindRet (if_pos rfl)

/-! ## The conversation -/

/-- The ids are not taken for an answer or for another request. -/
def Plain (id : Bytes) : Prop := id ≠ multistreamSelectNa ∧ id ≠ multistreamSelectLs

instance (id : Bytes) : Decidable (Plain id) :=
  inferInstanceAs (Decidable (id ≠ multistreamSelectNa ∧ id ≠ multistreamSelectLs))

theorem protocolsValid_length {ids : List Bytes} (h : multistreamSelectProtocolsValid ids = .ok ()) :
    ∀ id ∈ ids, id.length ≤ multistreamSelectMaxPayloadBytes := by
  induction ids with
  | nil => simp
  | cons first ids ih =>
    unfold multistreamSelectProtocolsValid at h
    split at h
    · cases h
    · split at h
      · cases h
      · rename_i hle
        intro id hid
        rcases List.mem_cons.mp hid with rfl | hid
        · exact Nat.not_lt.mp hle
        · exact ih h id hid

/-- What is said once the first of the candidates has been offered. -/
def rounds (supported : List Bytes) : List Bytes → Schedule UInt8
  | [] => []
  | id :: ids =>
    Schedule.lines false (Event.gets (multistreamFrame id)) ++
      if id ∈ supported then
        Schedule.lines false (Event.puts (multistreamFrame id)) ++
          Schedule.lines true (Event.gets (multistreamFrame id))
      else
        Schedule.lines false (Event.puts (multistreamFrame multistreamSelectNa)) ++
          (Schedule.lines true (Event.gets (multistreamFrame multistreamSelectNa)) ++
            match ids with
            | [] => []
            | next :: _ =>
              Schedule.lines true (Event.puts (multistreamFrame next)) ++ rounds supported ids)

/-- All that is said. -/
def conversation : List Bytes → Schedule UInt8
  | [] => []
  | first :: ids =>
    Schedule.lines true (Event.puts (multistreamFrame multistreamSelectProtocolId ++
        multistreamFrame first)) ++
      (Schedule.lines false (Event.puts (multistreamFrame multistreamSelectProtocolId)) ++
        (Schedule.lines true (Event.gets (multistreamFrame multistreamSelectProtocolId)) ++
          (Schedule.lines false (Event.gets (multistreamFrame multistreamSelectProtocolId)) ++
            rounds supported (first :: ids))))

/-- How the initiator ends. -/
def selects (supported : List Bytes) : List Bytes → Nat → SelectProc Nat
  | [], _ => .fail .notAvailable
  | id :: ids, index => if id ∈ supported then .ret index else selects supported ids (index + 1)

/-- How the responder ends, or goes on. -/
def accepts (supported : List Bytes) : List Bytes → SelectProc Nat
  | [] => multistreamSelectAcceptRound supported
  | id :: ids =>
    if id ∈ supported then .ret (multistreamSelectFindProtocol supported id)
    else accepts supported ids

/-- Each line is read after it is written. -/
theorem rounds_valid (id : Bytes) (ids : List Bytes) (a b : Nat) :
    (rounds supported (id :: ids)).Valid (a + (multistreamFrame id).length) b := by
  induction ids generalizing id a b with
  | nil =>
    rw [rounds]
    refine .getsRight ?_
    split
    · refine .putsRight ?_
      have hlast := @Schedule.Valid.getsLeft UInt8 [] a b (multistreamFrame id) trivial
      rwa [List.append_nil] at hlast
    · exact .putsRight (.getsLeft trivial)
  | cons next ids ih =>
    rw [rounds]
    refine .getsRight ?_
    split
    · refine .putsRight ?_
      have hlast := @Schedule.Valid.getsLeft UInt8 [] a b (multistreamFrame id) trivial
      rwa [List.append_nil] at hlast
    · exact .putsRight (.getsLeft (.putsLeft (ih next a b)))

theorem conversation_valid (first : Bytes) (ids : List Bytes) :
    (conversation supported (first :: ids)).Valid 0 0 := by
  rw [conversation]
  refine .putsLeft (.putsRight (.getsLeft ?_))
  have hsum : 0 + (multistreamFrame multistreamSelectProtocolId ++ multistreamFrame first).length =
      0 + (multistreamFrame first).length +
        (multistreamFrame multistreamSelectProtocolId).length := by
    rw [List.length_append]
    omega
  rw [hsum]
  exact .getsRight (rounds_valid supported first ids 0 0)

/-- The initiator says its lines of the rounds. -/
theorem selectOneLoop_follows {supported ids : List Bytes} (index : Nat) (hids : ids ≠ [])
    (hlen : ∀ id ∈ ids, id.length ≤ multistreamSelectMaxPayloadBytes)
    (hplain : ∀ id ∈ ids, Plain id) :
    Proc.Follows .again (· = selects supported ids index)
      ((multistreamSelectSelectOneLoop ids index).unloop .again)
      ((rounds supported ids).of true) := by
  induction ids generalizing index with
  | nil => exact absurd rfl hids
  | cons id ids ih =>
    rw [multistreamSelectSelectOneLoop.eq_def, rounds.eq_def, selects]
    simp only [Schedule.of_append, Schedule.of_true_lines, List.nil_append]
    by_cases hid : id ∈ supported
    · simp only [if_pos hid, Schedule.of_append, Schedule.of_true_lines, Schedule.of_lines_self,
        List.nil_append]
      refine (readMessage_script (hlen id (by simp)) (hlen id (by simp))).followsEnd ?_
      rw [if_pos rfl]
      rfl
    · simp only [if_neg hid, Schedule.of_append, Schedule.of_true_lines, Schedule.of_lines_self,
        List.nil_append]
      refine Proc.Says.follows (readMessage_script (by decide) (by decide)) ?_
      rw [if_neg (Ne.symm (hplain id (by simp)).1), if_pos rfl]
      cases ids with
      | nil => exact .stop rfl
      | cons next ids =>
        simp only [Schedule.of_append, Schedule.of_lines_self]
        refine (writeMessage_script (hlen next (by simp))).follows ?_
        exact ih (index + 1) (by simp) (fun c hc => hlen c (List.mem_cons_of_mem _ hc))
          fun c hc => hplain c (List.mem_cons_of_mem _ hc)

/-- The responder says its lines of the rounds. -/
theorem acceptRound_follows {supported ids : List Bytes}
    (hlen : ∀ id ∈ ids, id.length ≤ multistreamSelectMaxPayloadBytes)
    (hplain : ∀ id ∈ ids, Plain id) :
    Proc.Follows (multistreamSelectAcceptRound supported) (· = accepts supported ids)
      (multistreamSelectAcceptRound supported) ((rounds supported ids).of false) := by
  induction ids with
  | nil => exact .stop rfl
  | cons id ids ih =>
    have hround : multistreamSelectAcceptRound supported =
        (multistreamSelectAcceptRound supported).unloop (multistreamSelectAcceptRound supported) := rfl
    have hread := readMessage_script (hlen id (by simp)) (hlen id (by simp))
    rw [rounds.eq_def, accepts]
    simp only [Schedule.of_append, Schedule.of_lines_self]
    by_cases hid : id ∈ supported
    · have hfound : multistreamSelectFindProtocol supported id < supported.length := by
        apply List.findIdx_lt_length_of_exists
        exact ⟨id, hid, by simp⟩
      simp only [if_pos hid, Schedule.of_append, Schedule.of_false_lines, Schedule.of_lines_self,
        List.append_nil]
      rw [hround]
      refine hread.follows ?_
      rw [if_neg (hplain id (by simp)).2, if_pos hfound]
      exact (writeMessage_script (hlen id (by simp))).followsEnd rfl
    · have hmissing : ¬ multistreamSelectFindProtocol supported id < supported.length := by
        intro hlt
        obtain ⟨c, hc, hsame⟩ := List.findIdx_lt_length.mp hlt
        exact hid (of_decide_eq_true hsame ▸ hc)
      simp only [if_neg hid, Schedule.of_append, Schedule.of_false_lines, Schedule.of_lines_self,
        List.nil_append]
      rw [hround]
      refine hread.follows ?_
      rw [if_neg (hplain id (by simp)).2, if_neg hmissing]
      refine Proc.Says.follows (writeMessage_script (by decide)) ?_
      have hrest := ih (fun c hc => hlen c (List.mem_cons_of_mem _ hc))
        fun c hc => hplain c (List.mem_cons_of_mem _ hc)
      cases ids with
      | nil => exact hrest
      | cons next ids =>
        simp only [Schedule.of_append, Schedule.of_false_lines, List.nil_append]
        exact hrest

/-- What the responder reads is what the initiator writes, the first candidate before the rounds. -/
theorem rounds_received_right (id : Bytes) (ids : List Bytes) :
    Event.received ((rounds supported (id :: ids)).of false) =
      multistreamFrame id ++ Event.sent ((rounds supported (id :: ids)).of true) := by
  induction ids generalizing id with
  | nil =>
    rw [rounds]
    split <;> simp
  | cons next ids ih =>
    rw [rounds]
    split
    · simp
    · simp [ih]

theorem rounds_received_left (supported ids : List Bytes) :
    Event.received ((rounds supported ids).of true) =
      Event.sent ((rounds supported ids).of false) := by
  induction ids with
  | nil => rfl
  | cons id ids ih =>
    rw [rounds.eq_def]
    dsimp only
    split
    · simp
    · cases ids with
      | nil => simp
      | cons next ids => simp [ih]

/-- If no candidate is supported, each is offered once. -/
theorem rounds_sent {supported : List Bytes} {id : Bytes} {ids : List Bytes}
    (h : ∀ c ∈ id :: ids, c ∉ supported) :
    multistreamFrame id ++ Event.sent ((rounds supported (id :: ids)).of true) =
      (id :: ids).flatMap multistreamFrame := by
  induction ids generalizing id with
  | nil =>
    rw [rounds, if_neg (h id (by simp))]
    simp
  | cons next ids ih =>
    have hrest := ih fun c hc => h c (List.mem_cons_of_mem _ hc)
    rw [rounds, if_neg (h id (by simp)), List.flatMap_cons, ← hrest]
    simp

/-! ## Agreement -/

/-- The two programs on the two ends of the pipes. -/
def connect (candidates supported : List Bytes) : Net UInt8 MultistreamSelectErr Nat where
  left := .start (multistreamSelectSelectOne candidates) .again
  right := .start (multistreamSelectAccept supported) (multistreamSelectAcceptRound supported)

theorem connect_scheduled {candidates supported : List Bytes} (hcandidates : candidates ≠ [])
    (hvalid : multistreamSelectProtocolsValid candidates = .ok ())
    (hvalid' : multistreamSelectProtocolsValid supported = .ok ())
    (hplain : ∀ id ∈ candidates, Plain id) :
    Scheduled (· = selects supported candidates 0) (· = accepts supported candidates)
      (Event.sent ((conversation supported candidates).of true))
      (Event.sent ((conversation supported candidates).of false))
      (connect candidates supported).left (connect candidates supported).right
      (conversation supported candidates) := by
  obtain ⟨first, ids, rfl⟩ := List.exists_cons_of_ne_nil hcandidates
  have hlen := protocolsValid_length hvalid
  refine ⟨?_, ?_, ?_, ?_, fun _ => rfl, fun _ => rfl, rfl, rfl, conversation_valid ..⟩
  · rw [conversation]
    simp only [Schedule.of_append, Schedule.of_lines_self, Schedule.of_true_lines, List.nil_append]
    change Proc.Follows .again _ ((multistreamSelectSelectOne (first :: ids)).unloop .again) _
    unfold multistreamSelectSelectOne
    rw [hvalid, Proc.ofResult_ok_bind]
    refine Proc.Says.follows (writeTwoMessages_script (by decide) (hlen first (by simp))) ?_
    refine Proc.Says.follows readExpectedProtocolId_script ?_
    exact selectOneLoop_follows 0 (by simp) hlen hplain
  · rw [conversation]
    simp only [Schedule.of_append, Schedule.of_lines_self, Schedule.of_false_lines, List.nil_append]
    change Proc.Follows (multistreamSelectAcceptRound supported) _
      ((multistreamSelectAccept supported).unloop (multistreamSelectAcceptRound supported)) _
    unfold multistreamSelectAccept
    rw [hvalid', Proc.ofResult_ok_bind]
    refine Proc.Says.follows (writeMessage_script (by decide)) ?_
    refine Proc.Says.follows readExpectedProtocolId_script ?_
    exact acceptRound_follows hlen hplain
  · rw [conversation]
    simp [rounds_received_right, connect, Party.start]
  · rw [conversation]
    simp [rounds_received_left, connect, Party.start]

/-- How the initiator ends says what the candidates are. -/
theorem selects_of_find {supported candidates : List Bytes} {id : Bytes} (index : Nat)
    (h : candidates.find? (· ∈ supported) = some id) :
    ∃ i, selects supported candidates index = .ret (index + i) ∧ candidates[i]? = some id ∧
      ∀ j c, j < i → candidates[j]? = some c → c ∉ supported := by
  induction candidates generalizing index with
  | nil => cases h
  | cons first rest ih =>
    rw [selects]
    by_cases hfirst : first ∈ supported
    · rw [List.find?_cons_of_pos (by simpa using hfirst)] at h
      refine ⟨0, if_pos hfirst, h, fun j c hj => absurd hj (Nat.not_lt_zero j)⟩
    · rw [List.find?_cons_of_neg (by simpa using hfirst)] at h
      obtain ⟨i, hret, hi, hbefore⟩ := ih (index + 1) h
      refine ⟨i + 1, ?_, hi, ?_⟩
      · rw [if_neg hfirst, hret]
        congr 1
        omega
      · intro j c hj hc
        cases j with
        | zero =>
          cases hc
          exact hfirst
        | succ j => exact hbefore j c (by omega) hc

theorem selects_of_none {supported candidates : List Bytes} (index : Nat)
    (h : ∀ id ∈ candidates, id ∉ supported) :
    selects supported candidates index = .fail .notAvailable := by
  induction candidates generalizing index with
  | nil => rfl
  | cons first rest ih =>
    rw [selects, if_neg (h first (by simp))]
    exact ih (index + 1) fun id hid => h id (List.mem_cons_of_mem _ hid)

theorem findProtocol_getElem {ids : List Bytes} {id : Bytes} (h : id ∈ ids) :
    ids[multistreamSelectFindProtocol ids id]? = some id := by
  have hlt : multistreamSelectFindProtocol ids id < ids.length := by
    apply List.findIdx_lt_length_of_exists
    exact ⟨id, h, by simp⟩
  have hfound := List.findIdx_getElem (w := hlt)
  rw [List.getElem?_eq_getElem hlt]
  exact congrArg some (of_decide_eq_true hfound)

theorem accepts_of_find {supported candidates : List Bytes} {id : Bytes}
    (h : candidates.find? (· ∈ supported) = some id) :
    ∃ i, accepts supported candidates = .ret i ∧ supported[i]? = some id := by
  induction candidates with
  | nil => cases h
  | cons first rest ih =>
    rw [accepts]
    by_cases hfirst : first ∈ supported
    · rw [List.find?_cons_of_pos (by simpa using hfirst)] at h
      cases h
      exact ⟨_, if_pos hfirst, findProtocol_getElem hfirst⟩
    · rw [List.find?_cons_of_neg (by simpa using hfirst)] at h
      rw [if_neg hfirst]
      exact ih h

theorem accepts_of_none {supported candidates : List Bytes}
    (h : ∀ id ∈ candidates, id ∉ supported) :
    accepts supported candidates = multistreamSelectAcceptRound supported := by
  induction candidates with
  | nil => rfl
  | cons first rest ih =>
    rw [accepts, if_neg (h first (by simp))]
    exact ih fun id hid => h id (List.mem_cons_of_mem _ hid)

/-- Both calls return OK with the first candidate that the responder supports, and what is left in the
    pipes is what was written after. -/
structure Agrees (id : Bytes) (candidates supported : List Bytes) (calls : Nat)
    (N : Net UInt8 MultistreamSelectErr Nat) : Prop where
  left : N.left.proc.Ended → ∃ i, N.left.proc = .ret i ∧ candidates[i]? = some id ∧
    ∀ j c, j < i → candidates[j]? = some c → c ∉ supported
  right : N.right.proc.Ended → ∃ i, N.right.proc = .ret i ∧ supported[i]? = some id
  leftRead : N.left.proc.Ended → N.right.outbox = N.right.later
  rightRead : N.right.proc.Ended → N.left.outbox = N.left.later
  progress : ¬ (N.left.proc.Ended ∧ N.right.proc.Ended) → ∃ N', Net.Step N N'
  calls_le : calls ≤ (conversation supported candidates).length

/-- The initiator returns `NOT_AVAILABLE` after it has offered every candidate once. -/
structure Refused (candidates supported : List Bytes) (calls : Nat)
    (N : Net UInt8 MultistreamSelectErr Nat) : Prop where
  left : N.left.proc.Ended → N.left.proc = .fail .notAvailable ∧
    N.left.written = multistreamFrame multistreamSelectProtocolId ++
      candidates.flatMap multistreamFrame
  progress : ¬ N.left.proc.Ended → ∃ N', Net.Step N N'
  calls_le : ¬ N.left.proc.Ended → calls ≤ (conversation supported candidates).length

/-- A call of one of the parties is a step. -/
theorem step_of_scheduled {L R : SelectProc Nat → Prop} {wl wr : Bytes} {S : Schedule UInt8}
    {N : Net UInt8 MultistreamSelectErr Nat} (h : Scheduled L R wl wr N.left N.right S)
    (hS : S ≠ []) : ∃ N', Net.Step N N' := by
  obtain ⟨l, r, hcall | hcall⟩ := h.progress hS
  · exact ⟨_, .left hcall⟩
  · exact ⟨_, .right hcall⟩

/-- What is left in the pipe to a program that has returned was written later. -/
theorem outbox_of_scheduled {L R : SelectProc Nat → Prop} {wm wp : Bytes} {S : Schedule UInt8}
    {me peer : Party UInt8 MultistreamSelectErr Nat} (h : Scheduled L R wm wp me peer S)
    (hended : me.proc.Ended) : peer.outbox = peer.later := by
  have htoMe := h.toMe
  rw [h.mine.nil_of_ended hended] at htoMe
  by_cases hS : S.of false = []
  · rw [hS] at htoMe
    simpa [Event.sent, Event.received] using htoMe
  · rw [h.peersLater hS] at htoMe ⊢
    exact (List.append_eq_nil_iff.mp htoMe).1

section Agreement

variable {candidates supported : List Bytes} {calls : Nat} {N : Net UInt8 MultistreamSelectErr Nat}
  (hcandidates : candidates ≠ [])
  (hvalid : multistreamSelectProtocolsValid candidates = .ok ())
  (hvalid' : multistreamSelectProtocolsValid supported = .ok ())
  (hplain : ∀ id ∈ candidates, Plain id)
  (hreach : Net.Reaches calls (connect candidates supported) N)

include hcandidates hvalid hvalid' hplain hreach

theorem agrees_of_reaches {id : Bytes} (hid : candidates.find? (· ∈ supported) = some id) :
    Agrees id candidates supported calls N := by
  obtain ⟨i, hi, higet, hibefore⟩ := selects_of_find 0 hid
  obtain ⟨j, hj, hjget⟩ := accepts_of_find hid
  have h₀ := connect_scheduled hcandidates hvalid hvalid' hplain
  rw [hi, hj] at h₀
  have hended : ∀ (k : Nat) (p : SelectProc Nat), p = .ret k → p.Ended := by
    rintro k p rfl
    trivial
  obtain ⟨S, hS, hlen⟩ := hreach.scheduled h₀ (hended _) (hended _)
  constructor
  · intro hleft
    have hmine := hS.mine
    rw [hmine.nil_of_ended hleft] at hmine
    rw [Nat.zero_add] at hmine
    exact ⟨i, hmine.of_nil, higet, hibefore⟩
  · intro hright
    have hpeers := hS.peers
    rw [hpeers.nil_of_ended hright] at hpeers
    exact ⟨j, hpeers.of_nil, hjget⟩
  · exact outbox_of_scheduled hS
  · exact outbox_of_scheduled hS.swap
  · intro hboth
    apply step_of_scheduled hS
    rintro rfl
    obtain ⟨hleft, hright, -⟩ := hS.done
    exact hboth ⟨hended _ _ hleft, hended _ _ hright⟩
  · omega

theorem refused_of_reaches (hnone : candidates.find? (· ∈ supported) = none) :
    Refused candidates supported calls N := by
  have hunsupported : ∀ id ∈ candidates, id ∉ supported := by
    intro id hid
    simpa using List.find?_eq_none.mp hnone id hid
  have h₀ := connect_scheduled hcandidates hvalid hvalid' hplain
  rw [selects_of_none 0 hunsupported, accepts_of_none hunsupported] at h₀
  have hwritten : Event.sent ((conversation supported candidates).of true) =
      multistreamFrame multistreamSelectProtocolId ++ candidates.flatMap multistreamFrame := by
    obtain ⟨first, ids, rfl⟩ := List.exists_cons_of_ne_nil hcandidates
    rw [← rounds_sent hunsupported, conversation]
    simp
  have hended : ∀ p : SelectProc Nat, p = .fail .notAvailable → p.Ended := by
    rintro p rfl
    trivial
  have hwaiting : ∀ p : SelectProc Nat, p = multistreamSelectAcceptRound supported → p.Waiting := by
    rintro p rfl
    trivial
  rcases hreach.scheduled_or_ended h₀ rfl hended hwaiting with ⟨S, hS, hlen, -⟩ | ⟨hleft, hall⟩
  · constructor
    · intro hleft
      have hs := hS.mine.nil_of_ended hleft
      have hmine := hS.mine
      have hall := hS.mineAll
      rw [hs] at hmine hall
      refine ⟨hmine.of_nil, ?_⟩
      rw [← hwritten]
      simpa [Event.sent] using hall
    · intro hleft
      apply step_of_scheduled hS
      rintro rfl
      exact hleft (hended _ hS.done.1)
    · intro _
      omega
  · exact ⟨fun _ => ⟨hleft, hall.trans hwritten⟩, fun h => absurd (hended _ hleft) h,
      fun h => absurd (hended _ hleft) h⟩

omit hreach in
/-- If there is a common id, the two calls return in every run that goes on. -/
theorem completes {id : Bytes} (hid : candidates.find? (· ∈ supported) = some id) :
    ∃ calls N, Net.Reaches calls (connect candidates supported) N ∧ N.left.proc.Ended ∧
      N.right.proc.Ended := by
  by_contra hnever
  have hlong : ∀ k, ∃ N, Net.Reaches k (connect candidates supported) N := by
    intro k
    induction k with
    | zero => exact ⟨_, .refl _⟩
    | succ k ih =>
      obtain ⟨N, hreach⟩ := ih
      have hagrees := agrees_of_reaches hcandidates hvalid hvalid' hplain hreach hid
      obtain ⟨N', hstep⟩ := hagrees.progress fun hboth => hnever ⟨k, N, hreach, hboth⟩
      exact ⟨N', hreach.call hstep⟩
  obtain ⟨N, hreach⟩ := hlong ((conversation supported candidates).length + 1)
  have hagrees := agrees_of_reaches hcandidates hvalid hvalid' hplain hreach hid
  have hle := hagrees.calls_le
  omega

end Agreement

/-! ## Any initiator -/

theorem writeExactLoop_only {fuel : Nat} {data w : Bytes} (h : data.length ≤ fuel) :
    (multistreamSelectWriteExactLoop fuel data).Only (fun w' _ => w' = w ++ data) w := by
  induction fuel generalizing data w with
  | zero =>
    have hnil := List.length_eq_zero_iff.mp (Nat.le_zero.mp h)
    subst hnil
    exact (List.append_nil w).symm
  | succ fuel ih =>
    unfold multistreamSelectWriteExactLoop
    by_cases hzero : data.length = 0
    · rw [if_pos hzero]
      have hnil := List.length_eq_zero_iff.mp hzero
      subst hnil
      exact (List.append_nil w).symm
    · rw [if_neg hzero]
      refine ⟨fun n hn => ?_, fun e => trivial⟩
      dsimp only
      by_cases hbad : n = 0 ∨ data.length < n
      · rw [if_pos hbad]
        trivial
      · rw [if_neg hbad]
        have hrest := @ih (data.drop n) (w ++ data.take n) (by rw [List.length_drop]; omega)
        rwa [List.append_assoc, List.take_append_drop] at hrest

theorem writeMessage_only (payload w : Bytes) :
    (multistreamSelectWriteMessage payload).Only (fun w' _ => w' = w ++ multistreamFrame payload) w := by
  unfold multistreamSelectWriteMessage
  by_cases hlen : payload.length ≤ multistreamSelectMaxPayloadBytes
  · rw [multistreamSelectMessageEncode_eq hlen (Nat.le_refl _)]
    exact writeExactLoop_only (Nat.le_refl _)
  · have hlarge : multistreamSelectMessageEncode payload multistreamSelectMaxEncodedMessageBytes =
        .error .messageTooLarge := by
      unfold multistreamSelectMessageEncode multistreamSelectMessageSize
      rw [if_pos (by omega)]
    rw [hlarge]
    trivial

/-- What a responder returns is the index of an id that it has just echoed. -/
def Echoed (w : Bytes) (index : Nat) : Prop :=
  ∃ id, supported[index]? = some id ∧ multistreamFrame id <:+ w

/-- A program that returns only what it may, behind one that may return anything. -/
theorem only_of_forall {α γ : Type} {Q : Bytes → γ → Prop} {p : SelectProc α}
    {f : α → SelectProc γ} (w : Bytes) (h : ∀ w a, (f a).Only Q w) : (p >>= f).Only Q w := by
  apply Proc.Only.bind
  induction p generalizing w with
  | ret a => exact h w a
  | fail e => trivial
  | again => trivial
  | read len k ih => exact fun answer => ih answer w
  | write data k ih => exact ⟨fun n _ => ih _ _, fun e => ih _ _⟩

theorem acceptRound_only (w : Bytes) :
    (multistreamSelectAcceptRound supported).Only (Echoed supported) w := by
  unfold multistreamSelectAcceptRound
  refine only_of_forall w fun w request => ?_
  split
  · exact only_of_forall w fun w payload => only_of_forall w fun _ _ => trivial
  · split
    · rename_i hfound
      refine .bind ((writeMessage_only request w).mono ?_)
      rintro w' - rfl
      have hid := List.findIdx_getElem (w := hfound)
      refine ⟨request, ?_, List.suffix_append ..⟩
      rw [List.getElem?_eq_getElem hfound]
      exact congrArg some (of_decide_eq_true hid)
    · exact only_of_forall w fun _ _ => trivial

theorem accept_only (w : Bytes) :
    (multistreamSelectAccept supported).Only (Echoed supported) w := by
  unfold multistreamSelectAccept
  exact only_of_forall w fun w _ => only_of_forall w fun w _ => only_of_forall w fun _ _ => trivial

/-! ## Negotiation -/

/-- Whatever the sizes and the order of the transfers are, the initiator and the responder agree on the
    first candidate that the responder supports, or the initiator learns that there is none; and no
    initiator makes the responder return an id that it does not support and echo. -/
theorem selectOne_accept (supported : List Bytes)
    (hvalid' : multistreamSelectProtocolsValid supported = .ok ()) :
    (∀ candidates : List Bytes, candidates ≠ [] →
      multistreamSelectProtocolsValid candidates = .ok () → (∀ id ∈ candidates, Plain id) →
      ∀ calls N, Net.Reaches calls (connect candidates supported) N →
        (∀ id, candidates.find? (· ∈ supported) = some id →
          Agrees id candidates supported calls N) ∧
        (candidates.find? (· ∈ supported) = none → Refused candidates supported calls N)) ∧
    ∀ (initiator : Party UInt8 MultistreamSelectErr Nat) calls N,
      Net.Reaches calls ⟨initiator, (connect [] supported).right⟩ N →
      ∀ index, N.right.proc = .ret index → Echoed supported N.right.written index := by
  constructor
  · intro candidates hcandidates hvalid hplain calls N hreach
    exact ⟨fun id hid => agrees_of_reaches hcandidates hvalid hvalid' hplain hreach hid,
      refused_of_reaches hcandidates hvalid hvalid' hplain hreach⟩
  · intro initiator calls N hreach index hret
    have hstart := (accept_only supported []).unloop (acceptRound_only supported [])
    obtain ⟨honly, -⟩ := hreach.only (acceptRound_only supported) hstart
    rw [hret] at honly
    exact honly

/-- The first candidate is refused, and the second one is the first id of the responder. -/
theorem selectOne_accept_second :
    ∃ calls N, Net.Reaches calls (connect [[1], [2]] [[2], [3]]) N ∧
      N.left.proc = .ret 1 ∧ N.right.proc = .ret 0 := by
  obtain ⟨calls, N, hreach, hleft, hright⟩ :=
    @completes [[1], [2]] [[2], [3]] (by decide) rfl rfl (by decide) [2] (by decide)
  have hagrees := ((selectOne_accept [[2], [3]] rfl).1 [[1], [2]] (by decide) rfl (by decide)
    calls N hreach).1 [2] (by decide)
  obtain ⟨i, hi, hget, -⟩ := hagrees.left hleft
  obtain ⟨j, hj, hget'⟩ := hagrees.right hright
  refine ⟨calls, N, hreach, ?_, ?_⟩
  · rcases i with - | - | i
    · simp at hget
    · exact hi
    · simp at hget
  · rcases j with - | - | j
    · exact hj
    · simp at hget'
    · simp at hget'

end MultistreamSelect

end LeanLibp2p

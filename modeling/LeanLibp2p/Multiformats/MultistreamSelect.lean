import LeanLibp2p.Multiformats.Varint

/-!
# multistream-select messages

`multistream_select.c`: a message is a payload and a newline behind a varint with the length of
both. A decoder that is given more than one message reads the first.
-/

namespace LeanLibp2p

/-- `libp2p_multistream_select_err_t` without `OK`. -/
inductive MultistreamSelectErr where
  | invalidArg
  | bufTooSmall
  | messageTooLarge
  | malformedVarint
  | truncated
  | missingNewline
  | protocolMismatch
  | notAvailable
  | unrecognizedResponse
  | io
  | wouldBlock
  deriving DecidableEq, Repr

/-- `LIBP2P_MULTISTREAM_SELECT_PROTOCOL_ID`, `"/multistream/1.0.0"`. -/
def multistreamSelectProtocolId : Bytes :=
  [0x2f, 0x6d, 0x75, 0x6c, 0x74, 0x69, 0x73, 0x74, 0x72, 0x65, 0x61, 0x6d, 0x2f, 0x31, 0x2e, 0x30,
    0x2e, 0x30]

/-- `LIBP2P_MULTISTREAM_SELECT_NA`, `"na"`. -/
def multistreamSelectNa : Bytes := [0x6e, 0x61]

/-- `LIBP2P_MULTISTREAM_SELECT_LS`, `"ls"`. -/
def multistreamSelectLs : Bytes := [0x6c, 0x73]

/-- `LIBP2P_MULTISTREAM_SELECT_MAX_MESSAGE_BYTES`. -/
def multistreamSelectMaxMessageBytes : Nat := 1024

/-- `LIBP2P_MULTISTREAM_SELECT_MAX_PAYLOAD_BYTES`. -/
def multistreamSelectMaxPayloadBytes : Nat := multistreamSelectMaxMessageBytes - 1

/-- `LIBP2P_MULTISTREAM_SELECT_MAX_ENCODED_MESSAGE_BYTES`. -/
def multistreamSelectMaxEncodedMessageBytes : Nat := multistreamSelectMaxMessageBytes + 2

/-- `MULTISTREAM_SELECT_NEWLINE`. -/
def multistreamSelectNewline : UInt8 := 0x0a

/-- `libp2p_multistream_select_message_size` (`multistream_select.c:325-351`). -/
def multistreamSelectMessageSize (payloadLen : Nat) : Except MultistreamSelectErr Nat :=
  if multistreamSelectMaxPayloadBytes < payloadLen then .error .messageTooLarge
  else .ok (uvarintSize (payloadLen + 1) + payloadLen + 1)

/-- `libp2p_multistream_select_message_encode` (`multistream_select.c:353-410`) into `outLen` bytes. -/
def multistreamSelectMessageEncode (payload : Bytes) (outLen : Nat) :
    Except MultistreamSelectErr Bytes :=
  match multistreamSelectMessageSize payload.length with
  | .error e => .error e
  | .ok required =>
    if outLen < required then .error .bufTooSmall
    else
      match uvarintEncode (payload.length + 1) outLen with
      | .error _ => .error .malformedVarint
      | .ok lengthPrefix => .ok (lengthPrefix ++ payload ++ [multistreamSelectNewline])

/-- `multistream_select_message_metadata` (`multistream_select.c:84-171`): where the payload starts,
    its length, and the length of the frame. -/
def multistreamSelectMessageMetadata (input : Bytes) :
    Except MultistreamSelectErr (Nat × Nat × Nat) :=
  match uvarintDecode input with
  | .error .truncated => .error .truncated
  | .error _ => .error .malformedVarint
  | .ok (messageLen, prefixLen) =>
    if multistreamSelectMaxMessageBytes < messageLen then .error .messageTooLarge
    else if messageLen = 0 then .error .missingNewline
    else
      let frameLen := prefixLen + messageLen
      if input.length < frameLen then .error .truncated
      else if input.getD (frameLen - 1) 0 ≠ multistreamSelectNewline then .error .missingNewline
      else .ok (prefixLen, messageLen - 1, frameLen)

/-- `libp2p_multistream_select_message_decode` (`multistream_select.c:412-465`): the payload, and the
    bytes that the message takes. -/
def multistreamSelectMessageDecode (input : Bytes) (outLen : Nat) :
    Except MultistreamSelectErr (Bytes × Nat) :=
  match multistreamSelectMessageMetadata input with
  | .error e => .error e
  | .ok (payloadOffset, payloadLen, frameLen) =>
    if outLen < payloadLen then .error .bufTooSmall
    else .ok ((input.drop payloadOffset).take payloadLen, frameLen)

/-- `multistream_select_protocols_valid` (`multistream_select.c:14-49`). -/
def multistreamSelectProtocolsValid : List Bytes → Except MultistreamSelectErr Unit
  | [] => .ok ()
  | id :: ids =>
    if id.length = 0 then .error .invalidArg
    else if multistreamSelectMaxPayloadBytes < id.length then .error .messageTooLarge
    else multistreamSelectProtocolsValid ids

/-- The loop of `libp2p_multistream_select_ls_response_payload_size`
    (`multistream_select.c:595-646`). -/
def multistreamSelectLsSizeLoop : List Bytes → Nat → Except MultistreamSelectErr Nat
  | [], required => .ok required
  | id :: ids, required =>
    match multistreamSelectMessageSize id.length with
    | .error e => .error e
    | .ok messageSize =>
      if multistreamSelectMaxPayloadBytes - required < messageSize then .error .messageTooLarge
      else multistreamSelectLsSizeLoop ids (required + messageSize)

/-- The loop of `libp2p_multistream_select_ls_response_payload_encode`
    (`multistream_select.c:648-694`). -/
def multistreamSelectLsEncodeLoop : List Bytes → Nat → Except MultistreamSelectErr Bytes
  | [], _ => .ok []
  | id :: ids, room =>
    match multistreamSelectMessageEncode id room with
    | .error e => .error e
    | .ok message =>
      match multistreamSelectLsEncodeLoop ids (room - message.length) with
      | .error e => .error e
      | .ok rest => .ok (message ++ rest)

/-- `libp2p_multistream_select_ls_response_payload_size` (`multistream_select.c:595-646`). -/
def multistreamSelectLsResponsePayloadSize (ids : List Bytes) : Except MultistreamSelectErr Nat :=
  match multistreamSelectProtocolsValid ids with
  | .error e => .error e
  | .ok () => multistreamSelectLsSizeLoop ids 0

/-- `libp2p_multistream_select_ls_response_payload_encode` (`multistream_select.c:648-694`). -/
def multistreamSelectLsResponsePayloadEncode (ids : List Bytes) (outLen : Nat) :
    Except MultistreamSelectErr Bytes :=
  match multistreamSelectLsResponsePayloadSize ids with
  | .error e => .error e
  | .ok required =>
    if outLen < required then .error .bufTooSmall else multistreamSelectLsEncodeLoop ids outLen

/-! ## Frames -/

/-- The frame of a payload. -/
def multistreamFrame (payload : Bytes) : Bytes :=
  uvarintEncodeLoop 9 (payload.length + 1) ++ payload ++ [multistreamSelectNewline]

theorem multistreamFrame_length (payload : Bytes) :
    (multistreamFrame payload).length =
      uvarintSize (payload.length + 1) + payload.length + 1 := by
  unfold multistreamFrame
  rw [List.length_append, List.length_append, uvarintEncodeLoop_length]
  rfl

theorem multistreamFrame_ne_nil (payload : Bytes) : multistreamFrame payload ≠ [] := by
  intro h
  have hlen := multistreamFrame_length payload
  rw [h] at hlen
  simp only [List.length_nil] at hlen
  omega

/-- A length below 2^14 takes at most two bytes. -/
theorem uvarintSize_le_two {value : Nat} (h : value < 128 * 128) : uvarintSize value ≤ 2 := by
  unfold uvarintSize uvarintMeasureLoop
  split
  · unfold uvarintMeasureLoop
    rw [shiftRight_7, if_neg (by omega)]
  · omega

/-- The frame of every payload that is not too long is encoded. -/
theorem multistreamSelectMessageEncode_eq {payload : Bytes} {outLen : Nat}
    (hlen : payload.length ≤ multistreamSelectMaxPayloadBytes)
    (hout : multistreamSelectMaxEncodedMessageBytes ≤ outLen) :
    multistreamSelectMessageEncode payload outLen = .ok (multistreamFrame payload) := by
  have hmax : multistreamSelectMaxPayloadBytes = 1023 := rfl
  have hframe : multistreamSelectMaxEncodedMessageBytes = 1026 := rfl
  have hsize := @uvarintSize_le_two (payload.length + 1) (by omega)
  have hprefix : uvarintEncode (payload.length + 1) outLen =
      .ok (uvarintEncodeLoop 9 (payload.length + 1)) :=
    uvarintEncode_ok (by omega) (by omega)
  unfold multistreamSelectMessageEncode multistreamSelectMessageSize
  rw [if_neg (by omega)]
  dsimp only
  rw [if_neg (by omega), hprefix]
  rfl

/-- A frame is read back, whatever follows it. -/
theorem multistreamSelectMessageDecode_frame {payload : Bytes} {outLen : Nat}
    (hlen : payload.length ≤ multistreamSelectMaxPayloadBytes) (hout : payload.length ≤ outLen)
    (rest : Bytes) :
    multistreamSelectMessageDecode (multistreamFrame payload ++ rest) outLen =
      .ok (payload, (multistreamFrame payload).length) := by
  have hmax : multistreamSelectMaxPayloadBytes = 1023 := rfl
  have hmessage : multistreamSelectMaxMessageBytes = 1024 := rfl
  have hsize := @uvarintSize_le_two (payload.length + 1) (by omega)
  have hflen := multistreamFrame_length payload
  have hprefix : uvarintEncode (payload.length + 1) 10 =
      .ok (uvarintEncodeLoop 9 (payload.length + 1)) :=
    uvarintEncode_ok (by omega) (by omega)
  have hdecode : uvarintDecode (multistreamFrame payload ++ rest) =
      .ok (payload.length + 1, uvarintSize (payload.length + 1)) := by
    have h := uvarintDecode_encode hprefix (payload ++ [multistreamSelectNewline] ++ rest)
    rw [uvarintEncodeLoop_length] at h
    unfold multistreamFrame
    rw [List.append_assoc, List.append_assoc]
    rwa [List.append_assoc] at h
  have hlast : (multistreamFrame payload ++ rest).getD
      (uvarintSize (payload.length + 1) + (payload.length + 1) - 1) 0 =
      multistreamSelectNewline := by
    unfold multistreamFrame
    rw [List.getD_eq_getElem?_getD, List.append_assoc, List.getElem?_append_right]
    · rw [List.length_append, uvarintEncodeLoop_length]
      have hzero : uvarintSize (payload.length + 1) + (payload.length + 1) - 1 -
          (uvarintMeasureLoop 9 (payload.length + 1) + payload.length) = 0 := by
        unfold uvarintSize
        omega
      rw [hzero]
      rfl
    · rw [List.length_append, uvarintEncodeLoop_length]
      unfold uvarintSize
      omega
  have hpayload : ((multistreamFrame payload ++ rest).drop
      (uvarintSize (payload.length + 1))).take payload.length = payload := by
    have hhead : (uvarintEncodeLoop 9 (payload.length + 1)).length =
        uvarintSize (payload.length + 1) := uvarintEncodeLoop_length 9 _
    unfold multistreamFrame
    rw [List.append_assoc, List.append_assoc, ← hhead, List.drop_left]
    exact List.take_left
  unfold multistreamSelectMessageDecode multistreamSelectMessageMetadata
  rw [hdecode]
  dsimp only
  rw [if_neg (by omega), if_neg (by omega), if_neg, if_neg]
  · dsimp only
    rw [if_neg (by omega), Nat.add_sub_cancel, hpayload, hflen]
    rfl
  · exact not_not_intro hlast
  · rw [List.length_append]
    omega

/-- A message that is read lies within the input. -/
theorem multistreamSelectMessageMetadata_le {input : Bytes} {offset payloadLen frameLen : Nat}
    (h : multistreamSelectMessageMetadata input = .ok (offset, payloadLen, frameLen)) :
    offset + payloadLen + 1 = frameLen ∧ frameLen ≤ input.length ∧
      payloadLen ≤ multistreamSelectMaxPayloadBytes := by
  have hmax : multistreamSelectMaxPayloadBytes = multistreamSelectMaxMessageBytes - 1 := rfl
  unfold multistreamSelectMessageMetadata at h
  split at h
  · cases h
  · cases h
  · split at h
    · cases h
    split at h
    · cases h
    dsimp only at h
    split at h
    · cases h
    split at h
    · cases h
    · cases h
      omega

/-- The decoder with room for every payload. -/
theorem multistreamSelectMessageDecode_eq (input : Bytes) :
    multistreamSelectMessageDecode input multistreamSelectMaxPayloadBytes =
      match multistreamSelectMessageMetadata input with
      | .error e => .error e
      | .ok (offset, payloadLen, frameLen) => .ok ((input.drop offset).take payloadLen, frameLen) := by
  unfold multistreamSelectMessageDecode
  rcases hres : multistreamSelectMessageMetadata input with e | ⟨offset, payloadLen, frameLen⟩
  · rfl
  · have hle := multistreamSelectMessageMetadata_le hres
    dsimp only
    rw [if_neg (by omega)]

end LeanLibp2p

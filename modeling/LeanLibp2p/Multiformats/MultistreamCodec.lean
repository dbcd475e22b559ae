import LeanLibp2p.Lib.Source
import LeanLibp2p.Multiformats.MultistreamSelectOne
import LeanLibp2p.Multiformats.VarintCode

/-!
# Reader, decoder and encoder of multistream messages

`libp2p_multistream_select_read_message` takes a message from a stream in any pieces, and agrees with
`libp2p_multistream_select_message_decode` on the bytes of the stream. The payload of an `ls` response
is a sequence of messages, and each of them is visited.
-/

namespace LeanLibp2p

open LeanLibp2p.Lib

variable {ids : List Bytes}

/-! ## The `ls` response -/

/-- The loop of `libp2p_multistream_select_ls_response_payload_decode` over the bytes that are left,
    a round for each message; `visit` is the callback on its user data. -/
def multistreamSelectLsDecodeLoop {σ : Type} (visit : σ → Bytes → Except MultistreamSelectErr σ) :
    (fuel : Nat) → Bytes → σ → (count : Nat) → Except MultistreamSelectErr (σ × Nat)
  | 0, _, userData, count => .ok (userData, count)
  | fuel + 1, payload, userData, count =>
    if payload = [] then .ok (userData, count)
    else
      match multistreamSelectMessageMetadata payload with
      | .error e => .error e
      | .ok (payloadOffset, protocolLen, frameLen) =>
        match visit userData ((payload.drop payloadOffset).take protocolLen) with
        | .error e => .error e
        | .ok userData =>
          multistreamSelectLsDecodeLoop visit fuel (payload.drop frameLen) userData (count + 1)

/-- `libp2p_multistream_select_ls_response_payload_decode` (`multistream_select.c:696-756`): the user
    data after the visits, and `*protocol_count`. -/
def multistreamSelectLsResponsePayloadDecode {σ : Type}
    (visit : σ → Bytes → Except MultistreamSelectErr σ) (payload : Bytes) (userData : σ) :
    Except MultistreamSelectErr (σ × Nat) :=
  if multistreamSelectMaxPayloadBytes < payload.length then .error .messageTooLarge
  else multistreamSelectLsDecodeLoop visit payload.length payload userData 0

namespace MultistreamSelect

/-! ## Encoding -/

theorem messageSize_frame {payload : Bytes}
    (h : payload.length ≤ multistreamSelectMaxPayloadBytes) :
    multistreamSelectMessageSize payload.length = .ok (multistreamFrame payload).length := by
  rw [multistreamSelectMessageSize, if_neg (by omega), multistreamFrame_length]

/-- A message is encoded into every buffer that it fits. -/
theorem messageEncode_frame {payload : Bytes} {outLen : Nat}
    (hlen : payload.length ≤ multistreamSelectMaxPayloadBytes)
    (hout : (multistreamFrame payload).length ≤ outLen) :
    multistreamSelectMessageEncode payload outLen = .ok (multistreamFrame payload) := by
  have hmax : multistreamSelectMaxPayloadBytes = 1023 := rfl
  have hflen := multistreamFrame_length payload
  have hlength : uvarintEncode (payload.length + 1) outLen =
      .ok (uvarintEncodeLoop 9 (payload.length + 1)) :=
    uvarintEncode_ok (by omega) (by omega)
  rw [multistreamSelectMessageEncode, messageSize_frame hlen]
  dsimp only
  rw [if_neg (by omega), hlength]
  rfl

/-! ## Reading -/

/-- The error that a read function ends with. -/
def Ends (s : Source MultistreamSelectErr) (e : MultistreamSelectErr) : Prop :=
  e = .io ∨ ∃ call, s.ending call = some e

section

variable {s : Source MultistreamSelectErr}

/-- A read of some bytes gets them in any pieces, and fails only at the end. -/
theorem readExactLoop_run {fuel remaining : Nat} {got data : Bytes} (call : Nat)
    (hfuel : remaining ≤ fuel) :
    (remaining ≤ data.length → ∃ calls,
      s.run (multistreamSelectReadExactLoop fuel remaining got) call data =
        some (.ok (got ++ data.take remaining), calls, data.drop remaining)) ∧
    (data.length < remaining → ∃ e calls left, Ends s e ∧
      s.run (multistreamSelectReadExactLoop fuel remaining got) call data =
        some (.error e, calls, left)) := by
  induction fuel generalizing remaining got data call with
  | zero =>
    obtain rfl := Nat.le_zero.mp hfuel
    exact ⟨fun _ => ⟨call, by simp [multistreamSelectReadExactLoop, Source.run]⟩,
      fun h => absurd h (Nat.not_lt_zero _)⟩
  | succ fuel ih =>
    unfold multistreamSelectReadExactLoop
    by_cases hzero : remaining = 0
    · subst hzero
      exact ⟨fun _ => ⟨call, by simp [Source.run]⟩, fun h => absurd h (Nat.not_lt_zero _)⟩
    rw [if_neg hzero, Source.run]
    by_cases hempty : data = []
    · subst hempty
      refine ⟨fun h => absurd (Nat.le_zero.mp h) hzero, fun _ => ?_⟩
      rw [Source.answer, if_pos rfl]
      cases hending : s.ending call with
      | none => exact ⟨.io, call + 1, [], .inl rfl, by simp [Source.run]⟩
      | some e => exact ⟨e, call + 1, _, .inr ⟨call, hending⟩, rfl⟩
    · have hdata := List.length_pos_of_ne_nil hempty
      have hpos := @s.pos call remaining data.length (by omega) hdata
      have hlen := @s.le_len call remaining data.length
      have hleft := @s.le_left call remaining data.length
      rw [Source.answer, if_neg hempty]
      generalize s.size call remaining data.length = size at hpos hlen hleft ⊢
      have htake : (data.take size).length = size := by
        rw [List.length_take]
        omega
      dsimp only
      rw [htake, if_neg (by omega)]
      obtain ⟨henough, hshort⟩ := @ih (remaining - size) (got ++ data.take size) (data.drop size)
        (call + 1) (by omega)
      rw [List.length_drop] at henough hshort
      refine ⟨fun h => ?_, fun h => hshort (by omega)⟩
      obtain ⟨calls, hrun⟩ := henough (by omega)
      refine ⟨calls, ?_⟩
      rw [hrun, List.append_assoc, List.drop_drop, ← List.take_add]
      have hsum : size + (remaining - size) = remaining := by omega
      rw [hsum]

/-- The length of the message is read a byte at a time, as the decoder reads it. -/
theorem readPrefixLoop_run {fuel : Nat} {got data : Bytes} (call : Nat)
    (hfuel : got.length + fuel = uvarintMaxBytes) (hgot : ∀ byte ∈ got, Continued byte) :
    (∀ value read, uvarintDecode (got ++ data) = .ok (value, read) → ∃ calls,
      s.run (multistreamSelectReadPrefixLoop fuel got) call data =
        some (.ok value, calls, data.drop (read - got.length))) ∧
    (uvarintDecode (got ++ data) = .error .truncated → ∃ e calls left, Ends s e ∧
      s.run (multistreamSelectReadPrefixLoop fuel got) call data = some (.error e, calls, left)) ∧
    (∀ e, uvarintDecode (got ++ data) = .error e → e ≠ .truncated → ∃ calls left,
      s.run (multistreamSelectReadPrefixLoop fuel got) call data =
        some (.error .malformedVarint, calls, left)) := by
  have hmax : uvarintMaxBytes = 9 := rfl
  induction fuel generalizing got data call with
  | zero =>
    have hover := uvarintDecode_run_overflow data hgot (by omega)
    rw [hover]
    exact ⟨fun _ _ h => (by cases h), fun h => (by cases h), fun _ _ _ => ⟨call, data, rfl⟩⟩
  | succ fuel ih =>
    unfold multistreamSelectReadPrefixLoop
    obtain ⟨henough, hshort⟩ := @readExactLoop_run s 1 1 [] data call le_rfl
    cases data with
    | nil =>
      rw [List.append_nil, uvarintDecode_run hgot (by omega)]
      refine ⟨fun _ _ h => (by cases h), fun _ => ?_, fun e h hne => ?_⟩
      · obtain ⟨e, calls, left, hends, hrun⟩ := hshort (by simp)
        exact ⟨e, calls, left, hends, Source.run_bind_error hrun⟩
      · cases h
        exact absurd rfl hne
    | cons byte rest =>
      obtain ⟨calls, hread⟩ := henough (by simp)
      have hbind : ∀ f : Bytes → SelectProc Nat,
          s.run (multistreamSelectReadExact 1 >>= f) call (byte :: rest) =
            s.run (f [byte]) calls rest := fun f => Source.run_bind_ok hread
      rw [hbind]
      have hsplit : got ++ byte :: rest = (got ++ [byte]) ++ rest := by simp
      by_cases hbyte : Continued byte
      · have hall : ∀ b ∈ got ++ [byte], Continued b := by
          intro b hb
          rcases List.mem_append.mp hb with hb | hb
          · exact hgot b hb
          · rwa [List.mem_singleton.mp hb]
        have hlen : (got ++ [byte]).length = got.length + 1 := by simp
        by_cases hroom : got.length + 1 ≤ 8
        · rw [uvarintDecode_run hall (by omega), hsplit]
          obtain ⟨hok, htruncated, hother⟩ := @ih (got ++ [byte]) rest calls (by omega) hall
          refine ⟨fun value read h => ?_, htruncated, hother⟩
          obtain ⟨calls', hrun⟩ := hok value read h
          obtain ⟨decoded, hloop⟩ := uvarintDecode_continued rest hall (by omega)
          have hbounds := uvarintDecodeLoop_bounds _ _ _ _ _ _ (hloop.symm.trans h)
          have hdrop : read - got.length = (read - (got ++ [byte]).length) + 1 := by omega
          refine ⟨calls', ?_⟩
          rw [hdrop, List.drop_succ_cons]
          exact hrun
        · have hover := uvarintDecode_run_overflow rest hall (by omega)
          have hover' := uvarintDecode_run_overflow [] hall (by omega)
          rw [List.append_nil] at hover'
          rw [hsplit, hover, hover']
          exact ⟨fun _ _ h => (by cases h), fun h => (by cases h),
            fun _ _ _ => ⟨calls, rest, rfl⟩⟩
      · obtain ⟨value, hvalue⟩ := uvarintDecode_terminated [] hgot (by omega) hbyte
        have happend := @uvarintDecode_append (got ++ [byte]) rest (by
          rw [hvalue]
          split <;> simp)
        rw [hsplit, happend, hvalue]
        split
        · exact ⟨fun _ _ h => (by cases h), fun h => (by cases h),
            fun _ _ _ => ⟨calls, rest, rfl⟩⟩
        · refine ⟨fun value' read h => ?_, fun h => (by cases h), fun _ h => (by cases h)⟩
          cases h
          refine ⟨calls, ?_⟩
          rw [Nat.add_sub_cancel_left]
          rfl

end

/-- The reader on a stream and the decoder on its bytes. -/
theorem readMessage_run (s : Source MultistreamSelectErr) (data : Bytes) (outLen call : Nat) :
    (∀ payload frameLen, multistreamSelectMessageDecode data outLen = .ok (payload, frameLen) →
      ∃ calls, s.run (multistreamSelectReadMessage outLen) call data =
        some (.ok payload, calls, data.drop frameLen)) ∧
    (multistreamSelectMessageDecode data outLen = .error .truncated → ∃ e calls left, Ends s e ∧
      s.run (multistreamSelectReadMessage outLen) call data = some (.error e, calls, left)) ∧
    (∀ e, multistreamSelectMessageDecode data outLen = .error e → e ≠ .truncated →
      ∃ calls left, s.run (multistreamSelectReadMessage outLen) call data =
        some (.error e, calls, left)) := by
  obtain ⟨hok, htruncated, hother⟩ := @readPrefixLoop_run s uvarintMaxBytes [] data call rfl
    fun _ hb => by cases hb
  rw [List.nil_append] at hok htruncated hother
  unfold multistreamSelectMessageDecode multistreamSelectMessageMetadata
  rcases hdecode : uvarintDecode data with e | ⟨messageLen, lengthBytes⟩
  · by_cases he : e = .truncated
    · subst he
      refine ⟨fun _ _ h => (by cases h), fun _ => ?_, fun e h hne => ?_⟩
      · obtain ⟨e, calls, left, hends, hrun⟩ := htruncated hdecode
        exact ⟨e, calls, left, hends, Source.run_bind_error hrun⟩
      · cases h
        exact absurd rfl hne
    · obtain ⟨calls, left, hrun⟩ := hother e hdecode he
      have hall : s.run (multistreamSelectReadMessage outLen) call data =
          some (.error .malformedVarint, calls, left) := Source.run_bind_error hrun
      rw [hall]
      cases e
      · exact ⟨fun _ _ h => (by cases h), fun h => (by cases h),
          fun e h _ => by cases h; exact ⟨calls, left, rfl⟩⟩
      · exact absurd rfl he
      · exact ⟨fun _ _ h => (by cases h), fun h => (by cases h),
          fun e h _ => by cases h; exact ⟨calls, left, rfl⟩⟩
      · exact ⟨fun _ _ h => (by cases h), fun h => (by cases h),
          fun e h _ => by cases h; exact ⟨calls, left, rfl⟩⟩
  · obtain ⟨calls, hrun⟩ := hok messageLen lengthBytes hdecode
    rw [List.length_nil, Nat.sub_zero] at hrun
    have hbounds := uvarintDecode_bounds hdecode
    unfold multistreamSelectReadMessage
    rw [Source.run_bind_ok hrun]
    dsimp only
    by_cases hlarge : multistreamSelectMaxMessageBytes < messageLen
    · rw [if_pos hlarge, if_pos hlarge]
      exact ⟨fun _ _ h => (by cases h), fun h => (by cases h),
        fun e h _ => by cases h; exact ⟨calls, _, rfl⟩⟩
    rw [if_neg hlarge, if_neg hlarge]
    by_cases hzero : messageLen = 0
    · rw [if_pos hzero, if_pos hzero]
      exact ⟨fun _ _ h => (by cases h), fun h => (by cases h),
        fun e h _ => by cases h; exact ⟨calls, _, rfl⟩⟩
    rw [if_neg hzero, if_neg hzero]
    obtain ⟨henough, hshort⟩ := @readExactLoop_run s messageLen messageLen []
      (data.drop lengthBytes) calls le_rfl
    rw [List.length_drop] at henough hshort
    by_cases hlen : data.length < lengthBytes + messageLen
    · rw [if_pos hlen]
      refine ⟨fun _ _ h => (by cases h), fun _ => ?_, fun e h hne => ?_⟩
      · obtain ⟨e, calls', left, hends, hread⟩ := hshort (by omega)
        exact ⟨e, calls', left, hends, Source.run_bind_error hread⟩
      · cases h
        exact absurd rfl hne
    rw [if_neg hlen]
    obtain ⟨calls', hread⟩ := henough (by omega)
    rw [List.nil_append, List.drop_drop] at hread
    have hlast : ((data.drop lengthBytes).take messageLen).getD (messageLen - 1) 0 =
        data.getD (lengthBytes + messageLen - 1) 0 := by
      rw [List.getD_eq_getElem?_getD, List.getD_eq_getElem?_getD, List.getElem?_take_of_lt (by omega),
        List.getElem?_drop]
      congr 2
      omega
    have hpayload : ((data.drop lengthBytes).take messageLen).take (messageLen - 1) =
        (data.drop lengthBytes).take (messageLen - 1) := by
      rw [List.take_take, Nat.min_eq_left (by omega)]
    rw [show s.run (multistreamSelectReadExact messageLen >>= _) calls (data.drop lengthBytes) = _
      from Source.run_bind_ok hread, hlast, hpayload]
    by_cases hnewline : data.getD (lengthBytes + messageLen - 1) 0 ≠ multistreamSelectNewline
    · rw [if_pos hnewline, if_pos hnewline]
      exact ⟨fun _ _ h => (by cases h), fun h => (by cases h),
        fun e h _ => by cases h; exact ⟨calls', _, rfl⟩⟩
    rw [if_neg hnewline, if_neg hnewline]
    dsimp only
    by_cases hroom : outLen < messageLen - 1
    · rw [if_pos hroom, if_pos hroom]
      exact ⟨fun _ _ h => (by cases h), fun h => (by cases h),
        fun e h _ => by cases h; exact ⟨calls', _, rfl⟩⟩
    · rw [if_neg hroom, if_neg hroom]
      refine ⟨fun _ _ h => ?_, fun h => (by cases h), fun _ h => (by cases h)⟩
      cases h
      exact ⟨calls', rfl⟩

/-! ## The visits of an `ls` response -/

theorem lsSizeLoop_ok {required total : Nat}
    (hrequired : required ≤ multistreamSelectMaxPayloadBytes)
    (h : multistreamSelectLsSizeLoop ids required = .ok total) :
    total = required + (ids.flatMap multistreamFrame).length ∧
      total ≤ multistreamSelectMaxPayloadBytes ∧
      ∀ id ∈ ids, id.length ≤ multistreamSelectMaxPayloadBytes := by
  induction ids generalizing required with
  | nil =>
    cases h
    exact ⟨rfl, hrequired, fun _ hid => by cases hid⟩
  | cons id ids ih =>
    rw [multistreamSelectLsSizeLoop] at h
    by_cases hid : id.length ≤ multistreamSelectMaxPayloadBytes
    · rw [messageSize_frame hid] at h
      dsimp only at h
      split at h
      · cases h
      · obtain ⟨htotal, hmax, hids⟩ := ih (by omega) h
        refine ⟨?_, hmax, List.forall_mem_cons.mpr ⟨hid, hids⟩⟩
        rw [htotal, List.flatMap_cons, List.length_append, Nat.add_assoc]
    · rw [multistreamSelectMessageSize, if_pos (by omega)] at h
      cases h

theorem lsEncodeLoop_frames {room : Nat}
    (hids : ∀ id ∈ ids, id.length ≤ multistreamSelectMaxPayloadBytes)
    (hroom : (ids.flatMap multistreamFrame).length ≤ room) :
    multistreamSelectLsEncodeLoop ids room = .ok (ids.flatMap multistreamFrame) := by
  induction ids generalizing room with
  | nil => rfl
  | cons id ids ih =>
    rw [List.forall_mem_cons] at hids
    rw [List.flatMap_cons, List.length_append] at hroom
    rw [multistreamSelectLsEncodeLoop, messageEncode_frame hids.1 (by omega)]
    dsimp only
    rw [ih hids.2 (by omega)]
    rfl

/-- The metadata of a frame in front of anything. -/
theorem messageMetadata_frame {payload : Bytes}
    (hlen : payload.length ≤ multistreamSelectMaxPayloadBytes) (rest : Bytes) :
    ∃ offset, multistreamSelectMessageMetadata (multistreamFrame payload ++ rest) =
        .ok (offset, payload.length, (multistreamFrame payload).length) ∧
      ((multistreamFrame payload ++ rest).drop offset).take payload.length = payload := by
  have hdecode := multistreamSelectMessageDecode_frame hlen hlen rest
  rw [multistreamSelectMessageDecode_eq] at hdecode
  rcases hmeta : multistreamSelectMessageMetadata (multistreamFrame payload ++ rest) with
    e | ⟨offset, payloadLen, frameLen⟩
  · rw [hmeta] at hdecode
    cases hdecode
  · rw [hmeta] at hdecode
    obtain ⟨hpayload, hframe⟩ := Prod.mk.inj (Except.ok.inj hdecode)
    have hbounds := multistreamSelectMessageMetadata_le hmeta
    have hlength := congrArg List.length hpayload
    rw [List.length_take, List.length_drop] at hlength
    obtain rfl : payloadLen = payload.length := by omega
    exact ⟨offset, by rw [hframe], hpayload⟩

/-- Every message of a payload is visited, in order. -/
theorem lsDecodeLoop_frames {σ : Type} (visit : σ → Bytes → Except MultistreamSelectErr σ)
    {ids : List Bytes} (hids : ∀ id ∈ ids, id.length ≤ multistreamSelectMaxPayloadBytes)
    {fuel : Nat} (hfuel : (ids.flatMap multistreamFrame).length ≤ fuel) (userData : σ)
    (count : Nat) :
    multistreamSelectLsDecodeLoop visit fuel (ids.flatMap multistreamFrame) userData count =
      (ids.foldlM visit userData).map fun visited => (visited, count + ids.length) := by
  induction ids generalizing fuel userData count with
  | nil => cases fuel <;> rfl
  | cons id ids ih =>
    rw [List.forall_mem_cons] at hids
    rw [List.flatMap_cons, List.length_append] at hfuel
    have hpos := List.length_pos_of_ne_nil (multistreamFrame_ne_nil id)
    obtain ⟨fuel, rfl⟩ := Nat.exists_eq_succ_of_ne_zero (by omega : fuel ≠ 0)
    obtain ⟨offset, hmeta, hpayload⟩ :=
      messageMetadata_frame hids.1 (ids.flatMap multistreamFrame)
    rw [List.flatMap_cons, multistreamSelectLsDecodeLoop,
      if_neg (by simp [multistreamFrame_ne_nil]), hmeta]
    dsimp only
    rw [hpayload, List.foldlM_cons]
    cases visit userData id with
    | error e => rfl
    | ok userData =>
      dsimp only
      rw [List.drop_left, ih hids.2 (by omega), List.length_cons]
      have hcount : count + 1 + ids.length = count + (ids.length + 1) := by omega
      rw [hcount]
      rfl

theorem lsResponsePayloadSize_ok {required : Nat}
    (h : multistreamSelectLsResponsePayloadSize ids = .ok required) :
    (ids.flatMap multistreamFrame).length = required ∧
      required ≤ multistreamSelectMaxPayloadBytes ∧
      ∀ id ∈ ids, id.length ≤ multistreamSelectMaxPayloadBytes := by
  unfold multistreamSelectLsResponsePayloadSize at h
  split at h
  · cases h
  obtain ⟨htotal, hmax, hids⟩ := lsSizeLoop_ok (Nat.zero_le _) h
  exact ⟨by omega, hmax, hids⟩

/-- The `ls` payload of a list within the limits is encoded. -/
theorem lsPayloadEncode_frames {required outLen : Nat}
    (h : multistreamSelectLsResponsePayloadSize ids = .ok required) (hout : required ≤ outLen) :
    multistreamSelectLsResponsePayloadEncode ids outLen = .ok (ids.flatMap multistreamFrame) := by
  obtain ⟨hlen, _, hids⟩ := lsResponsePayloadSize_ok h
  rw [multistreamSelectLsResponsePayloadEncode, h]
  dsimp only
  rw [if_neg (by omega), lsEncodeLoop_frames hids (by omega)]

/-- The decoder visits the list. -/
theorem lsPayloadDecode_frames {σ : Type} (visit : σ → Bytes → Except MultistreamSelectErr σ)
    {ids : List Bytes} {required : Nat}
    (h : multistreamSelectLsResponsePayloadSize ids = .ok required) (userData : σ) :
    multistreamSelectLsResponsePayloadDecode visit (ids.flatMap multistreamFrame) userData =
      (ids.foldlM visit userData).map fun visited => (visited, ids.length) := by
  obtain ⟨hlen, hmax, hids⟩ := lsResponsePayloadSize_ok h
  rw [multistreamSelectLsResponsePayloadDecode, if_neg (by omega),
    lsDecodeLoop_frames visit hids le_rfl, Nat.zero_add]

theorem messageDecode_frameLen {input payload : Bytes} {outLen frameLen : Nat}
    (h : multistreamSelectMessageDecode input outLen = .ok (payload, frameLen)) :
    frameLen ≤ input.length := by
  unfold multistreamSelectMessageDecode at h
  split at h
  · cases h
  · rename_i hmeta
    split at h <;> cases h
    exact (multistreamSelectMessageMetadata_le hmeta).2.1

/-! ## Agreement -/

/-- Encoder, decoder and reader of messages agree, on every payload, every sequence of bytes in any
    pieces and every list of protocols. -/
theorem multistreamSelect_agree :
    (∀ payload : Bytes, payload.length ≤ multistreamSelectMaxPayloadBytes →
      ∃ frame, (∀ bufLen, frame.length ≤ bufLen →
          multistreamSelectMessageEncode payload bufLen = .ok frame) ∧
        ∀ rest outLen, payload.length ≤ outLen →
          multistreamSelectMessageDecode (frame ++ rest) outLen = .ok (payload, frame.length)) ∧
    (∀ (s : Source MultistreamSelectErr) (data : Bytes) (outLen : Nat),
      (∀ payload left, (∃ calls, s.run (multistreamSelectReadMessage outLen) 0 data =
          some (.ok payload, calls, left)) ↔
        ∃ frameLen, multistreamSelectMessageDecode data outLen = .ok (payload, frameLen) ∧
          frameLen ≤ data.length ∧ left = data.drop frameLen) ∧
      (∀ e, multistreamSelectMessageDecode data outLen = .error e → e ≠ .truncated →
        ∃ calls left, s.run (multistreamSelectReadMessage outLen) 0 data =
          some (.error e, calls, left)) ∧
      (multistreamSelectMessageDecode data outLen = .error .truncated →
        ∃ e calls left, Ends s e ∧ s.run (multistreamSelectReadMessage outLen) 0 data =
          some (.error e, calls, left))) ∧
    ∀ (ids : List Bytes) (required outLen : Nat),
      multistreamSelectLsResponsePayloadSize ids = .ok required → required ≤ outLen →
      ∃ payload, multistreamSelectLsResponsePayloadEncode ids outLen = .ok payload ∧
        payload.length = required ∧
        ∀ {σ : Type} (visit : σ → Bytes → Except MultistreamSelectErr σ) (userData : σ),
          multistreamSelectLsResponsePayloadDecode visit payload userData =
            (ids.foldlM visit userData).map fun visited => (visited, ids.length) := by
  refine ⟨fun payload hlen => ⟨multistreamFrame payload, fun bufLen hbuf =>
    messageEncode_frame hlen hbuf, fun rest outLen hout =>
      multistreamSelectMessageDecode_frame hlen hout rest⟩, fun s data outLen => ?_,
    fun ids required outLen h hout => ?_⟩
  · obtain ⟨hok, htruncated, hother⟩ := readMessage_run s data outLen 0
    refine ⟨fun payload left => ⟨fun hread => ?_, fun hdecode => ?_⟩, hother, htruncated⟩
    · obtain ⟨calls, hread⟩ := hread
      rcases hdecode : multistreamSelectMessageDecode data outLen with e | ⟨payload', frameLen⟩
      · by_cases he : e = .truncated
        · obtain ⟨_, _, _, _, hrun⟩ := htruncated (by rw [hdecode, he])
          rw [hrun] at hread
          cases hread
        · obtain ⟨_, _, hrun⟩ := hother e hdecode he
          rw [hrun] at hread
          cases hread
      · obtain ⟨_, hrun⟩ := hok payload' frameLen hdecode
        rw [hrun] at hread
        cases hread
        exact ⟨frameLen, rfl, messageDecode_frameLen hdecode, rfl⟩
    · obtain ⟨frameLen, hdecode, _, rfl⟩ := hdecode
      exact hok payload frameLen hdecode
  · exact ⟨ids.flatMap multistreamFrame, lsPayloadEncode_frames h hout,
      (lsResponsePayloadSize_ok h).1, fun visit userData => lsPayloadDecode_frames visit h userData⟩

end MultistreamSelect

end LeanLibp2p

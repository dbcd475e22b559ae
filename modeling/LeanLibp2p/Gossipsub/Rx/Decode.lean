import LeanLibp2p.Gossipsub.Rx.Operations
import LeanLibp2p.Gossipsub.Rx.Read

/-!
# Taking frames off a receive buffer

The frames of a stream are bodies of at most `max_rpc_bytes` behind their length. The receive buffer
holds what is behind the frames that were handed over, and `gossipsub_stream_decode_available` hands
over all that are complete.
-/

namespace LeanLibp2p.Gossipsub

open LeanLibp2p.Lib

variable {config : Config}

/-- The front of a stream: the length of an RPC body, of at most `maxRpcBytes`. -/
def rpcHead (maxRpcBytes : Nat) (input : Bytes) : FrameHead GossipsubErr :=
  match uvarintDecode input with
  | .error .truncated => .more
  | .error e => .bad (uvarintErr e)
  | .ok (bodyLen, headerLen) =>
    if maxRpcBytes < bodyLen then .bad .limit else .header headerLen bodyLen

/-- The frames of a gossipsub stream. -/
def rpcFrames (config : Config) : FrameFormat UInt8 GossipsubErr where
  head := rpcHead config.limits.maxRpcBytes
  head_append := by
    intro input more h
    have hdecode : uvarintDecode input ≠ .error .truncated := by
      intro hmore
      apply h
      rw [rpcHead, hmore]
    unfold rpcHead
    rw [uvarintDecode_append more hdecode]
  head_bounds := by
    intro input headerLen bodyLen h
    unfold rpcHead at h
    split at h
    · cases h
    · cases h
    · rename_i hdecode
      split at h
      · cases h
      · cases h
        exact uvarintDecode_bounds hdecode

/-- A body as it stands in a stream. -/
def rpcFrame (body : Bytes) : Bytes := uvarintEncodeLoop 9 body.length ++ body

/-- A body of at most `max_rpc_bytes` is read back from behind its length. -/
theorem rpcFrames_next_rpcFrame {body : Bytes} (hmax : body.length ≤ config.limits.maxRpcBytes)
    (hlen : body.length < 2 ^ 63) (rest : Bytes) :
    (rpcFrames config).next (rpcFrame body ++ rest) = .frame body rest := by
  have hdecode := uvarintDecode_encode (uvarintEncode_ok hlen (Nat.le_refl _)) (body ++ rest)
  have hhead : (rpcFrames config).head (rpcFrame body ++ rest) =
      .header (uvarintEncodeLoop 9 body.length).length body.length := by
    show rpcHead _ _ = _
    unfold rpcHead rpcFrame
    rw [List.append_assoc, hdecode]
    exact if_neg (by omega)
  unfold FrameFormat.next
  rw [hhead]
  dsimp only
  rw [if_neg (by simp [rpcFrame])]
  unfold rpcFrame
  rw [List.append_assoc, List.drop_left, List.take_left, ← List.drop_drop, List.drop_left,
    List.drop_left]

/-- A stream of well-formed frames is parsed into their bodies. -/
theorem rpcFrames_parse_flatMap {bodies : List Bytes}
    (h : ∀ body ∈ bodies, body.length ≤ config.limits.maxRpcBytes ∧ body.length < 2 ^ 63) :
    (rpcFrames config).parse (bodies.flatMap rpcFrame) = (bodies, .incomplete []) := by
  have hframes := FrameFormat.frames_flatMap (F := rpcFrames config)
    (fun body hbody => rpcFrames_next_rpcFrame (h body hbody).1 (h body hbody).2) []
  rw [List.append_nil] at hframes
  rw [hframes.parse, FrameFormat.parse_incomplete rfl, List.append_nil]

/-! ## Operations of a receiver -/

/-- The streams whose bytes an operation has to keep. -/
def RxOp.Spares : RxOp → Nat → Prop
  | .reset i, j | .write i _, j | .advance i _, j | .consume i _, j => j ≠ i
  | .reserve _ _, _ | .shrink _, _ => True

/-- An operation that was safe: well-formed buffers stay so, and the streams that it spares keep
    what they hold. -/
structure RxTransition.Safe (config : Config) (t : RxTransition) : Prop where
  before : t.before.WellFormed config
  after : t.after.WellFormed config
  spares : ∀ j < config.capacity.maxStreams, t.op.Spares j →
    t.after.content config j = t.before.content config j

namespace Receiver

variable {s s' : Receiver} {i : Nat}

/-- The buffers are well-formed, now and in every state that they came through. -/
structure Sound (config : Config) (s : Receiver) : Prop where
  wellFormed : s.rx.WellFormed config
  transitions : ∀ t ∈ s.transitions, t.Safe config

/-- What a callback for one stream leaves alone: what the others hold, and what is known of
    them. -/
structure Aside (config : Config) (i : Nat) (s s' : Receiver) : Prop where
  content : Rx.KeepsOthers config i s.rx s'.rx
  log : ∀ j, j ≠ i → s'.log j = s.log j

theorem Aside.refl (i : Nat) (s : Receiver) : Aside config i s s := ⟨fun _ _ _ => rfl, fun _ _ => rfl⟩

theorem Aside.trans {s'' : Receiver} (h : Aside config i s s') (h' : Aside config i s' s'') :
    Aside config i s s'' :=
  ⟨fun j hj hji => (h'.content j hj hji).trans (h.content j hj hji),
    fun j hji => (h'.log j hji).trans (h.log j hji)⟩

theorem Aside.setLog (i : Nat) (f : StreamLog → StreamLog) (s : Receiver) :
    Aside config i s (s.setLog i f) :=
  ⟨fun _ _ _ => rfl, fun _ hji => Function.update_of_ne hji ..⟩

theorem Sound.setLog (h : s.Sound config) (i : Nat) (f : StreamLog → StreamLog) :
    (s.setLog i f).Sound config := ⟨h.wellFormed, h.transitions⟩

/-- An operation that was safe is one more safe state in the record. -/
theorem Sound.pool (h : s.Sound config) {op : RxOp} {rx : Rx}
    (hafter : rx.WellFormed config)
    (hspares : ∀ j < config.capacity.maxStreams, op.Spares j →
      rx.content config j = s.rx.content config j) :
    (s.moveRx op rx).Sound config := by
  refine ⟨hafter, ?_⟩
  intro t ht
  rcases List.mem_append.mp ht with ht | ht
  · exact h.transitions t ht
  · rw [List.mem_singleton.mp ht]
    exact ⟨h.wellFormed, hafter, hspares⟩

/-- The router is where the bodies that were handed over since `s₀` took it. -/
def Routed (config : Config) (i : Nat) (s₀ s : Receiver) : Prop :=
  ∃ bodies, (s.log i).handed = (s₀.log i).handed ++ bodies ∧
    Comp.forOk (receive config i) bodies s₀.node.router = (.ok (), s.node.router)

theorem Routed.refl (i : Nat) (s : Receiver) : Routed config i s s :=
  ⟨[], (List.append_nil _).symm, rfl⟩

/-- The last body handed over since `s₀` is the one that the router refused. -/
def Refused (config : Config) (i : Nat) (s₀ s : Receiver) : Prop :=
  ∃ bodies body r, (s.log i).handed = (s₀.log i).handed ++ (bodies ++ [body]) ∧
    Comp.forOk (receive config i) bodies s₀.node.router = (.ok (), r) ∧
    ∃ e, (receive config i body r).1 = .error e

/-- What a callback for one stream keeps while it goes well: the buffer holds what is behind the
    frames that were handed over. -/
structure Progress (config : Config) (i : Nat) (s₀ s : Receiver) : Prop where
  sound : s.Sound config
  aside : Aside config i s₀ s
  error : (s.log i).error = none
  refused : (s.log i).refused = false
  frames : (rpcFrames config).Frames (s.log i).received (s.log i).handed (s.rx.content config i)
  routed : Routed config i s₀ s

end Receiver

/-- Why the callbacks of a stream ended with an error: a malformed or oversized length, a body that
    the router refused, or a read that failed with an error that `U` allows. `pending` is what the
    buffer holds. -/
inductive StreamLog.Halts (config : Config) (i : Nat) (U : GossipsubErr → Prop) (log : StreamLog)
    (pending : Bytes) : GossipsubErr → Prop
  | malformed {e : GossipsubErr} : log.refused = false →
      (rpcFrames config).Frames log.received log.handed pending →
      (rpcFrames config).next pending = .bad e → Halts config i U log pending e
  | refused {e : GossipsubErr} {bodies : List Bytes} {body rest : Bytes} (r : Router) :
      log.refused = true → log.handed = bodies ++ [body] →
      (rpcFrames config).Frames log.received bodies pending →
      (rpcFrames config).next pending = .frame body rest →
      (receive config i body r).1 = .error e → Halts config i U log pending e
  | unreadable {e : GossipsubErr} : log.refused = false →
      (rpcFrames config).Frames log.received log.handed pending →
      (rpcFrames config).next pending = .incomplete → U e → Halts config i U log pending e

namespace Receiver

variable {s s' s₀ : Receiver} {i : Nat} {U : GossipsubErr → Prop}

/-- What a callback for one stream leaves when it fails. -/
structure Failed (config : Config) (i : Nat) (U : GossipsubErr → Prop) (s₀ s : Receiver)
    (e : GossipsubErr) : Prop where
  sound : s.Sound config
  aside : Aside config i s₀ s
  error : (s.log i).error = none
  halts : (s.log i).Halts config i U (s.rx.content config i) e
  refusal : (s.log i).refused = true → Refused config i s₀ s

/-- A failure that is none of the router's. -/
theorem Progress.failed (h : Progress config i s₀ s) {e : GossipsubErr}
    (hhalts : (s.log i).Halts config i U (s.rx.content config i) e) : Failed config i U s₀ s e := by
  refine ⟨h.sound, h.aside, h.error, hhalts, fun hrefused => ?_⟩
  rw [h.refused] at hrefused
  cases hrefused

/-! ## Decoding -/

/-- What one round of the loop does, by the first frame of what the stream holds. -/
theorem decodeLoop_cases (config : Config) (i fuel : Nat) (s : Receiver) :
    ((rpcFrames config).next (s.rx.content config i) = .incomplete ∧
      decodeLoop config i (fuel + 1) s = (.ok (), s)) ∨
    (∃ e, (rpcFrames config).next (s.rx.content config i) = .bad e ∧
      decodeLoop config i (fuel + 1) s = (.error e, s)) ∨
    ∃ body rest, (rpcFrames config).next (s.rx.content config i) = .frame body rest ∧
      decodeLoop config i (fuel + 1) s = (process config i body >>= fun _ =>
        pool config (.consume i ((s.rx.content config i).length - rest.length)) >>= fun _ =>
          decodeLoop config i fuel) s := by
  have hlen := @Rx.content_length config s.rx i
  rw [decodeLoop, Comp.read_id_bind, ← hlen]
  generalize s.rx.content config i = rx
  by_cases hrx : rx = []
  · subst hrx
    exact .inl ⟨rfl, rfl⟩
  rw [if_neg (by simpa using hrx)]
  unfold FrameFormat.next
  simp only [rpcFrames, rpcHead]
  cases hdecode : uvarintDecode rx with
  | error e =>
    cases e with
    | truncated => exact .inl ⟨rfl, rfl⟩
    | bufTooSmall => exact .inr (.inl ⟨_, rfl, rfl⟩)
    | nonMinimal => exact .inr (.inl ⟨_, rfl, rfl⟩)
    | overflow => exact .inr (.inl ⟨_, rfl, rfl⟩)
  | ok read =>
    rcases read with ⟨bodyLen, headerLen⟩
    have hbounds := uvarintDecode_bounds hdecode
    dsimp only
    by_cases hmax : config.limits.maxRpcBytes < bodyLen
    · rw [if_pos hmax, if_pos hmax]
      exact .inr (.inl ⟨_, rfl, rfl⟩)
    · rw [if_neg hmax, if_neg hmax]
      dsimp only
      by_cases hbody : rx.length - headerLen < bodyLen
      · rw [if_pos hbody, if_pos hbody]
        exact .inl ⟨rfl, rfl⟩
      · rw [if_neg hbody, if_neg hbody]
        refine .inr (.inr ⟨_, _, rfl, ?_⟩)
        rw [List.length_drop]
        have hpos : rx.length - (rx.length - (headerLen + bodyLen)) = headerLen + bodyLen := by
          omega
        rw [hpos]

/-- The receiver after a body went to the router, which left `r`. -/
def handedOver (i : Nat) (body : Bytes) (refused : Bool) (r : Router) (s : Receiver) : Receiver :=
  { s with node := { s.node with router := r } }.setLog i fun log =>
    { log with handed := log.handed ++ [body], refused := refused }

theorem process_error {body : Bytes} {e : GossipsubErr} {r : Router}
    (h : receive config i body s.node.router = (.error e, r)) :
    process config i body s = (.error e, handedOver i body true r s) := by
  unfold process
  rw [h]
  rfl

theorem process_ok {body : Bytes} {r : Router}
    (h : receive config i body s.node.router = (.ok (), r)) :
    process config i body s = (.ok (), handedOver i body false r s) := by
  unfold process
  rw [h]
  rfl

/-- A frame that the router accepted leaves the buffer. -/
theorem Progress.consume (hi : i < config.capacity.maxStreams) (h : Progress config i s₀ s)
    {body rest : Bytes} (hnext : (rpcFrames config).next (s.rx.content config i) = .frame body rest)
    {r : Router} (hreceive : receive config i body s.node.router = (.ok (), r)) :
    Progress config i s₀ (pool config
        (.consume i ((s.rx.content config i).length - rest.length)) (handedOver i body false r s)).2 ∧
      (pool config (.consume i ((s.rx.content config i).length - rest.length))
        (handedOver i body false r s)).2.rx.content config i = rest := by
  have hframes := h.frames.snoc hnext
  have hsuffix : rest <:+ s.rx.content config i :=
    FrameFormat.Frames.suffix (.cons hnext (.nil rest))
  rcases Rx.consume_spec h.sound.wellFormed hi ((s.rx.content config i).length - rest.length)
    with ⟨hwf, hcontent, hothers⟩
  rw [← List.suffix_iff_eq_drop.mp hsuffix] at hcontent
  have hlog : (handedOver i body false r s).log i =
      { s.log i with handed := (s.log i).handed ++ [body], refused := false } := setLog_self ..
  refine ⟨⟨?_, ?_, ?_, ?_, ?_, ?_⟩, hcontent⟩
  · exact Sound.pool (s := handedOver i body false r s) ⟨h.sound.wellFormed, h.sound.transitions⟩
      hwf hothers
  · exact h.aside.trans ⟨hothers, fun j hji => Function.update_of_ne hji ..⟩
  · exact (congrArg StreamLog.error hlog).trans h.error
  · exact congrArg StreamLog.refused hlog
  · show (rpcFrames config).Frames ((handedOver i body false r s).log i).received
      ((handedOver i body false r s).log i).handed
      ((rxConsume config i ((s.rx.content config i).length - rest.length) s.rx).content config i)
    rw [hlog, hcontent]
    exact hframes
  · obtain ⟨bodies, hhanded, hrun⟩ := h.routed
    refine ⟨bodies ++ [body], ?_, ?_⟩
    · show ((handedOver i body false r s).log i).handed = _
      rw [hlog, hhanded, List.append_assoc]
    · rw [Comp.forOk_append, Comp.bind_of_ok hrun, Comp.forOk_cons, Comp.bind_of_ok hreceive]
      rfl

/-- The loop hands over the frames that are complete, up to the first that fails. -/
theorem decodeLoop_spec (hi : i < config.capacity.maxStreams) (fuel : Nat)
    (h : Progress config i s₀ s) (hfuel : (s.rx.content config i).length ≤ fuel) :
    (∀ s', decodeLoop config i fuel s = (.ok (), s') → Progress config i s₀ s' ∧
      (rpcFrames config).next (s'.rx.content config i) = .incomplete) ∧
    ∀ e s', decodeLoop config i fuel s = (.error e, s') → Failed config i U s₀ s' e := by
  induction fuel generalizing s with
  | zero =>
    have hempty : s.rx.content config i = [] := List.length_eq_zero_iff.mp (by omega)
    refine ⟨?_, by rintro e s' ⟨⟩⟩
    rintro s' ⟨⟩
    refine ⟨h, ?_⟩
    rw [hempty]
    rfl
  | succ fuel ih =>
    rcases decodeLoop_cases config i fuel s with ⟨hnext, hrun⟩ | ⟨e, hnext, hrun⟩ |
      ⟨body, rest, hnext, hrun⟩
    · rw [hrun]
      refine ⟨?_, by rintro e s' ⟨⟩⟩
      rintro s' ⟨⟩
      exact ⟨h, hnext⟩
    · rw [hrun]
      refine ⟨by rintro s' ⟨⟩, ?_⟩
      rintro e s' ⟨⟩
      exact h.failed (.malformed h.refused h.frames hnext)
    · rw [hrun]
      have hrest := FrameFormat.length_rest_lt hnext
      rcases hreceive : receive config i body s.node.router with ⟨e | u, r⟩
      · rw [Comp.bind_of_error (process_error hreceive)]
        refine ⟨by rintro s' ⟨⟩, ?_⟩
        rintro e s' ⟨⟩
        have hlog : (handedOver i body true r s).log i =
            { s.log i with handed := (s.log i).handed ++ [body], refused := true } :=
          setLog_self ..
        refine ⟨⟨h.sound.wellFormed, h.sound.transitions⟩, ?_, ?_, ?_, fun _ => ?_⟩
        · exact h.aside.trans ⟨fun _ _ _ => rfl, fun j hji => Function.update_of_ne hji ..⟩
        · exact (congrArg StreamLog.error hlog).trans h.error
        · rw [hlog]
          exact .refused s.node.router rfl rfl h.frames hnext (congrArg Prod.fst hreceive)
        · obtain ⟨bodies, hhanded, hbodies⟩ := h.routed
          refine ⟨bodies, body, s.node.router, ?_, hbodies, e, congrArg Prod.fst hreceive⟩
          rw [hlog, hhanded, List.append_assoc]
      · rw [Comp.bind_of_ok (process_ok hreceive)]
        rcases h.consume hi hnext hreceive with ⟨hprogress, hcontent⟩
        have hle : ((pool config (.consume i ((s.rx.content config i).length - rest.length))
            (handedOver i body false r s)).2.rx.content config i).length ≤ fuel := by
          rw [hcontent]
          omega
        exact ih hprogress hle

/-- An operation that keeps what every stream holds. -/
theorem Progress.keeps (h : Progress config i s₀ s) {op : RxOp} {rx : Rx}
    (hwf : rx.WellFormed config) (hkeeps : Rx.Keeps config s.rx rx)
    (hi : i < config.capacity.maxStreams) :
    Progress config i s₀ (s.moveRx op rx) := by
  refine ⟨h.sound.pool hwf fun j hj _ => hkeeps j hj, ?_, h.error, h.refused, ?_, h.routed⟩
  · exact h.aside.trans ⟨hkeeps.others i, fun _ _ => rfl⟩
  · show (rpcFrames config).Frames (s.log i).received (s.log i).handed (rx.content config i)
    rw [hkeeps i hi]
    exact h.frames

/-- `gossipsub_stream_decode_available` hands over the frames that are complete. -/
theorem decodeAvailable_spec (hbuffer : streamRxBufferCap config < sizeMax)
    (hi : i < config.capacity.maxStreams) (h : Progress config i s₀ s) :
    (∀ s', decodeAvailable config i s = (.ok (), s') → Progress config i s₀ s' ∧
      (rpcFrames config).next (s'.rx.content config i) = .incomplete) ∧
    ∀ e s', decodeAvailable config i s = (.error e, s') → Failed config i U s₀ s' e := by
  have hloop := decodeLoop_spec (U := U) hi (s.rx.stream i).len h (by rw [Rx.content_length])
  unfold decodeAvailable
  rw [Comp.read_id_bind]
  rcases hrun : decodeLoop config i (s.rx.stream i).len s with ⟨e | u, s₁⟩
  · rw [Comp.bind_of_error hrun]
    refine ⟨by rintro s' ⟨⟩, ?_⟩
    rintro e s' ⟨⟩
    exact hloop.2 _ _ hrun
  · rw [Comp.bind_of_ok hrun]
    refine ⟨?_, by rintro e s' ⟨⟩⟩
    rintro s' ⟨⟩
    rcases hloop.1 _ hrun with ⟨hprogress, hnext⟩
    rcases Rx.shrink_spec hbuffer hprogress.sound.wellFormed i with ⟨hwf, hkeeps⟩
    refine ⟨hprogress.keeps hwf hkeeps hi, ?_⟩
    show (rpcFrames config).next ((rxShrink config i s₁.rx).content config i) = .incomplete
    rw [hkeeps i hi]
    exact hnext

end Receiver

end LeanLibp2p.Gossipsub

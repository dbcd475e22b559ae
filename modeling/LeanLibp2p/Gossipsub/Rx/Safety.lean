import LeanLibp2p.Gossipsub.Rx.Stream

/-!
# Runs of a receiver

Streams open and end, connections close, and READABLE callbacks bring bytes cut in any way, while
the router goes on with all else. As long as no round of a read adds `read_len` a second time, the
receive buffers never corrupt each other, and every stream hands over exactly the frames that it
received.
-/

namespace LeanLibp2p.Gossipsub

open LeanLibp2p.Lib

variable {config : Config} {i : Nat} {U : GossipsubErr → Prop}

/-- An action that is not the arrival of a frame, which the READABLE callbacks bring about. -/
def Action.isReceive : Action → Bool
  | .receive _ _ => true
  | _ => false

/-- What can happen to a receiver; `host` is what the host holds for a stream when its READABLE
    callback comes. -/
inductive ReceiverAction (τ : Type) where
  | node (action : Action) (h : action.isReceive = false)
  | readable (i : Nat) (host : τ)

/-- The stream slots whose buffers an action resets. -/
def Action.resets (config : Config) (r : Router) : Action → List Nat
  | .streamOpen _ conn peerId _ _ =>
    match peerFromConn config conn peerId r with
    | (.ok _, r) => (findSlot config.capacity.maxStreams fun i => !(r.streams i).isOpen).toList
    | (.error _, _) => []
  | .streamEnd i => [i]
  | .connClosed conn => (List.range config.capacity.maxStreams).filter fun i =>
      (r.streams i).isOpen && (r.streams i).conn = some conn
  | _ => []

namespace Receiver

variable {τ : Type}

/-- The buffer of a stream slot is reset. -/
def resetStream (config : Config) (s : Receiver) (i : Nat) : Receiver :=
  (pool config (.reset i) s).2.setLog i fun _ => .fresh

/-- One step of a receiver. -/
def step (config : Config) (source : ReadSource τ) (s : Receiver) :
    ReceiverAction τ → Receiver
  | .node action _ =>
    (action.resets config s.node.router).foldl (resetStream config)
      { s with node := s.node.step config action }
  | .readable i host => (readable config source i host s).2

/-- A READABLE callback reaches the stream of a slot. -/
def Delivers (config : Config) (i : Nat) (s : Receiver) : Prop :=
  i < config.capacity.maxStreams ∧ (s.node.router.streams i).isOpen ∧ (s.log i).error = none

instance (config : Config) (i : Nat) (s : Receiver) : Decidable (s.Delivers config i) := by
  unfold Delivers
  infer_instance

/-- In a READABLE callback, `gossipsub_stream_rx_reserve` does not answer `WOULD_BLOCK` in a round
    after one that read bytes. -/
def AddsOnce (config : Config) (source : ReadSource τ) (s : Receiver) : ReceiverAction τ → Prop
  | .node _ _ => True
  | .readable i host => s.Delivers config i →
      Rounds config source i (fun readLen s => blocked config i s = true → readLen = 0)
        (source.size host + 1) 0 host s

instance AddsOnce.decidable (config : Config) (source : ReadSource τ) (s : Receiver)
    (action : ReceiverAction τ) : Decidable (s.AddsOnce config source action) := by
  unfold AddsOnce
  split <;> infer_instance

end Receiver

/-! ## The invariant -/

/-- What is known of a stream: its buffer holds what is behind the frames that were handed over,
    and none that is complete; or its callbacks ended with an error, for one of the reasons there
    are. -/
inductive StreamLog.Framed (config : Config) (i : Nat) (U : GossipsubErr → Prop) (log : StreamLog)
    (pending : Bytes) : Prop
  | reading : log.error = none → log.refused = false →
      (rpcFrames config).Frames log.received log.handed pending →
      (rpcFrames config).next pending = .incomplete → Framed config i U log pending
  | halted {e : GossipsubErr} : log.error = some e → log.Halts config i U pending e →
      Framed config i U log pending

theorem StreamLog.Framed.fresh :
    StreamLog.fresh.Framed config i U [] := .reading rfl rfl (.nil []) rfl

theorem StreamLog.Halts.setError {log : StreamLog} {pending : Bytes} {e : GossipsubErr} (h : log.Halts config i U pending e)
    (error : Option GossipsubErr) :
    ({ log with error := error } : StreamLog).Halts config i U pending e := by
  cases h with
  | malformed hrefused hframes hnext => exact .malformed hrefused hframes hnext
  | refused r hrefused hhanded hframes hnext hrun =>
    exact .refused r hrefused hhanded hframes hnext hrun
  | unreadable hrefused hframes hnext hU => exact .unreadable hrefused hframes hnext hU

/-- How far a stream got, told from all that was received on it: the frames of it were handed over,
    up to the first whose length is malformed or too large, or that the router refused, or up to
    where a read failed. -/
inductive StreamLog.Parsed (config : Config) (i : Nat) (U : GossipsubErr → Prop) (log : StreamLog)
    (pending : Bytes) : Prop
  | reading : log.error = none →
      (rpcFrames config).parse log.received = (log.handed, .incomplete pending) →
      Parsed config i U log pending
  | malformed {e : GossipsubErr} : log.error = some e →
      (rpcFrames config).parse log.received = (log.handed, .bad e) → Parsed config i U log pending
  | refused {e : GossipsubErr} {bodies : List Bytes} {body : Bytes} (r : Router) :
      log.error = some e → log.handed = bodies ++ [body] →
      log.handed <+: ((rpcFrames config).parse log.received).1 →
      (receive config i body r).1 = .error e → Parsed config i U log pending
  | unreadable {e : GossipsubErr} : log.error = some e → U e →
      (rpcFrames config).parse log.received = (log.handed, .incomplete pending) →
      Parsed config i U log pending

theorem StreamLog.Framed.parsed {log : StreamLog} {pending : Bytes} (h : log.Framed config i U pending) :
    log.Parsed config i U pending := by
  cases h with
  | reading herror _ hframes hnext =>
    have hparse := hframes.parse
    rw [FrameFormat.parse_incomplete hnext, List.append_nil] at hparse
    exact .reading herror hparse
  | halted herror hhalts =>
    cases hhalts with
    | malformed _ hframes hnext =>
      have hparse := hframes.parse
      rw [FrameFormat.parse_bad hnext, List.append_nil] at hparse
      exact .malformed herror hparse
    | refused r _ hhanded hframes hnext hrun =>
      refine .refused r herror hhanded ?_ hrun
      rw [hhanded, (hframes.snoc hnext).parse]
      exact List.prefix_append ..
    | unreadable _ hframes hnext hU =>
      have hparse := hframes.parse
      rw [FrameFormat.parse_incomplete hnext, List.append_nil] at hparse
      exact .unreadable herror hU hparse

namespace Receiver

variable {τ : Type} {config : Config} {source : ReadSource τ} {U : GossipsubErr → Prop}
  {s s' : Receiver}

/-- What holds of a receiver in every run. -/
structure Framed (config : Config) (U : GossipsubErr → Prop) (s : Receiver) : Prop extends
    Sound config s where
  streams : ∀ i < config.capacity.maxStreams,
    (s.log i).Framed config i U (s.rx.content config i)

theorem init_framed (config : Config) (U : GossipsubErr → Prop) :
    (Receiver.init config).Framed config U := by
  refine ⟨⟨Rx.init_wellFormed config, ?_⟩, ?_⟩
  · intro t ht
    cases ht
  · intro i hi
    have hempty : (Receiver.init config).rx.content config i = [] := rfl
    rw [hempty]
    exact .fresh

/-- The streams that a callback leaves alone stay as they are. -/
theorem Framed.of_aside (h : s.Framed config U) (hsound : s'.Sound config)
    (haside : Aside config i s s')
    (hself : i < config.capacity.maxStreams → (s'.log i).Framed config i U (s'.rx.content config i)) :
    s'.Framed config U := by
  refine ⟨hsound, ?_⟩
  intro j hj
  by_cases hji : j = i
  · subst hji
    exact hself hj
  · rw [haside.log j hji, haside.content j hj hji]
    exact h.streams j hj

/-- The streams that are reset are as new, the others as they were. -/
theorem resetAll_spec (hbuffer : streamRxBufferCap config < sizeMax) (h : s.Sound config)
    (slots : List Nat) :
    (slots.foldl (resetStream config) s).Sound config ∧
      ∀ j < config.capacity.maxStreams,
        (j ∈ slots → (slots.foldl (resetStream config) s).log j = .fresh ∧
          (slots.foldl (resetStream config) s).rx.content config j = []) ∧
        (j ∉ slots → (slots.foldl (resetStream config) s).log j = s.log j ∧
          (slots.foldl (resetStream config) s).rx.content config j = s.rx.content config j) := by
  induction slots generalizing s with
  | nil => exact ⟨h, fun j _ => ⟨fun hj => by simp at hj, fun _ => ⟨rfl, rfl⟩⟩⟩
  | cons i slots ih =>
    rcases Rx.reset_spec hbuffer h.wellFormed i with ⟨hwf, hothers, hempty⟩
    have hmoved : (s.moveRx (.reset i) (rxReset config i s.rx)).Sound config := h.pool hwf hothers
    have hsound : (s.resetStream config i).Sound config := hmoved.setLog i _
    rcases ih hsound with ⟨hall, hstreams⟩
    refine ⟨hall, ?_⟩
    intro j hj
    rcases hstreams j hj with ⟨hreset, hkept⟩
    rw [List.foldl_cons]
    by_cases hmem : j ∈ slots
    · exact ⟨fun _ => hreset hmem, fun hnot => absurd (List.mem_cons_of_mem _ hmem) hnot⟩
    · rcases hkept hmem with ⟨hlog, hcontent⟩
      by_cases hji : j = i
      · subst hji
        refine ⟨fun _ => ⟨?_, ?_⟩, fun hnot => absurd List.mem_cons_self hnot⟩
        · rw [hlog]
          exact setLog_self ..
        · rw [hcontent]
          exact hempty hj
      · refine ⟨fun hin => absurd hin (by simp [hji, hmem]), fun _ => ⟨?_, ?_⟩⟩
        · rw [hlog]
          exact Function.update_of_ne hji ..
        · rw [hcontent]
          exact hothers j hj hji

theorem resetAll_node (slots : List Nat) (s : Receiver) :
    (slots.foldl (resetStream config) s).node = s.node := by
  induction slots generalizing s with
  | nil => rfl
  | cons i slots ih => exact ih _

/-- An action of the node resets the buffers of the streams that open or end. -/
theorem node_spec (hbuffer : streamRxBufferCap config < sizeMax) (h : s.Sound config)
    (action : Action) (hreceive : action.isReceive = false) :
    (s.step config source (.node action hreceive)).Sound config ∧
      ∀ j < config.capacity.maxStreams,
        (j ∈ action.resets config s.node.router →
          (s.step config source (.node action hreceive)).log j = .fresh ∧
          (s.step config source (.node action hreceive)).rx.content config j = []) ∧
        (j ∉ action.resets config s.node.router →
          (s.step config source (.node action hreceive)).log j = s.log j ∧
          (s.step config source (.node action hreceive)).rx.content config j =
            s.rx.content config j) := by
  have hnode : Sound config { s with node := s.node.step config action } :=
    ⟨h.wellFormed, h.transitions⟩
  exact resetAll_spec hbuffer hnode (action.resets config s.node.router)

theorem Framed.node (hbuffer : streamRxBufferCap config < sizeMax) (h : s.Framed config U)
    (action : Action) (hreceive : action.isReceive = false) :
    (s.step config source (.node action hreceive)).Framed config U := by
  rcases @node_spec _ config source s hbuffer h.toSound action hreceive with ⟨hsound, hstreams⟩
  refine ⟨hsound, ?_⟩
  intro j hj
  rcases hstreams j hj with ⟨hreset, hkept⟩
  by_cases hmem : j ∈ action.resets config s.node.router
  · rcases hreset hmem with ⟨hlog, hcontent⟩
    rw [hlog, hcontent]
    exact .fresh
  · rcases hkept hmem with ⟨hlog, hcontent⟩
    rw [hlog, hcontent]
    exact h.streams j hj

/-- What a READABLE callback does to the receiver, and with `E` to what the host holds. -/
structure Callback (config : Config) (i : Nat) (U : GossipsubErr → Prop) (E : τ → Prop)
    (s : Receiver) (res : τ × Receiver) : Prop where
  sound : res.2.Sound config
  aside : Aside config i s res.2
  framed : i < config.capacity.maxStreams →
    (res.2.log i).Framed config i U (res.2.rx.content config i)
  ends : s.Delivers config i → (res.2.log i).error = none → E res.1
  refusal : s.Delivers config i → (res.2.log i).refused = true → Refused config i s res.2

/-- A READABLE callback hands over the frames of what it reads. -/
theorem readable_callback {H E : τ → Prop} {P : Nat → Receiver → Prop}
    (hcontract : ReadContract source H E U) (hbuffer : streamRxBufferCap config < sizeMax)
    (h : s.Sound config) {i : Nat}
    (hstream : i < config.capacity.maxStreams →
      (s.log i).Framed config i U (s.rx.content config i)) {host : τ} (hH : H host)
    (hP : ∀ readLen s host, P readLen s → H host → blocked config i s = true →
      readLen = 0 ∧ E host)
    (hrounds : s.Delivers config i →
      Rounds config source i P (source.size host + 1) 0 host s) :
    Callback config i U E s (Receiver.readable config source i host s) := by
  unfold Receiver.readable
  split
  · rename_i hdelivers
    have hi := hdelivers.1
    have hsettled : Settled config i s s := by
      cases hstream hi with
      | reading herror hrefused hframes hnext =>
        exact ⟨⟨h, .refl i s, herror, hrefused, hframes, .refl i s⟩, hnext⟩
      | halted herror _ =>
        rw [hdelivers.2.2] at herror
        cases herror
    rcases streamReadLoop_spec hcontract hbuffer hi hP (source.size host + 1) hsettled hH
      (Nat.lt_succ_self _) (hrounds hdelivers) with ⟨hok, herror⟩
    rcases hrun : streamRead config source i host s with ⟨e | host', s₁⟩
    · have hfailed := herror e s₁ hrun
      have hlog : (s₁.setLog i fun log => { log with error := some e }).log i =
          { s₁.log i with error := some e } := setLog_self ..
      have haside : Aside config i s (s₁.setLog i fun log => { log with error := some e }) :=
        hfailed.aside.trans (.setLog i _ s₁)
      have hsound : (s₁.setLog i fun log => { log with error := some e }).Sound config :=
        hfailed.sound.setLog i _
      refine ⟨hsound, haside, ?_, ?_, ?_⟩
      · intro _
        show ((s₁.setLog i fun log => { log with error := some e }).log i).Framed config i U
          (s₁.rx.content config i)
        rw [hlog]
        exact .halted rfl (hfailed.halts.setError _)
      · intro _ hnone
        dsimp only at hnone
        rw [hlog] at hnone
        cases hnone
      · intro _ hrefused
        dsimp only at hrefused
        rw [hlog] at hrefused
        obtain ⟨bodies, body, r, hhanded, hrefusal⟩ := hfailed.refusal hrefused
        exact ⟨bodies, body, r, (congrArg StreamLog.handed hlog).trans hhanded, hrefusal⟩
    · rcases hok host' s₁ hrun with ⟨h₁, hE⟩
      refine ⟨h₁.sound, h₁.aside, fun _ => .reading h₁.error h₁.refused h₁.frames h₁.incomplete,
        fun _ _ => hE, fun _ hrefused => ?_⟩
      dsimp only at hrefused
      rw [h₁.refused] at hrefused
      cases hrefused
  · rename_i hnot
    exact ⟨h, .refl i s, hstream, fun hdelivers => absurd hdelivers hnot,
      fun hdelivers => absurd hdelivers hnot⟩

theorem Framed.readable (hbuffer : streamRxBufferCap config < sizeMax)
    (h : s.Framed config source.Fails) {i : Nat} {host : τ}
    (hadds : AddsOnce config source s (.readable i host)) :
    (s.step config source (.readable i host)).Framed config source.Fails := by
  have hcallback := readable_callback (.trivial source) hbuffer h.toSound (h.streams i) trivial
    (fun readLen s _ hP _ hblocked => ⟨hP hblocked, trivial⟩) hadds
  exact h.of_aside hcallback.sound hcallback.aside hcallback.framed

/-- The invariant holds in every state of a run in which no READABLE callback adds `read_len` a
    second time. -/
theorem run_framed (config : RouterConfig) (source : ReadSource τ)
    {actions : List (ReceiverAction τ)}
    (h : RunMeets (step config.toConfig source) (AddsOnce config.toConfig source)
      (init config.toConfig) actions) :
    (runFrom (step config.toConfig source) (init config.toConfig) actions).Framed config.toConfig
      source.Fails := by
  refine run_keeps h (init_framed _ _) ?_
  intro s action hadds hs
  cases action with
  | node action hreceive => exact hs.node config.streamRxBufferCap_lt action hreceive
  | readable i host => exact hs.readable config.streamRxBufferCap_lt hadds

/-- In a run in which no READABLE callback adds `read_len` a second time, the buffers of the streams
    never overlap, and no operation on them loses a byte of a stream that it does not empty. -/
theorem run_buffers_safe (config : RouterConfig) (source : ReadSource τ)
    {actions : List (ReceiverAction τ)}
    (h : RunMeets (step config.toConfig source) (AddsOnce config.toConfig source)
      (init config.toConfig) actions) :
    let s := runFrom (step config.toConfig source) (init config.toConfig) actions
    s.rx.WellFormed config.toConfig ∧ ∀ t ∈ s.transitions, t.Safe config.toConfig := by
  have hframed := run_framed config source h
  exact ⟨hframed.wellFormed, hframed.transitions⟩

/-- Two empty frames and the front of a third, in two reads. -/
def twoFrames : List (ReceiverAction Host.StreamInput) :=
  [.node (.streamOpen 1 0 (.ok [1]) .inbound .v11) rfl,
    .readable 0 ⟨[0], { Host.QuicStream.fresh with rx := [0, 3, 10] }⟩]

theorem run_buffers_safe_twoFrames :
    let s := runFrom (step RouterConfig.small.toConfig hostSource)
      (init RouterConfig.small.toConfig) twoFrames
    s.rx.WellFormed RouterConfig.small.toConfig ∧
      ∀ t ∈ s.transitions, t.Safe RouterConfig.small.toConfig := by
  apply run_buffers_safe RouterConfig.small hostSource
  decide +kernel

/-- In a run in which no READABLE callback adds `read_len` a second time, every stream hands over the
    frames of what it received, whatever the reads that brought it. -/
theorem run_parses (config : RouterConfig) (source : ReadSource τ)
    {actions : List (ReceiverAction τ)}
    (h : RunMeets (step config.toConfig source) (AddsOnce config.toConfig source)
      (init config.toConfig) actions) {i : Nat} (hi : i < config.capacity.maxStreams) :
    let s := runFrom (step config.toConfig source) (init config.toConfig) actions
    (s.rx.stream i).len ≤ (s.rx.stream i).cap ∧
      (s.log i).Parsed config.toConfig i source.Fails (s.rx.content config.toConfig i) := by
  have hframed := run_framed config source h
  exact ⟨hframed.wellFormed.len_le i hi, (hframed.streams i hi).parsed⟩

theorem run_parses_twoFrames :
    let s := runFrom (step RouterConfig.small.toConfig hostSource)
      (init RouterConfig.small.toConfig) twoFrames
    s.log 0 = ⟨[0, 0, 3, 10], [[], []], false, none⟩ ∧
      (s.rx.stream 0).len ≤ (s.rx.stream 0).cap ∧
      (s.log 0).Parsed RouterConfig.small.toConfig 0 hostSource.Fails
        (s.rx.content RouterConfig.small.toConfig 0) := by
  refine ⟨by decide +kernel, ?_⟩
  apply run_parses RouterConfig.small hostSource
  · decide +kernel
  · decide

end Receiver

end LeanLibp2p.Gossipsub

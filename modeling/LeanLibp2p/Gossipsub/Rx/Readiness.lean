import LeanLibp2p.Gossipsub.Router.Ingress
import LeanLibp2p.Gossipsub.Router.Writers
import LeanLibp2p.Gossipsub.Rx.Exhaustion

/-!
# Readiness

The transport queues a READABLE event when bytes or the end of a stream arrive, the host turns events
into a pending bit, and clears the bit before it calls `gossipsub_protocol_on_event`. Nothing else
leads to a read, so that a callback has to read everything, and must not find a stream at its end.
-/

namespace LeanLibp2p.Gossipsub

open LeanLibp2p.Lib

variable (config : Config)
variable (s₀ : Receiver)

/-! ## What the host holds -/

/-- What a read of a stream of the host gives. -/
theorem hostSource_read_cases (room : Nat) (host : Host.StreamInput) :
    (host.inFrame ≠ [] ∧ hostSource.read room host = (.data (host.inFrame.take room) false,
      { host with inFrame := host.inFrame.drop room })) ∨
    (host.inFrame = [] ∧ host.quic.Terminal ∧ hostSource.read room host = (.fail .host, host)) ∨
    (host.inFrame = [] ∧ ¬ host.quic.Terminal ∧ host.quic.rx.take room = [] ∧
      host.quic.endsAt room = false ∧
      hostSource.read room host = (.wouldBlock, { host with quic := host.quic.after room })) ∨
    (host.inFrame = [] ∧ ¬ host.quic.Terminal ∧
      hostSource.read room host = (.data (host.quic.rx.take room) (host.quic.endsAt room),
        { host with quic := host.quic.after room }) ∧
      (host.quic.rx.take room ≠ [] ∨ host.quic.endsAt room = true)) := by
  have hof : hostSource.read room host =
      (.ofHost (host.read room).1, (host.read room).2) := rfl
  rw [hof]
  rcases host.read_cases room with ⟨hframe, hread⟩ | ⟨hframe, hterminal, hread⟩ |
    ⟨hframe, hterminal, hread⟩
  · refine .inl ⟨hframe, ?_⟩
    rw [hread]
    rfl
  · refine .inr (.inl ⟨hframe, hterminal, ?_⟩)
    rw [hread]
    rfl
  · rw [hread]
    by_cases hnone : host.quic.rx.take room = [] ∧ host.quic.endsAt room = false
    · refine .inr (.inr (.inl ⟨hframe, hterminal, hnone.1, hnone.2, ?_⟩))
      rw [if_pos hnone]
      rfl
    · refine .inr (.inr (.inr ⟨hframe, hterminal, ?_, ?_⟩))
      · rw [if_neg hnone]
        rfl
      · rw [not_and_or, Bool.not_eq_false] at hnone
        exact hnone

theorem unread_after {host : Host.StreamInput} {room : Nat} (hframe : host.inFrame = [])
    (hrx : host.quic.rx.drop room = []) :
    ({ host with quic := host.quic.after room } : Host.StreamInput).unread = [] := by
  show host.inFrame ++ host.quic.rx.drop room = []
  rw [hframe, hrx]
  rfl

/-- A callback that ends well has read everything, unless the shared buffer was full. -/
theorem hostSource_drains : ReadContract hostSource (fun _ => True)
    (fun host => host.unread = []) hostSource.Fails := by
  refine ⟨fun room host _ _ _ _ h => ⟨room, host, congrArg Prod.fst h⟩, ?_, ?_,
    fun _ _ _ _ _ _ _ _ => True.intro⟩
  · intro room host host' _ hroom h
    rcases hostSource_read_cases room host with ⟨-, hread⟩ | ⟨-, -, hread⟩ |
      ⟨hframe, -, hnone, -, hread⟩ | ⟨-, -, hread, -⟩
    · rw [hread] at h
      cases h
    · rw [hread] at h
      cases h
    · rw [hread] at h
      cases h
      apply unread_after hframe
      rcases List.take_eq_nil_iff.mp hnone with hzero | hnil
      · omega
      · rw [hnil, List.drop_nil]
    · rw [hread] at h
      cases h
  · intro room host bytes fin host' _ hroom h hend
    rcases hostSource_read_cases room host with ⟨hframe, hread⟩ | ⟨-, -, hread⟩ |
      ⟨-, -, -, -, hread⟩ | ⟨hframe, -, hread, hsome⟩
    · rw [hread] at h
      cases h
      rcases hend with hfin | hnil
      · cases hfin
      · rcases List.take_eq_nil_iff.mp hnil with hzero | hempty
        · omega
        · exact absurd hempty hframe
    · rw [hread] at h
      cases h
    · rw [hread] at h
      cases h
    · rw [hread] at h
      cases h
      have hends : host.quic.endsAt room = true := by
        rcases hend with hfin | hnil
        · exact hfin
        · exact hsome.resolve_left (not_not_intro hnil)
      apply unread_after hframe
      unfold Host.QuicStream.endsAt at hends
      rw [Bool.and_eq_true, Bool.and_eq_true] at hends
      exact List.isEmpty_iff.mp hends.1.2

/-- The peer has not reset the stream, and its end was not delivered yet. -/
def Live (host : Host.StreamInput) : Prop := host.quic.Orderly ∧ host.quic.Live

/-- No read of a live stream fails. -/
theorem hostSource_live : ReadContract hostSource Live (fun _ => True) (fun _ => False) := by
  refine ⟨?_, fun _ _ _ _ _ _ => True.intro, fun _ _ _ _ _ _ _ _ _ => True.intro, ?_⟩
  · intro room host e host' hlive _ h
    rcases hostSource_read_cases room host with ⟨-, hread⟩ | ⟨-, hterminal, -⟩ |
      ⟨-, -, -, -, hread⟩ | ⟨-, -, hread, -⟩
    · rw [hread] at h
      cases h
    · exact hlive.2.not_terminal hlive.1 hterminal
    · rw [hread] at h
      cases h
    · rw [hread] at h
      cases h
  · intro room host bytes host' hlive _ h _
    rcases hostSource_read_cases room host with ⟨-, hread⟩ | ⟨-, -, hread⟩ |
      ⟨-, -, -, -, hread⟩ | ⟨-, -, hread, -⟩
    · rw [hread] at h
      cases h
      exact hlive
    · rw [hread] at h
      cases h
    · rw [hread] at h
      cases h
    · rw [hread] at h
      rcases Prod.mk.inj h with ⟨hdata, rfl⟩
      have hends : host.quic.endsAt room = false := (ReadResult.data.inj hdata).2
      refine ⟨hlive.1, hlive.2.1, ?_⟩
      show (host.quic.remoteFinDelivered || host.quic.endsAt room) = false
      rw [hlive.2.2, hends]
      rfl

/-! ## What a callback leaves alone -/

namespace Receiver

variable {config : Config} {i : Nat} {τ : Type}

/-- What holds whatever stream `i` reads and hands over. -/
structure Kept (config : Config) (i : Nat) (I : Receiver → Prop) : Prop where
  pool : ∀ op, Comp.Keeps I (pool config op)
  process : ∀ body, Comp.Keeps I (process config i body)
  setLog : ∀ f s, I s → I (s.setLog i f)

namespace Kept

variable {I : Receiver → Prop} (hI : Kept config i I)

include hI

theorem decodeLoop (fuel : Nat) : Comp.Keeps I (decodeLoop config i fuel) := by
  induction fuel with
  | zero => exact .pure ()
  | succ fuel ih =>
    intro s h
    rcases decodeLoop_cases config i fuel s with ⟨-, hrun⟩ | ⟨e, -, hrun⟩ | ⟨body, rest, -, hrun⟩
    · rw [hrun]
      exact h
    · rw [hrun]
      exact h
    · rw [hrun]
      exact Comp.Keeps.bind (hI.process body) (fun _ => .bind (hI.pool _) fun _ => ih) s h

theorem addRead (readLen : Nat) : Comp.Keeps I (addRead config i readLen) :=
  .bind (hI.pool _) fun _ => .onlyIf fun _ =>
    .bind (.read _) fun _ => .bind (hI.decodeLoop _) fun _ => hI.pool _

theorem ensureRoom : Comp.Keeps I (ensureRoom config i) := by
  refine .bind (.read _) fun s => .ite (fun _ => .fail _) fun _ => .ite (fun _ => ?_) fun _ => .pure _
  refine .bind (.result (hI.pool _)) fun res => ?_
  cases res with
  | ok u => exact .pure false
  | error e =>
    cases e with
    | wouldBlock => exact .pure true
    | _ => exact .fail _

theorem readRound (source : ReadSource τ) (readLen : Nat) (host : τ) :
    Comp.Keeps I (readRound config source i readLen host) := by
  refine .bind hI.ensureRoom fun stopped => .ite (fun _ => ?_) fun _ => ?_
  · exact .bind (hI.addRead readLen) fun _ => .pure _
  · refine .bind (.read _) fun s => ?_
    dsimp only
    rcases source.read (min (sizeSub (s.rx.stream i).cap (s.rx.stream i).len) 65536) host with
      ⟨res, host'⟩
    cases res with
    | fail e => exact .fail e
    | wouldBlock => exact .bind (hI.addRead 0) fun _ => .pure _
    | data bytes fin =>
      exact .bind (hI.pool _) fun _ => .bind (.update (hI.setLog _)) fun _ =>
        .bind (hI.addRead _) fun _ => .pure _

theorem streamReadLoop (source : ReadSource τ) (fuel readLen : Nat) (host : τ) :
    Comp.Keeps I (streamReadLoop config source i fuel readLen host) := by
  induction fuel generalizing readLen host with
  | zero => exact .fail _
  | succ fuel ih =>
    exact .bind (hI.readRound source readLen host) fun x => .ite (fun _ => ih _ _) fun _ => .pure _

theorem readable (source : ReadSource τ) (host : τ) {s : Receiver} (h : I s) :
    I (readable config source i host s).2 := by
  have hread : I (streamRead config source i host s).2 := hI.streamReadLoop source _ _ _ s h
  unfold Receiver.readable
  split
  · rcases hrun : streamRead config source i host s with ⟨e | host', s'⟩
    · rw [hrun] at hread
      exact hI.setLog (fun log => { log with error := some e }) s' hread
    · rw [hrun] at hread
      exact hread
  · exact h

end Kept

/-- What a READABLE callback of stream `i` keeps: the streams, and what is known of the others. -/
def Beside (i : Nat) (s₀ s : Receiver) : Prop :=
  s.node.router.streams = s₀.node.router.streams ∧ ∀ j, j ≠ i → s.log j = s₀.log j

theorem beside_kept : Kept config i (Beside i s₀) where
  pool := fun _ _ h => h
  process := fun body s h =>
    ⟨(((receive_touches config i body).agrees s.node.router).eq .streams
      (by rw [Action.parts]; decide)).trans h.1,
      fun j hji => (Function.update_of_ne hji ..).trans (h.2 j hji)⟩
  setLog := fun _ _ h => ⟨h.1, fun j hji => (Function.update_of_ne hji ..).trans (h.2 j hji)⟩

theorem readable_beside (source : ReadSource τ) (host : τ) (s : Receiver) :
    Beside i s (readable config source i host s).2 :=
  (beside_kept s).readable source host ⟨rfl, fun _ _ => rfl⟩

/-- The router knows the peers of its streams, and can encode for its writers. -/
def Serves (config : Config) (r : Router) : Prop := WritersReady r ∧ StreamsKnown config r

theorem serves_receive (i : Nat) (body : Bytes) :
    Comp.Keeps (Serves config) (receive config i body) := fun r h =>
  ⟨WritersReady.of_touches (receive_touches config i body) (by rw [Action.parts]; decide) r h.1,
    StreamsKnown.of_touches (receive_touches config i body) (by rw [Action.parts]; decide) r h.2⟩

theorem serves_kept : Kept config i fun s => Serves config s.node.router where
  pool := fun _ _ h => h
  process := fun body s h => serves_receive i body s.node.router h
  setLog := fun _ _ h => h

end Receiver

/-! ## The streams of a host -/

/-- A receiver with what the host and the transport hold for its streams. -/
structure Readiness where
  receiver : Receiver
  input : Nat → Host.StreamInput
  /-- `pending_readable`. -/
  pending : Nat → Bool
  /-- The READABLE events of a stream that the transport queued. -/
  queued : Nat → Nat

/-- What can happen to the streams. -/
inductive ReadinessAction where
  /-- Anything of the router; the host holds `host` for a stream that opens. -/
  | node (action : Action) (h : action.isReceive = false) (host : Host.StreamInput)
      (horderly : host.quic.Orderly) (queued : Nat)
  /-- Bytes arrive, or the end of the stream. -/
  | arrive (i : Nat) (bytes : Bytes) (fin : Bool)
  /-- The peer resets the stream. -/
  | peerReset (i : Nat)
  /-- The host takes a READABLE event of the transport. -/
  | event (i : Nat)
  /-- The host calls `gossipsub_protocol_on_event` for READABLE. -/
  | callback (i : Nat)

namespace Readiness

/-- No stream is open. -/
def init : Readiness :=
  ⟨.init config, fun _ => ⟨[], .fresh⟩, fun _ => false, fun _ => 0⟩

/-- One step. A stream that opens is pending from the start. -/
def step (s : Readiness) : ReadinessAction → Readiness
  | .node action h host _ queued =>
    let resets := action.resets config s.receiver.node.router
    { receiver := s.receiver.step config hostSource (.node action h)
      input := fun i => if i ∈ resets then host else s.input i
      pending := fun i => decide (i ∈ resets) || s.pending i
      queued := fun i => if i ∈ resets then queued else s.queued i }
  | .arrive i bytes fin =>
    { s with
      input := Function.update s.input i
        { s.input i with quic := Host.quicRecvStreamData bytes fin (s.input i).quic }
      queued := Function.update s.queued i (s.queued i + 1) }
  | .peerReset i =>
    { s with
      input := Function.update s.input i
        { s.input i with quic := Host.quicStreamReset (s.input i).quic } }
  | .event i =>
    if s.queued i = 0 then s
    else { s with
      pending := Function.update s.pending i true
      queued := Function.update s.queued i (s.queued i - 1) }
  | .callback i =>
    if s.pending i then
      { s with
        receiver := (Receiver.readable config hostSource i (s.input i) s.receiver).2
        input := Function.update s.input i
          (Receiver.readable config hostSource i (s.input i) s.receiver).1
        pending := Function.update s.pending i false }
    else s

/-- A callback for a stream of the router is under way. -/
def Calls (s : Readiness) (i : Nat) : Prop :=
  s.pending i = true ∧ s.receiver.Delivers config i

instance (s : Readiness) (i : Nat) : Decidable (s.Calls config i) := by
  unfold Calls
  infer_instance

/-- No callback stops because `gossipsub_stream_rx_reserve` answered `WOULD_BLOCK`. -/
def NeverBlocked (s : Readiness) : ReadinessAction → Prop
  | .callback i => s.Calls config i →
      Receiver.Rounds config hostSource i (fun _ r => Receiver.blocked config i r = false)
        (hostSource.size (s.input i) + 1) 0 (s.input i) s.receiver
  | _ => True

instance NeverBlocked.decidable (s : Readiness) (action : ReadinessAction) :
    Decidable (s.NeverBlocked config action) := by
  unfold NeverBlocked
  split <;> infer_instance

/-- No callback adds `read_len` a second time, and none comes for a stream whose end was already
    delivered. -/
def BeforeEnd (s : Readiness) : ReadinessAction → Prop
  | .callback i => s.Calls config i → (s.input i).quic.remoteFinDelivered = false ∧
      Receiver.Rounds config hostSource i
        (fun readLen r => Receiver.blocked config i r = true → readLen = 0)
        (hostSource.size (s.input i) + 1) 0 (s.input i) s.receiver
  | _ => True

instance BeforeEnd.decidable (s : Readiness) (action : ReadinessAction) :
    Decidable (s.BeforeEnd config action) := by
  unfold BeforeEnd
  split <;> infer_instance

/-! ## Answers -/

/-- The peer of the stream has a writer, or what is left of the RPC after its messages needs no answer. -/
def Answerable (i : Nat) (body : Bytes) (r : Router) : Prop :=
  Comp.Yields (Comp.ofResult (rpcBodyDecode (r.streams i).version config.limits decodeStorage body))
    r fun rpc r =>
      r.isWriter (r.streams i).peerIndex = true ∨
        Absorbed config (r.streams i).peerIndex rpc r.lastDriveUs
          (processBeforeGrafts config (r.streams i).peerIndex rpc r.lastDriveUs r).2

instance (i : Nat) (body : Bytes) (r : Router) : Decidable (Answerable config i body r) := by
  unfold Answerable
  infer_instance

/-- The bodies that a callback hands over. -/
def handsOver (s : Readiness) (i : Nat) : List Bytes :=
  ((Receiver.readable config hostSource i (s.input i) s.receiver).2.log i).handed.drop
    (s.receiver.log i).handed.length

/-- Each body that a callback of stream `i` hands over can be answered in the state in which it
    comes. -/
def Answers (i : Nat) (s : Readiness) : ReadinessAction → Prop
  | .callback j => j = i → s.Calls config i →
      Comp.Visits (receive config i) (Answerable config i) (s.handsOver config i)
        s.receiver.node.router
  | _ => True

instance Answers.decidable (i : Nat) (s : Readiness) (action : ReadinessAction) :
    Decidable (s.Answers config i action) := by
  unfold Answers
  split <;> infer_instance

end Readiness

/-! ## Slots of streams that open -/

/-- The slot in which a stream opens is reset. -/
theorem Action.mem_resets_of_opened {config : Config} {r r' : Router} {stream conn i p : Nat}
    {peerId : Except GossipsubErr Bytes} {id : Bytes} {direction : Host.Direction}
    {protocol : StreamProtocol}
    (hopened : StreamOpened config stream conn id direction protocol.version i p r r')
    (hrun : (openStream config stream conn peerId direction protocol.version r).1.isOk = true) :
    i ∈ (Action.streamOpen stream conn peerId direction protocol).resets config r := by
  rcases peerFromConn_cases config conn peerId r with ⟨e, hfail⟩ | ⟨id', p', r₁, -, hpeer, hfound⟩
  · unfold openStream at hrun
    rw [Comp.bind_of_error hfail] at hrun
    cases hrun
  · have hstreams : r₁.streams = r.streams := hfound.agrees.eq .streams (by decide)
    have hresets : (Action.streamOpen stream conn peerId direction protocol).resets config r =
        (findSlot config.capacity.maxStreams fun i => !(r₁.streams i).isOpen).toList := by
      rw [Action.resets, hpeer]
    rw [hresets, hstreams, hopened.slot_found]
    exact List.mem_singleton_self i

/-- A slot that is not reset stays as it is. -/
theorem Action.streams_of_not_reset {config : Config} {s : Node} {action : Action} {j : Nat}
    (hreset : j ∉ action.resets config s.router) :
    (s.step config action).router.streams j = s.router.streams j := by
  have hagrees := s.step_agrees config action
  -- The slots other than that of a stream that ends stay as they are.
  have hkeep : ∀ {α : Type} {touched : List Part} {c : RouterM α}, Touches touched c →
      Part.streams ∉ touched → Comp.Keeps (fun r => r.streams j = s.router.streams j) c := by
    intro α touched c htouches hnot r hr
    rw [show (c r).2.streams = r.streams from (htouches.agrees r).eq .streams hnot]
    exact hr
  cases action with
  | streamOpen stream conn peerId direction protocol =>
    have hstreams : (s.step config (.streamOpen stream conn peerId direction protocol)).router.streams =
        (openStream config stream conn peerId direction protocol.version s.router).2.streams := by
      show (protocolOnOpen config stream conn peerId direction protocol.version s.router).2.streams = _
      unfold protocolOnOpen
      rcases hrun : openStream config stream conn peerId direction protocol.version s.router with
        ⟨e | x, r⟩
      · rw [Comp.bind_of_error hrun]
      · rw [Comp.bind_of_ok hrun]
        exact ((announceOpen_touches ..).agrees r).eq .streams (by decide)
    rw [hstreams]
    rcases openStream_cases config stream conn peerId direction protocol.version s.router with
      ⟨e, hrun⟩ | ⟨e, id, p, r', hrun, -, hfound⟩ | ⟨id, i, p, r', -, hrun, hopened⟩
    · rw [hrun]
    · rw [hrun]
      exact congrFun (hfound.agrees.eq .streams (by decide)) j
    · have hi := Action.mem_resets_of_opened hopened (by rw [hrun]; rfl)
      have hji : j ≠ i := by
        rintro rfl
        exact hreset hi
      rw [hrun]
      dsimp only
      rw [hopened.streams, Function.update_of_ne hji]
  | streamEnd i =>
    have hji : j ≠ i := by
      rintro rfl
      exact hreset (List.mem_singleton_self j)
    have hend : Comp.Keeps (fun r => r.streams j = s.router.streams j)
        (Gossipsub.streamEnd config i) := by
      refine .bind (.read _) fun r => .bind (.onlyIf fun _ => .bind ?_ fun _ => ?_) fun _ => ?_
      · exact hkeep (pushEventOrDrop_touches ..) (by decide)
      · exact hkeep (.update fun r => dropWriter_agrees ..) (by decide)
      · exact .update fun r h => (Function.update_of_ne hji ..).trans h
    exact hend s.router rfl
  | connClosed conn =>
    have hclose : ∀ r : Router, r.streams = s.router.streams →
        (closeStreams config conn r).streams j = s.router.streams j := by
      intro r hr
      unfold closeStreams
      dsimp only
      rw [hr, if_neg]
      rintro ⟨hj, hopen, hconn⟩
      exact hreset (List.mem_filter.mpr ⟨List.mem_range.mpr hj, by simp [hopen, hconn]⟩)
    obtain ⟨r', hrun, hstreams, -⟩ := closePeers_run config conn s.router
    show (Gossipsub.connClosed config conn s.router).2.streams j = _
    unfold Gossipsub.connClosed
    rw [Comp.bind_of_ok hrun]
    exact hclose r' hstreams
  | _ => exact congrFun (hagrees.eq .streams (by rw [Action.parts]; decide)) j

/-! ## Runs -/

namespace Receiver

variable {τ : Type} {config : Config} {source : ReadSource τ} {i : Nat}

/-- What every read keeps of the host, a READABLE callback keeps. -/
theorem readRound_host {K : τ → Prop} (hK : ∀ room host, K host → K (source.read room host).2)
    {readLen : Nat} {host : τ} {s s' : Receiver} {x : τ × Nat × Bool} (hhost : K host)
    (hrun : readRound config source i readLen host s = (.ok x, s')) : K x.1 := by
  unfold readRound at hrun
  rcases Comp.ok_of_bind hrun with ⟨stopped, s₁, -, hrun⟩
  cases stopped with
  | true =>
    rcases Comp.ok_of_bind hrun with ⟨u, s₂, -, hrun⟩
    cases hrun
    exact hhost
  | false =>
    rw [if_neg (by simp), Comp.read_id_bind] at hrun
    have hread := hK (min (sizeSub (s₁.rx.stream i).cap (s₁.rx.stream i).len) 65536) host hhost
    rcases hres : source.read (min (sizeSub (s₁.rx.stream i).cap (s₁.rx.stream i).len) 65536) host
      with ⟨res, host'⟩
    rw [hres] at hrun hread
    cases res with
    | fail e => cases hrun
    | wouldBlock =>
      rcases Comp.ok_of_bind hrun with ⟨u, s₂, -, hrun⟩
      cases hrun
      exact hread
    | data bytes fin =>
      rcases Comp.ok_of_bind hrun with ⟨u, s₂, -, hrun⟩
      rcases Comp.ok_of_bind hrun with ⟨u, s₃, -, hrun⟩
      rcases Comp.ok_of_bind hrun with ⟨u, s₄, -, hrun⟩
      cases hrun
      exact hread

theorem readable_host {K : τ → Prop} (hK : ∀ room host, K host → K (source.read room host).2)
    {host : τ} (s : Receiver) (hhost : K host) : K (readable config source i host s).1 := by
  have hloop : ∀ fuel readLen host s host' s', K host →
      streamReadLoop config source i fuel readLen host s = (.ok host', s') → K host' := by
    intro fuel
    induction fuel with
    | zero =>
      intro readLen host s host' s' _ hrun
      cases hrun
    | succ fuel ih =>
      intro readLen host s host' s' hhost hrun
      rw [streamReadLoop] at hrun
      rcases Comp.ok_of_bind hrun with ⟨x, s₁, hround, hrun⟩
      have hx := readRound_host hK hhost hround
      rcases x with ⟨host₁, readLen₁, keepReading⟩
      cases keepReading with
      | true => exact ih _ _ _ _ _ hx hrun
      | false =>
        cases hrun
        exact hx
  unfold readable
  split
  · rcases hrun : streamRead config source i host s with ⟨e | host', s'⟩
    · exact hhost
    · exact hloop _ _ _ _ _ _ hhost hrun
  · exact hhost

theorem readable_of_not_delivers {host : τ} {s : Receiver} (h : ¬ s.Delivers config i) :
    readable config source i host s = (host, s) := by
  unfold readable
  exact if_neg h

end Receiver

namespace Readiness

variable {config : Config} {s : Readiness}

theorem step_event_none {i : Nat} (h : s.queued i = 0) : s.step config (.event i) = s := if_pos h

theorem step_event_queued {i : Nat} (h : s.queued i ≠ 0) : s.step config (.event i) = { s with
    pending := Function.update s.pending i true
    queued := Function.update s.queued i (s.queued i - 1) } := if_neg h

theorem step_callback_idle {i : Nat} (h : ¬ s.pending i = true) :
    s.step config (.callback i) = s := if_neg h

theorem step_callback_pending {i : Nat} (h : s.pending i = true) :
    s.step config (.callback i) = { s with
      receiver := (Receiver.readable config hostSource i (s.input i) s.receiver).2
      input := Function.update s.input i
        (Receiver.readable config hostSource i (s.input i) s.receiver).1
      pending := Function.update s.pending i false } := if_pos h

/-- What holds when no callback was stopped by a full buffer: a stream with nothing pending and no
    event on its way has nothing unread. -/
structure Drained (config : Config) (s : Readiness) : Prop where
  framed : s.receiver.Framed config hostSource.Fails
  drained : ∀ i < config.capacity.maxStreams, (s.receiver.node.router.streams i).isOpen = true →
    (s.receiver.log i).error = none → s.pending i = false → s.queued i = 0 →
    (s.input i).unread = []

theorem Drained.node (hbuffer : streamRxBufferCap config < sizeMax) (h : s.Drained config)
    (action : Action) (hreceive : action.isReceive = false) (host : Host.StreamInput)
    (horderly : host.quic.Orderly) (queued : Nat) :
    (s.step config (.node action hreceive host horderly queued)).Drained config := by
  have hframed : (s.receiver.step config hostSource (.node action hreceive)).Framed config
      hostSource.Fails := h.framed.node hbuffer action hreceive
  refine ⟨hframed, ?_⟩
  intro i hi hopen herror hpending hqueued
  have hmem : i ∉ action.resets config s.receiver.node.router := by
    intro hmem
    simp [step, hmem] at hpending
  have hspec := @Receiver.node_spec _ config hostSource s.receiver hbuffer h.framed.toSound action
    hreceive
  rcases (hspec.2 i hi).2 hmem with ⟨hlog, -⟩
  have hnode : (s.receiver.step config hostSource (.node action hreceive)).node =
      s.receiver.node.step config action := Receiver.resetAll_node ..
  simp only [step, hnode, hlog, hmem, decide_false, Bool.false_or]
    at hopen herror hpending hqueued ⊢
  rw [Action.streams_of_not_reset hmem] at hopen
  exact h.drained i hi hopen herror hpending hqueued

theorem Drained.callback (hbuffer : streamRxBufferCap config < sizeMax) (h : s.Drained config)
    {i : Nat} (hpending : s.pending i = true) (hnever : s.NeverBlocked config (.callback i)) :
    (s.step config (.callback i)).Drained config := by
  have hcallback : Receiver.Callback config i hostSource.Fails (fun host => host.unread = [])
      s.receiver (Receiver.readable config hostSource i (s.input i) s.receiver) := by
    refine Receiver.readable_callback hostSource_drains hbuffer h.framed.toSound (h.framed.streams i)
      trivial ?_ fun hdelivers => hnever ⟨hpending, hdelivers⟩
    intro readLen r host hfree _ hblocked
    rw [hfree] at hblocked
    cases hblocked
  have hbeside := @Receiver.readable_beside config i _ hostSource (s.input i) s.receiver
  rw [step_callback_pending hpending]
  refine ⟨h.framed.of_aside hcallback.sound hcallback.aside hcallback.framed, ?_⟩
  intro j hj hopen herror hidle hqueued
  dsimp only at hopen herror hidle hqueued ⊢
  rw [hbeside.1] at hopen
  by_cases hji : j = i
  · subst hji
    rw [Function.update_self]
    by_cases hdelivers : s.receiver.Delivers config j
    · exact hcallback.ends hdelivers herror
    · rw [Receiver.readable_of_not_delivers hdelivers] at herror
      exact absurd ⟨hj, hopen, herror⟩ hdelivers
  · rw [Function.update_of_ne hji] at hidle ⊢
    rw [hbeside.2 j hji] at herror
    exact h.drained j hj hopen herror hidle hqueued

/-- A step that changes nothing of the receiver keeps it, if each stream it touches has an event on
    its way or as many bytes unread as before. -/
theorem Drained.of_input {s' : Readiness} (h : s.Drained config) (hreceiver : s'.receiver = s.receiver)
    (hinput : ∀ i, s'.pending i = false → s'.queued i = 0 →
      s.pending i = false ∧ s.queued i = 0 ∧ (s'.input i).unread = (s.input i).unread) :
    s'.Drained config := by
  refine ⟨hreceiver ▸ h.framed, ?_⟩
  intro i hi hopen herror hpending hqueued
  rw [hreceiver] at hopen herror
  rcases hinput i hpending hqueued with ⟨hpending', hqueued', hunread⟩
  rw [hunread]
  exact h.drained i hi hopen herror hpending' hqueued'

theorem Drained.step (hbuffer : streamRxBufferCap config < sizeMax) (h : s.Drained config)
    {action : ReadinessAction} (hnever : s.NeverBlocked config action) :
    (s.step config action).Drained config := by
  cases action with
  | node action hreceive host horderly queued =>
    exact h.node hbuffer action hreceive host horderly queued
  | arrive i bytes fin =>
    refine h.of_input rfl ?_
    intro j hpending hqueued
    by_cases hji : j = i
    · subst hji
      have hmore : s.queued j + 1 = 0 := (Function.update_self ..).symm.trans hqueued
      omega
    · have hqueued' : s.queued j = 0 := (Function.update_of_ne hji ..).symm.trans hqueued
      refine ⟨hpending, hqueued', ?_⟩
      exact congrArg Host.StreamInput.unread (Function.update_of_ne hji ..)
  | peerReset i =>
    refine h.of_input rfl ?_
    intro j hpending hqueued
    refine ⟨hpending, hqueued, ?_⟩
    by_cases hji : j = i
    · subst hji
      have hinput : (s.step config (.peerReset j)).input j =
          { s.input j with quic := Host.quicStreamReset (s.input j).quic } := Function.update_self ..
      rw [hinput]
      rfl
    · exact congrArg Host.StreamInput.unread (Function.update_of_ne hji ..)
  | event i =>
    by_cases hnone : s.queued i = 0
    · rwa [step_event_none hnone]
    · rw [step_event_queued hnone]
      refine h.of_input rfl ?_
      intro j hpending hqueued
      by_cases hji : j = i
      · subst hji
        dsimp only at hpending
        rw [Function.update_self] at hpending
        cases hpending
      · dsimp only at hpending hqueued
        rw [Function.update_of_ne hji] at hpending hqueued
        exact ⟨hpending, hqueued, rfl⟩
  | callback i =>
    by_cases hpending : s.pending i = true
    · exact h.callback hbuffer hpending hnever
    · rwa [step_callback_idle hpending]

/-- In a run in which no callback is stopped by a full buffer, a stream with nothing pending and no
    event on its way has nothing unread. -/
theorem run_drained (config : RouterConfig) {actions : List ReadinessAction}
    (h : RunMeets (step config.toConfig) (NeverBlocked config.toConfig) (init config.toConfig)
      actions) {i : Nat} (hi : i < config.capacity.maxStreams) :
    let s := runFrom (step config.toConfig) (init config.toConfig) actions
    (s.receiver.node.router.streams i).isOpen = true → (s.receiver.log i).error = none →
      s.pending i = false → s.queued i = 0 → (s.input i).unread = [] := by
  have hdrained : (runFrom (step config.toConfig) (init config.toConfig) actions).Drained
      config.toConfig := by
    refine run_keeps h ⟨Receiver.init_framed _ _, fun _ _ _ _ _ _ => rfl⟩ ?_
    intro s action hnever hs
    exact hs.step config.streamRxBufferCap_lt hnever
  exact hdrained.drained i hi

/-- A peer opens a stream on the `n`-th connection. -/
def openInput (n : Nat) : Action := .streamOpen n 0 (.ok [1]) .inbound .v11

theorem openInput_isReceive (n : Nat) : (openInput n).isReceive = false := rfl

/-- A stream opens with a byte kept by the host, and more comes in with its end. -/
def halfClosing : List ReadinessAction :=
  [.node (openInput 1) (openInput_isReceive 1) ⟨[0], .fresh⟩ Host.QuicStream.fresh_orderly 0,
   .arrive 0 [0, 0] false, .arrive 0 [] true, .event 0, .event 0, .callback 0]

theorem run_drained_halfClosing :
    let s := runFrom (step RouterConfig.small.toConfig) (init RouterConfig.small.toConfig)
      halfClosing
    (s.receiver.log 0).handed = [[], [], []] ∧ (s.input 0).unread = [] := by
  refine ⟨by decide +kernel, ?_⟩
  apply run_drained RouterConfig.small
  · decide +kernel
  · decide
  · decide +kernel
  · decide +kernel
  · decide +kernel
  · decide +kernel

/-! ## A stream that is forgotten -/

/-- Nothing more arrives on a stream, and no other one takes its slot. -/
def Waits (config : Config) (i : Nat) (s : Readiness) : ReadinessAction → Prop
  | .node action _ _ _ _ => i ∉ action.resets config s.receiver.node.router
  | .arrive j _ _ | .peerReset j => j ≠ i
  | .event _ | .callback _ => True

/-- Without a pending bit or an event a stream is not read. -/
theorem run_waits {i : Nat} {actions : List ReadinessAction}
    (h : RunMeets (step config) (Waits config i) s actions) (hpending : s.pending i = false)
    (hqueued : s.queued i = 0) :
    (runFrom (step config) s actions).input i = s.input i := by
  have hidle : ∀ s', (s'.pending i = false ∧ s'.queued i = 0) ∧ s'.input i = s.input i →
      ∀ action, Waits config i s' action →
        ((s'.step config action).pending i = false ∧ (s'.step config action).queued i = 0) ∧
          (s'.step config action).input i = s.input i := by
    rintro s' ⟨⟨hpending, hqueued⟩, hinput⟩ action hwaits
    cases action with
    | node action hreceive host horderly queued =>
      have hmem : i ∉ action.resets config s'.receiver.node.router := hwaits
      simp only [step, hmem, if_neg, not_false_eq_true, decide_false, Bool.false_or]
      exact ⟨⟨hpending, hqueued⟩, hinput⟩
    | arrive j bytes fin =>
      have hij : i ≠ j := Ne.symm hwaits
      exact ⟨⟨hpending, (Function.update_of_ne hij ..).trans hqueued⟩,
        (Function.update_of_ne hij ..).trans hinput⟩
    | peerReset j =>
      have hij : i ≠ j := Ne.symm hwaits
      exact ⟨⟨hpending, hqueued⟩, (Function.update_of_ne hij ..).trans hinput⟩
    | event j =>
      by_cases hnone : s'.queued j = 0
      · rw [step_event_none hnone]
        exact ⟨⟨hpending, hqueued⟩, hinput⟩
      · have hij : i ≠ j := by
          rintro rfl
          exact hnone hqueued
        rw [step_event_queued hnone]
        exact ⟨⟨(Function.update_of_ne hij ..).trans hpending,
          (Function.update_of_ne hij ..).trans hqueued⟩, hinput⟩
    | callback j =>
      by_cases hcalls : s'.pending j = true
      · have hij : i ≠ j := by
          rintro rfl
          rw [hpending] at hcalls
          cases hcalls
        rw [step_callback_pending hcalls]
        exact ⟨⟨(Function.update_of_ne hij ..).trans hpending, hqueued⟩,
          (Function.update_of_ne hij ..).trans hinput⟩
      · rw [step_callback_idle hcalls]
        exact ⟨⟨hpending, hqueued⟩, hinput⟩
  exact (run_keeps (I := fun s' => (s'.pending i = false ∧ s'.queued i = 0) ∧
    s'.input i = s.input i) h ⟨⟨hpending, hqueued⟩, rfl⟩
    fun s' action hwaits hs' => hidle s' hs' action hwaits).2

/-- Seven streams of one peer open. -/
def openSevenInputs : List ReadinessAction :=
  (List.range 7).map fun n =>
    .node (openInput n) (openInput_isReceive n) ⟨[], .fresh⟩
      Host.QuicStream.fresh_orderly 0

/-- Bytes arrive on a stream and are read. -/
def feed (i : Nat) (bytes : Bytes) : List ReadinessAction :=
  [.arrive i bytes false, .event i, .callback i]

/-- The first six streams take the whole shared buffer; on the seventh a byte more comes in than its
    small buffer has room for. -/
def forgottenRun : List ReadinessAction :=
  openSevenInputs ++ (List.range 6).flatMap (fun i => feed i longFront) ++ feed 6 (longFront ++ [0])

/-- `k` of the streams wait for long frames, and nothing came in on the others. -/
structure Fed (config : Config) (k : Nat) (s : Readiness) : Prop where
  crowded : Receiver.Crowded config k s.receiver
  input : ∀ i, k ≤ i → s.input i = Receiver.arrived []
  queued : ∀ i, s.queued i = 0

/-- What arrives on a stream without an event or a byte is read by one callback. -/
theorem run_feed {i : Nat} (hinput : s.input i = Receiver.arrived []) (hqueued : s.queued i = 0)
    (bytes : Bytes) :
    let res := Receiver.readable config hostSource i (Receiver.arrived bytes) s.receiver
    let s' := runFrom (step config) s (feed i bytes)
    s'.receiver = res.2 ∧ s'.input i = res.1 ∧ (∀ j, j ≠ i → s'.input j = s.input j) ∧
      s'.pending i = false ∧ (∀ j, s'.queued j = s.queued j) := by
  have harrive : s.step config (.arrive i bytes false) = { s with
      input := Function.update s.input i (Receiver.arrived bytes)
      queued := Function.update s.queued i 1 } := by
    unfold step
    dsimp only
    rw [hinput, hqueued]
    rfl
  have hevent : (s.step config (.arrive i bytes false)).step config (.event i) = { s with
      input := Function.update s.input i (Receiver.arrived bytes)
      pending := Function.update s.pending i true
      queued := s.queued } := by
    rw [harrive, step_event_queued (by simp)]
    simp only [Function.update_self, Nat.sub_self, Function.update_idem]
    rw [← hqueued, Function.update_eq_self]
  have hcallback : runFrom (step config) s (feed i bytes) =
      ((s.step config (.arrive i bytes false)).step config (.event i)).step config (.callback i) :=
    rfl
  dsimp only
  rw [hcallback, hevent, step_callback_pending (by simp)]
  simp only [Function.update_self]
  refine ⟨trivial, trivial, ?_, trivial, fun _ => trivial⟩
  intro j hji
  exact (Function.update_of_ne hji ..).trans (Function.update_of_ne hji ..)

theorem Fed.fill (hconfig : Receiver.OneRead config) {i : Nat} (h : Fed config i s)
    (hi : i < config.capacity.maxStreams) (hroom : i < 6) {front : Bytes}
    (hlen : front.length = streamRxSmallStride config)
    (hnext : (rpcFrames config).next front = .incomplete) :
    Fed config (i + 1) (runFrom (step config) s (feed i front)) := by
  rcases run_feed (h.input i (Nat.le_refl i)) (h.queued i) front with
    ⟨hreceiver, -, hothers, -, hqueued⟩
  refine ⟨?_, ?_, fun j => (hqueued j).trans (h.queued j)⟩
  · rw [hreceiver]
    exact h.crowded.fill hconfig hi hroom hlen hnext
  · intro j hij
    exact (hothers j (by omega)).trans (h.input j (by omega))

theorem openSevenInputs_fed :
    Fed RouterConfig.crowded.toConfig 0
      (runFrom (step RouterConfig.crowded.toConfig) (init RouterConfig.crowded.toConfig)
        openSevenInputs) := by
  have hquiet : ∀ (ns : List Nat) (s : Readiness),
      (∀ i, s.input i = Receiver.arrived [] ∧ s.queued i = 0) →
      let opened := runFrom (step RouterConfig.crowded.toConfig) s (ns.map fun n =>
        .node (openInput n) (openInput_isReceive n) ⟨[], .fresh⟩ Host.QuicStream.fresh_orderly 0)
      ∀ i, opened.input i = Receiver.arrived [] ∧ opened.queued i = 0 := by
    intro ns
    induction ns with
    | nil => exact fun s hs => hs
    | cons n ns ih =>
      intro s hs
      apply ih
      intro i
      unfold step
      dsimp only
      rw [(hs i).1, (hs i).2]
      exact ⟨ite_self _, ite_self _⟩
  have hall := hquiet (List.range 7) (init RouterConfig.crowded.toConfig) fun i => ⟨rfl, rfl⟩
  exact ⟨Receiver.openSeven_crowded, fun i _ => (hall i).1, fun i => (hall i).2⟩

/-- The bytes that did not fit stay in the transport for good: whatever happens on other streams, no
    step that is not an arrival on this one reads them. -/
theorem run_forgets :
    let s := runFrom (step RouterConfig.crowded.toConfig) (init RouterConfig.crowded.toConfig)
      forgottenRun
    ((s.receiver.node.router.streams 6).isOpen = true ∧ (s.receiver.log 6).error = none ∧
      s.pending 6 = false ∧ s.queued 6 = 0 ∧ (s.input 6).unread = [0]) ∧
    ∀ actions, RunMeets (step RouterConfig.crowded.toConfig) (Waits RouterConfig.crowded.toConfig 6)
        s actions →
      ((runFrom (step RouterConfig.crowded.toConfig) s actions).input 6).unread = [0] := by
  have hfront := longFront_incomplete [] (by simp)
  rw [List.append_nil] at hfront
  have hfill : ∀ i, i < 6 → ∀ s, Fed RouterConfig.crowded.toConfig i s →
      Fed RouterConfig.crowded.toConfig (i + 1)
        (runFrom (step RouterConfig.crowded.toConfig) s (feed i longFront)) := by
    intro i hi s hs
    exact hs.fill crowded_oneRead (by show i < 7; omega) hi longFront_length hfront
  have hfed := hfill 5 (by omega) _ (hfill 4 (by omega) _ (hfill 3 (by omega) _ (hfill 2 (by omega) _
    (hfill 1 (by omega) _ (hfill 0 (by omega) _ openSevenInputs_fed)))))
  generalize hs : runFrom (step RouterConfig.crowded.toConfig) _ (feed 5 longFront) = fed at hfed
  have hstate : runFrom (step RouterConfig.crowded.toConfig) (init RouterConfig.crowded.toConfig)
      forgottenRun = runFrom (step RouterConfig.crowded.toConfig) fed (feed 6 (longFront ++ [0])) := by
    have hfeeds : ∀ bytes, (List.range 6).flatMap (fun i => feed i bytes) = feed 0 bytes ++
        (feed 1 bytes ++ (feed 2 bytes ++ (feed 3 bytes ++ (feed 4 bytes ++ (feed 5 bytes ++ []))))) :=
      fun _ => rfl
    rw [← hs, forgottenRun, hfeeds]
    simp only [runFrom_append, runFrom_nil]
  obtain ⟨r, hread, hlen, hcap, hlog⟩ := hfed.crowded.overrun crowded_oneRead (by decide) [0]
    longFront_length longFront_incomplete
  rcases @run_feed RouterConfig.crowded.toConfig fed 6 (hfed.input 6 (Nat.le_refl 6))
    (hfed.queued 6) (longFront ++ [0]) with ⟨hreceiver, hinput, -, hpending, hqueued⟩
  have hbeside := @Receiver.readable_beside RouterConfig.crowded.toConfig 6 _ hostSource
    (Receiver.arrived (longFront ++ [0])) fed.receiver
  rw [hread] at hreceiver hinput hbeside
  dsimp only
  rw [hstate]
  generalize runFrom (step RouterConfig.crowded.toConfig) fed (feed 6 (longFront ++ [0])) = s at *
  have hunread : (s.input 6).unread = [0] := by
    rw [hinput]
    rfl
  refine ⟨⟨?_, ?_, hpending, (hqueued 6).trans (hfed.queued 6), hunread⟩, ?_⟩
  · rw [hreceiver, hbeside.1]
    exact hfed.crowded.opened 6 (by decide)
  · rw [hreceiver, hlog]
  · intro actions hwaits
    rw [run_waits hwaits hpending ((hqueued 6).trans (hfed.queued 6)), hunread]

/-! ## The end of a stream -/

theorem fresh_orderly : Host.QuicStream.fresh.Orderly := by decide

/-- What a read keeps of a stream. -/
theorem hostSource_read_keeps {b : Bool} (room : Nat) (host : Host.StreamInput)
    (h : host.quic.Orderly ∧ host.quic.remoteReset = b) :
    (hostSource.read room host).2.quic.Orderly ∧ (hostSource.read room host).2.quic.remoteReset = b := by
  rcases hostSource_read_cases room host with ⟨-, hread⟩ | ⟨-, -, hread⟩ |
    ⟨-, -, -, -, hread⟩ | ⟨-, -, hread, -⟩
  all_goals
    rw [hread]
    exact h

/-- What holds when no callback comes behind the end of a stream: the callbacks of a stream that the
    peer did not reset failed only because of its frames. -/
structure HalfClosing (config : Config) (s : Readiness) : Prop where
  framed : s.receiver.Framed config hostSource.Fails
  orderly : ∀ i, (s.input i).quic.Orderly
  readable : ∀ i < config.capacity.maxStreams, (s.input i).quic.remoteReset = false →
    (s.receiver.log i).Framed config i (fun _ => False) (s.receiver.rx.content config i)

theorem HalfClosing.node (hbuffer : streamRxBufferCap config < sizeMax) (h : s.HalfClosing config)
    (action : Action) (hreceive : action.isReceive = false) (host : Host.StreamInput)
    (horderly : host.quic.Orderly) (queued : Nat) :
    (s.step config (.node action hreceive host horderly queued)).HalfClosing config := by
  have hframed : (s.receiver.step config hostSource (.node action hreceive)).Framed config
      hostSource.Fails := h.framed.node hbuffer action hreceive
  have hspec := @Receiver.node_spec _ config hostSource s.receiver hbuffer h.framed.toSound action
    hreceive
  refine ⟨hframed, ?_, ?_⟩
  · intro i
    unfold step
    dsimp only
    split
    · exact horderly
    · exact h.orderly i
  · intro i hi hreset
    show ((s.receiver.step config hostSource (.node action hreceive)).log i).Framed config i _
      ((s.receiver.step config hostSource (.node action hreceive)).rx.content config i)
    by_cases hmem : i ∈ action.resets config s.receiver.node.router
    · rcases (hspec.2 i hi).1 hmem with ⟨hlog, hcontent⟩
      rw [hlog, hcontent]
      exact .fresh
    · rcases (hspec.2 i hi).2 hmem with ⟨hlog, hcontent⟩
      rw [hlog, hcontent]
      have hinput : (s.step config (.node action hreceive host horderly queued)).input i =
          s.input i := if_neg hmem
      rw [hinput] at hreset
      exact h.readable i hi hreset

theorem HalfClosing.calls (hbuffer : streamRxBufferCap config < sizeMax) (h : s.HalfClosing config)
    {i : Nat} (hrounds : Receiver.Rounds config hostSource i
      (fun readLen r => Receiver.blocked config i r = true → readLen = 0)
      (hostSource.size (s.input i) + 1) 0 (s.input i) s.receiver) :
    Receiver.Callback config i hostSource.Fails (fun _ => True) s.receiver
      (Receiver.readable config hostSource i (s.input i) s.receiver) :=
  Receiver.readable_callback (.trivial hostSource) hbuffer h.framed.toSound (h.framed.streams i)
    trivial (fun _ _ _ hP _ hblocked => ⟨hP hblocked, trivial⟩) fun _ => hrounds

theorem HalfClosing.callback (hbuffer : streamRxBufferCap config < sizeMax)
    (h : s.HalfClosing config) {i : Nat} (hpending : s.pending i = true)
    (hbefore : s.BeforeEnd config (.callback i)) :
    (s.step config (.callback i)).HalfClosing config := by
  rw [step_callback_pending hpending]
  by_cases hdelivers : s.receiver.Delivers config i
  · rcases hbefore ⟨hpending, hdelivers⟩ with ⟨hdelivered, hrounds⟩
    have hcallback := h.calls hbuffer hrounds
    have hkeeps : (s.input i).quic.Orderly →
        (Receiver.readable config hostSource i (s.input i) s.receiver).1.quic.Orderly ∧
          (Receiver.readable config hostSource i (s.input i) s.receiver).1.quic.remoteReset =
            (s.input i).quic.remoteReset := fun horderly =>
      Receiver.readable_host (fun room host => hostSource_read_keeps room host) s.receiver
        ⟨horderly, rfl⟩
    refine ⟨h.framed.of_aside hcallback.sound hcallback.aside hcallback.framed, ?_, ?_⟩
    · intro j
      dsimp only
      by_cases hji : j = i
      · subst hji
        rw [Function.update_self]
        exact (hkeeps (h.orderly j)).1
      · rw [Function.update_of_ne hji]
        exact h.orderly j
    · intro j hj hreset
      dsimp only at hreset ⊢
      by_cases hji : j = i
      · subst hji
        rw [Function.update_self, (hkeeps (h.orderly j)).2] at hreset
        have hlive : Receiver.Callback config j (fun _ => False) (fun _ => True) s.receiver
            (Receiver.readable config hostSource j (s.input j) s.receiver) :=
          Receiver.readable_callback hostSource_live hbuffer h.framed.toSound
            (fun hj => h.readable j hj hreset) ⟨h.orderly j, hreset, hdelivered⟩
            (fun _ _ _ hP _ hblocked => ⟨hP hblocked, trivial⟩) fun _ => hrounds
        exact hlive.framed hj
      · rw [Function.update_of_ne hji] at hreset
        rw [hcallback.aside.log j hji, hcallback.aside.content j hj hji]
        exact h.readable j hj hreset
  · rw [Receiver.readable_of_not_delivers hdelivers]
    dsimp only
    rw [Function.update_eq_self]
    exact ⟨h.framed, h.orderly, h.readable⟩

/-- A step that changes nothing of the receiver keeps it, if it takes back no reset. -/
theorem HalfClosing.of_input {s' : Readiness} (h : s.HalfClosing config)
    (hreceiver : s'.receiver = s.receiver)
    (hinput : ∀ i, (s'.input i).quic.Orderly ∧
      ((s'.input i).quic.remoteReset = false → (s.input i).quic.remoteReset = false)) :
    s'.HalfClosing config := by
  refine ⟨hreceiver ▸ h.framed, fun i => (hinput i).1, ?_⟩
  intro i hi hreset
  rw [hreceiver]
  exact h.readable i hi ((hinput i).2 hreset)

theorem HalfClosing.step (hbuffer : streamRxBufferCap config < sizeMax) (h : s.HalfClosing config)
    {action : ReadinessAction} (hbefore : s.BeforeEnd config action) :
    (s.step config action).HalfClosing config := by
  cases action with
  | node action hreceive host horderly queued =>
    exact h.node hbuffer action hreceive host horderly queued
  | arrive i bytes fin =>
    refine h.of_input rfl ?_
    intro j
    by_cases hji : j = i
    · subst hji
      have hinput : (s.step config (.arrive j bytes fin)).input j = { s.input j with
          quic := Host.quicRecvStreamData bytes fin (s.input j).quic } := Function.update_self ..
      rw [hinput]
      exact ⟨Host.quicRecvStreamData_orderly (h.orderly j) bytes fin, fun hreset => hreset⟩
    · have hinput : (s.step config (.arrive i bytes fin)).input j = s.input j :=
        Function.update_of_ne hji ..
      rw [hinput]
      exact ⟨h.orderly j, fun hreset => hreset⟩
  | peerReset i =>
    refine h.of_input rfl ?_
    intro j
    by_cases hji : j = i
    · subst hji
      have hinput : (s.step config (.peerReset j)).input j =
          { s.input j with quic := Host.quicStreamReset (s.input j).quic } := Function.update_self ..
      rw [hinput]
      refine ⟨Host.quicStreamReset_orderly _, ?_⟩
      rintro ⟨⟩
    · have hinput : (s.step config (.peerReset i)).input j = s.input j :=
        Function.update_of_ne hji ..
      rw [hinput]
      exact ⟨h.orderly j, fun hreset => hreset⟩
  | event i =>
    refine h.of_input ?_ ?_
    · unfold Readiness.step
      dsimp only
      split <;> rfl
    · intro j
      have hinput : (s.step config (.event i)).input = s.input := by
        unfold Readiness.step
        dsimp only
        split <;> rfl
      rw [hinput]
      exact ⟨h.orderly j, fun hreset => hreset⟩
  | callback i =>
    by_cases hpending : s.pending i = true
    · exact h.callback hbuffer hpending hbefore
    · rwa [step_callback_idle hpending]

/-- What holds of a stream whose bodies can all be answered: only one that is not an RPC was
    refused. -/
structure Serving (config : Config) (i : Nat) (s : Readiness) : Prop where
  serves : Receiver.Serves config s.receiver.node.router
  refused : (s.receiver.log i).refused = true → ∃ body ∈ (s.receiver.log i).handed,
    ∀ rpc, rpcBodyDecode (s.receiver.node.router.streams i).version config.limits decodeStorage
      body ≠ .ok rpc

section Serving

variable {config : RouterConfig} {i j : Nat} {s : Readiness}

/-- A body that can be answered is refused only if it is not an RPC. -/
theorem decode_ne_of_refused (hcallbacks : CallbacksSucceed config.toConfig) {r : Router}
    (hserves : Receiver.Serves config.toConfig r) {body : Bytes}
    (hanswer : Answerable config.toConfig i body r) {e : GossipsubErr}
    (hrefused : (receive config.toConfig i body r).1 = .error e) (rpc : Rpc) :
    rpcBodyDecode (r.streams i).version config.limits decodeStorage body ≠ .ok rpc := by
  intro hdecode
  unfold receive at hrefused
  rw [Comp.read_id_bind] at hrefused
  split at hrefused
  · rename_i hopen
    obtain ⟨hp, hused⟩ := hserves.2 i hopen.2
    have hrpc : (Comp.ofResult (rpcBodyDecode (r.streams i).version config.limits decodeStorage
        body) : RouterM Rpc) r = (.ok rpc, r) := by
      rw [Comp.ofResult_apply, hdecode]
    obtain ⟨r', hrun⟩ := (processRpc_succeeds_iff config hcallbacks hp hdecode r.lastDriveUs
      hserves.1 hused).mpr (hanswer rpc r hrpc)
    rw [Comp.bind_of_ok hrpc, hrun] at hrefused
    cases hrefused
  · cases hrefused

theorem Serving.callback (hcallbacks : CallbacksSucceed config.toConfig)
    (h : s.Serving config.toConfig i)
    (hcallback : Receiver.Callback config.toConfig j hostSource.Fails (fun _ => True) s.receiver
      (Receiver.readable config.toConfig hostSource j (s.input j) s.receiver))
    (hpending : s.pending j = true) (hanswers : s.Answers config.toConfig i (.callback j)) :
    (s.step config.toConfig (.callback j)).Serving config.toConfig i := by
  rw [step_callback_pending hpending]
  have hbeside := @Receiver.readable_beside config.toConfig j _ hostSource (s.input j) s.receiver
  refine ⟨Receiver.serves_kept.readable hostSource (s.input j) h.serves, ?_⟩
  dsimp only
  rw [hbeside.1]
  by_cases hji : j = i
  · subst hji
    by_cases hdelivers : s.receiver.Delivers config.toConfig j
    · intro hrefused
      obtain ⟨bodies, body, r, hhanded, hrun, e, herror⟩ := hcallback.refusal hdelivers hrefused
      have hvisits := hanswers rfl ⟨hpending, hdelivers⟩
      unfold handsOver at hvisits
      rw [hhanded, List.drop_left] at hvisits
      have hkept := Comp.Keeps.forOk (I := fun r => Receiver.Serves config.toConfig r ∧
        r.streams = s.receiver.node.router.streams) fun body (_ : body ∈ bodies) r hr =>
          ⟨Receiver.serves_receive j body r hr.1,
            (((Gossipsub.receive_touches config.toConfig j body).agrees r).eq .streams
              (by rw [Action.parts]; decide)).trans hr.2⟩
      obtain ⟨hserves, hstreams⟩ := hkept.of_run ⟨h.serves, rfl⟩ hrun
      refine ⟨body, ?_, ?_⟩
      · rw [hhanded]
        simp
      · rw [← hstreams]
        exact decode_ne_of_refused hcallbacks hserves (hvisits.last hrun) herror
    · rw [Receiver.readable_of_not_delivers hdelivers]
      exact h.refused
  · rw [hbeside.2 i (Ne.symm hji)]
    exact h.refused

theorem Serving.node (hbuffer : streamRxBufferCap config.toConfig < sizeMax)
    (hi : i < config.capacity.maxStreams) (h : s.Serving config.toConfig i)
    (hframed : s.receiver.Framed config.toConfig hostSource.Fails) (action : Action)
    (hreceive : action.isReceive = false) (host : Host.StreamInput)
    (horderly : host.quic.Orderly) (queued : Nat) :
    (s.step config.toConfig (.node action hreceive host horderly queued)).Serving
      config.toConfig i := by
  have hspec := @Receiver.node_spec _ config.toConfig hostSource s.receiver hbuffer hframed.toSound
    action hreceive
  have hnode : (s.receiver.step config.toConfig hostSource (.node action hreceive)).node =
      s.receiver.node.step config.toConfig action := Receiver.resetAll_node ..
  unfold step
  dsimp only
  refine ⟨?_, ?_⟩
  · rw [hnode]
    exact ⟨h.serves.1.step action, h.serves.2.step action⟩
  · by_cases hmem : i ∈ action.resets config.toConfig s.receiver.node.router
    · intro hrefused
      rw [((hspec.2 i hi).1 hmem).1] at hrefused
      cases hrefused
    · rw [((hspec.2 i hi).2 hmem).1, hnode, Action.streams_of_not_reset hmem]
      exact h.refused

theorem Serving.step (hcallbacks : CallbacksSucceed config.toConfig)
    (hi : i < config.capacity.maxStreams) (h : s.Serving config.toConfig i)
    (hhalf : s.HalfClosing config.toConfig) {action : ReadinessAction}
    (hbefore : s.BeforeEnd config.toConfig action) (hanswers : s.Answers config.toConfig i action) :
    (s.step config.toConfig action).Serving config.toConfig i := by
  cases action with
  | node action hreceive host horderly queued =>
    exact h.node config.streamRxBufferCap_lt hi hhalf.framed action hreceive host horderly queued
  | arrive j bytes fin => exact ⟨h.serves, h.refused⟩
  | peerReset j => exact ⟨h.serves, h.refused⟩
  | event j =>
    unfold Readiness.step
    dsimp only
    split
    · exact h
    · exact ⟨h.serves, h.refused⟩
  | callback j =>
    by_cases hpending : s.pending j = true
    · by_cases hdelivers : s.receiver.Delivers config.toConfig j
      · exact h.callback hcallbacks (hhalf.calls config.streamRxBufferCap_lt
          (hbefore ⟨hpending, hdelivers⟩).2) hpending hanswers
      · rw [step_callback_pending hpending, Receiver.readable_of_not_delivers hdelivers]
        exact ⟨h.serves, h.refused⟩
    · rwa [step_callback_idle hpending]

end Serving

/-- In a run in which no callback comes behind the end of a stream, none adds `read_len` a second
    time and each RPC of the stream can be answered, the callbacks of a stream do not fail, if the
    peer sends well-formed frames. -/
theorem run_halfCloses (config : RouterConfig) (hcallbacks : CallbacksSucceed config.toConfig)
    {actions : List ReadinessAction} {i : Nat} (hi : i < config.capacity.maxStreams)
    (h : RunMeets (step config.toConfig) (fun s action =>
      s.BeforeEnd config.toConfig action ∧ s.Answers config.toConfig i action)
      (init config.toConfig) actions) {bodies : List Bytes} {rest : Bytes}
    (hbodies : ∀ body ∈ bodies, body.length ≤ config.limits.maxRpcBytes ∧ body.length < 2 ^ 63) :
    let s := runFrom (step config.toConfig) (init config.toConfig) actions
    (s.input i).quic.remoteReset = false →
      (s.receiver.log i).received ++ rest = bodies.flatMap rpcFrame →
      (∀ body ∈ bodies, ∃ rpc, rpcBodyDecode (s.receiver.node.router.streams i).version
        config.limits decodeStorage body = .ok rpc) →
      (s.receiver.log i).error = none := by
  have hinv : (runFrom (step config.toConfig) (init config.toConfig) actions).HalfClosing
      config.toConfig ∧
      (runFrom (step config.toConfig) (init config.toConfig) actions).Serving config.toConfig i := by
    refine run_keeps (I := fun s : Readiness => s.HalfClosing config.toConfig ∧
      s.Serving config.toConfig i) h ⟨⟨Receiver.init_framed _ _, fun _ => fresh_orderly,
        fun i hi _ => (Receiver.init_framed config.toConfig fun _ => False).streams i hi⟩,
        ⟨⟨fun p hwriter => (nomatch hwriter), fun p hopen => nomatch hopen⟩, fun hrefused =>
          nomatch hrefused⟩⟩ ?_
    intro s action hmeets hs
    exact ⟨hs.1.step config.streamRxBufferCap_lt hmeets.1,
      hs.2.step hcallbacks hi hs.1 hmeets.1 hmeets.2⟩
  obtain ⟨hhalf, hserving⟩ := hinv
  dsimp only
  intro hreset hreceived hdecode
  cases hhalf.readable i hi hreset with
  | reading herror => exact herror
  | halted herror hhalts =>
    cases hhalts with
    | malformed _ hframes hnext =>
      have hbad := (hframes.append_input rest).parse
      rw [FrameFormat.parse_bad (FrameFormat.next_append_bad hnext rest), hreceived,
        rpcFrames_parse_flatMap hbodies] at hbad
      exact absurd (congrArg Prod.snd hbad) (by simp)
    | refused r hrefused hhanded hframes hnext =>
      obtain ⟨body, hmem, hnot⟩ := hserving.refused hrefused
      have hparse := ((hframes.snoc hnext).append_input rest).parse
      rw [hreceived, rpcFrames_parse_flatMap hbodies] at hparse
      have hbody : body ∈ bodies := by
        rw [show bodies = _ from congrArg Prod.fst hparse, List.mem_append, ← hhanded]
        exact .inl hmem
      obtain ⟨rpc, hrpc⟩ := hdecode body hbody
      exact absurd hrpc (hnot rpc)
    | unreadable _ _ _ hfalse => exact hfalse.elim

theorem run_halfCloses_halfClosing :
    ((runFrom (step RouterConfig.small.toConfig) (init RouterConfig.small.toConfig)
      halfClosing).receiver.log 0).error = none := by
  refine @run_halfCloses RouterConfig.small small_callbacks halfClosing 0 ?_ ?_ [[], [], []] [] ?_ ?_ ?_ ?_
  · decide
  · decide +kernel
  · decide
  · decide +kernel
  · decide +kernel
  · intro body hbody
    obtain rfl : body = [] := by simpa using hbody
    have hversion : ((runFrom (step RouterConfig.small.toConfig) (init RouterConfig.small.toConfig)
        halfClosing).receiver.node.router.streams 0).version = .v11 := by
      decide +kernel
    rw [hversion]
    exact ⟨_, rfl⟩

/-- As `halfClosing`, with the two events taken one after the other: the second callback finds the
    stream at its end. -/
def halfClosedTwice : List ReadinessAction :=
  [.node (openInput 1) (openInput_isReceive 1) ⟨[], .fresh⟩ Host.QuicStream.fresh_orderly 0,
   .arrive 0 [0] false, .arrive 0 [] true, .event 0, .callback 0, .event 0, .callback 0]

theorem run_halfCloses_fails :
    let s := runFrom (step RouterConfig.small.toConfig) (init RouterConfig.small.toConfig)
      halfClosedTwice
    (s.input 0).quic.remoteReset = false ∧ (s.receiver.log 0).received = [[]].flatMap rpcFrame ∧
      (s.receiver.log 0).refused = false ∧ (s.receiver.log 0).error = some .host := by
  decide +kernel

end Readiness

end LeanLibp2p.Gossipsub

import LeanLibp2p.Host.Reports
import LeanLibp2p.Host.Script

/-!
# Connection slots

A connection slot is taken for a connection, closed with a CONN_CLOSED event, and cleared once the
application has seen that event and nothing refers to the connection any more.
-/

namespace LeanLibp2p.Host

open LeanLibp2p.Lib

variable {τ : Type} {config : HostConfig τ} {host host' : LeanLibp2p.Host} {notes : List Note}

/-! ## Lives -/

/-- The life of a connection slot. -/
inductive ConnLife where
  | free
  | opened
  /-- The CONN_CLOSED event is queued. -/
  | closing
  | closed
  deriving DecidableEq, Repr

/-- Where a connection slot is. -/
def connLife (conn : Conn) : ConnLife :=
  if conn.active = false then .free
  else if conn.closed = false then .opened
  else if conn.closeEventPending then .closing
  else .closed

/-- What is seen of a connection slot. -/
inductive ConnNote where
  | allocated
  | reported
  | seen
  | cleared
  deriving DecidableEq, Repr

/-- A slot is cleared only when its CONN_CLOSED event was seen, and taken only when it was cleared. -/
def ConnLife.next : ConnLife → ConnNote → Option ConnLife
  | .free, .allocated => some .opened
  | .opened, .reported => some .closing
  | .closing, .seen => some .closed
  | .closed, .cleared => some .free
  | _, _ => none

/-- What a note says of a connection slot. -/
def connKind (i : Nat) : Note → Option ConnNote
  | .connAllocated i' => if i' = i then some .allocated else none
  | .connCleared _ i' => if i' = i then some .cleared else none
  | .pushed _ event => if event.closedConn? = some i then some .reported else none
  | .popped event => if event.closedConn? = some i then some .seen else none
  | _ => none

/-- A note about connection slots. -/
def Note.tellsConn : Note → Bool
  | .connAllocated .. | .connCleared .. => true
  | .pushed _ event => event.closedConn?.isSome
  | .popped event => event.closedConn?.isSome
  | _ => false

theorem connKind_silent (i : Nat) (n : Note) (h : n.tellsConn = false) : connKind i n = none := by
  have hevent : ∀ event : HostEvent, event.closedConn?.isSome = false →
      event.closedConn? ≠ some i := by
    intro event hnone hsome
    rw [hsome] at hnone
    cases hnone
  cases n with
  | pushed k event => exact if_neg (hevent event h)
  | popped event => exact if_neg (hevent event h)
  | connAllocated => cases h
  | connCleared => cases h
  | _ => rfl

/-! ## Steps -/

/-- The lives of the connection slots are those before, but for one. -/
def ConnsAfter (host : LeanLibp2p.Host) (i? : Option Nat) (life : ConnLife)
    (host' : LeanLibp2p.Host) : Prop :=
  ∀ i, connLife (host'.conns i) = if i? = some i then life else connLife (host.conns i)

/-- What a step does to the connection slots. -/
inductive ConnTells (host : LeanLibp2p.Host) : List Note → LeanLibp2p.Host → Prop where
  | nothing {host' : LeanLibp2p.Host} (hconns : ConnsAfter host none .free host') :
    ConnTells host [] host'
  | allocates {host' : LeanLibp2p.Host} {i : Nat} (hlife : connLife (host.conns i) = .free)
      (hconns : ConnsAfter host (some i) .opened host') :
    ConnTells host [.connAllocated i] host'
  | closes {host' k : LeanLibp2p.Host} {i : Nat} {event : HostEvent}
      (hevent : event.closedConn? = some i) (hlife : connLife (host.conns i) = .opened)
      (hconns : ConnsAfter host (some i) .closing host') :
    ConnTells host [.pushed k event] host'
  | handsOver {host' : LeanLibp2p.Host} {i : Nat} {event : HostEvent}
      (hevent : event.closedConn? = some i) (hlife : connLife (host.conns i) = .closing)
      (hconns : ConnsAfter host (some i) .closed host') :
    ConnTells host [.popped event] host'
  | clears {host' : LeanLibp2p.Host} {i : Nat} (hidle : Idle (host.conns i))
      (hconns : ConnsAfter host (some i) .free host') :
    ConnTells host [.connCleared host i] host'

theorem connLife_of_idle {conn : Conn} (h : Idle conn) : connLife conn = .closed := by
  unfold connLife
  rw [h.1, h.2.1, h.2.2.1]
  rfl

theorem ConnsAfter.of_flags {life : ConnLife} (h : SameFlags host host') :
    ConnsAfter host none life host' := by
  intro i
  unfold connLife
  rw [(h i).1, (h i).2.1, (h i).2.2, if_neg (show none ≠ some i by rintro ⟨⟩)]

theorem ConnsAfter.of_update {i : Nat} {conn : Conn} {life : ConnLife}
    (h : ∀ j, host'.conns j = Function.update host.conns i conn j) (hlife : connLife conn = life) :
    ConnsAfter host (some i) life host' := by
  intro j
  rw [h]
  by_cases heq : j = i
  · rw [heq, Function.update_self, if_pos rfl, hlife]
  · rw [Function.update_of_ne heq, if_neg fun hsome => heq (Option.some.inj hsome).symm]

/-- A step that does nothing to them. -/
theorem ConnTells.of_flags {told : List Note} (htold : told = []) (h : SameFlags host host') :
    ConnTells host told host' := by
  rw [htold]
  exact .nothing (.of_flags h)

theorem SameFlags.refl : SameFlags host host := fun _ => ⟨rfl, rfl, rfl⟩

/-- A call of a protocol does nothing to the connection slots. -/
theorem tellsConn_of_called {s : Nat} {callback : Callback} (notes' : List Note)
    (hnotes : notes = [] ∨ ∃ res, notes = [.called s callback res]) :
    (notes ++ notes').filter Note.tellsConn = notes'.filter Note.tellsConn := by
  rcases hnotes with rfl | ⟨res, rfl⟩
  · rfl
  · rfl

/-- What a step does to the connection slots. -/
theorem HostStep.tellsConn (hstep : HostStep config host notes host')
    (h : Consistent config host) : ConnTells host (notes.filter Note.tellsConn) host' := by
  cases hstep with
  | cursors => exact .of_flags rfl .refl
  | streamData => exact .of_flags rfl .refl
  | openData => exact .of_flags rfl .refl
  | takes => exact .of_flags rfl .refl
  | readable => exact .of_flags rfl .refl
  | @establishes host₁ host₂ k conn i userData userData' attempt dial notes hslot hdial huserData =>
    have hnotes : (Note.took host (.connEstablished conn attempt userData) :: notes ++
        [Note.pushed k (.connEstablished i dial userData')]).filter Note.tellsConn =
          notes.filter Note.tellsConn := by
      show (notes ++ _).filter Note.tellsConn = _
      rw [List.filter_append]
      exact List.append_nil _
    have hconns : (pushEvent (.connEstablished i dial userData') host₂).conns = host₁.conns := by
      cases hdial <;> rfl
    rw [hnotes]
    cases hslot with
    | known =>
      refine .of_flags rfl fun j => ?_
      rw [hconns]
      exact ⟨rfl, rfl, rfl⟩
    | new hnone hfree =>
      have hinactive : (host.conns i).active = false := by simpa using (findSlot_some hfree).2
      refine .allocates (if_pos hinactive) (@ConnsAfter.of_update host _ i
        { transportConn := conn, active := true } _ (fun j => ?_) rfl)
      rw [hconns]
      rfl
  | dialFails => exact .of_flags rfl .refl
  | accepts => exact .of_flags rfl (@sameFlags_setConn host _ _ rfl rfl rfl)
  | calls hopen hrole hreadable hnotes =>
    refine .of_flags ?_ .refl
    split at hnotes
    · rw [hnotes]
      rfl
    · rw [hnotes]
      rfl
  | ends hopen hnotes =>
    rw [h.drop_opened hopen]
    refine .of_flags ?_ (@sameFlags_setConn host _ _ rfl rfl rfl)
    rcases hnotes with rfl | ⟨-, kind, res, rfl⟩
    · rfl
    · rfl
  | waits => exact .of_flags rfl (@sameFlags_setConn host _ _ rfl rfl rfl)
  | opensNothing => exact .of_flags rfl .refl
  | starts _ hhost₁ =>
    subst hhost₁
    exact .of_flags rfl (@sameFlags_setConn host _ _ rfl rfl rfl)
  | @opensAtOnce host₁ host₂ k o conn protocol userData _ _ fallbackProtocol _ _ _ hhost₁ hhost₂ =>
    have hwait : SameFlags host host₁ := by
      subst hhost₁
      exact @sameFlags_setConn host _ _ rfl rfl rfl
    subst hhost₂
    exact .of_flags rfl (hwait.trans (@sameFlags_setConn host₁ _ _ rfl rfl rfl))
  | openFails _ hhost₁ =>
    subst hhost₁
    exact .of_flags rfl .refl
  | completesInbound => exact .of_flags rfl .refl
  | completesOutbound => exact .of_flags rfl .refl
  | failsInbound _ hdirection hnotes =>
    rw [h.drop_inbound hdirection]
    refine .of_flags ?_ (@sameFlags_setConn host _ _ rfl rfl rfl)
    rcases hnotes with rfl | ⟨e, rfl⟩
    · rfl
    · rfl
  | failsOutbound _ _ hattempt hnotes =>
    rw [drop_evented hattempt, tellsConn_of_called _ (hnotes.imp_right fun ⟨e, he⟩ => ⟨_, he⟩)]
    exact .of_flags rfl (@sameFlags_setConn host _ _ rfl rfl rfl)
  | @connCloses k i _ _ reason hactive hopen =>
    refine .closes rfl ?_ (.of_update (fun _ => rfl) ?_)
    · unfold connLife
      rw [hactive, hopen]
      rfl
    · unfold connLife
      rw [hactive]
      rfl
  | recycles hidle => exact .clears hidle (.of_update (fun _ => rfl) rfl)
  | @cancelsWaiting o hwaits => exact .of_flags rfl (sameFlags_openRelease o)
  | @cancelsStream o s =>
    rw [drop_cancelled]
    refine .of_flags rfl (SameFlags.trans ?_ (sameFlags_openRelease o))
    exact @sameFlags_setConn host ((updateStream s (fun stream =>
      { stream with openAttempt := none }) host).streams s).conn _ rfl rfl rfl
  | @pops event events hqueue =>
    have hpopped := h.popped hqueue
    have hmem : event ∈ host.events := by rw [hqueue]; exact List.mem_cons_self
    have hsame : SameFlags host (releaseEvent event { host with events := events }) := fun i =>
      ⟨(hpopped.conns i).2.2, (hpopped.conns i).2.1, (hpopped.conns i).1⟩
    cases hevent : event.closedConn? with
    | none =>
      refine .of_flags ?_ hsame
      exact List.filter_cons_of_neg (by show event.closedConn?.isSome ≠ true; rw [hevent]; rintro ⟨⟩)
    | some i =>
      have hnotes : [Note.popped event].filter Note.tellsConn = [.popped event] :=
        List.filter_cons_of_pos (by show event.closedConn?.isSome = true; rw [hevent]; rfl)
      have hpending := h.closeEvents.tracks.of_mem hmem hevent
      have hclosed := h.closeEvents.closed i hpending
      have hactive := h.closeEvents.active i hclosed
      rw [hnotes]
      refine .handsOver hevent ?_ fun j => ?_
      · unfold connLife
        rw [hactive, hclosed, hpending]
        rfl
      · let rest := releaseEvent event { host with events := events }
        show connLife (Function.update rest.conns i
          { rest.conns i with closeEventPending := false } j) = _
        by_cases heq : j = i
        · rw [heq, Function.update_self, if_pos rfl]
          unfold connLife
          dsimp only
          rw [(hsame i).2.1, (hsame i).2.2, hactive, hclosed]
          rfl
        · rw [Function.update_of_ne heq, if_neg fun hsome => heq (Option.some.inj hsome).symm]
          unfold connLife
          rw [(hsame j).1, (hsame j).2.1, (hsame j).2.2]
  | dials => exact .of_flags rfl .refl
  | dialsNothing => exact .of_flags rfl .refl
  | shuts => exact .of_flags rfl .refl
  | asks => exact .of_flags rfl (@sameFlags_setConn host _ _ rfl rfl rfl)
  | closeReturns => exact .of_flags rfl .refl
  | completes => exact .of_flags rfl .refl

/-- The life of a connection slot. -/
theorem ConnTells.reads (h : ConnTells host notes host') (i : Nat) :
    Reads (connKind i) ConnLife.next (connLife (host.conns i)) notes (connLife (host'.conns i)) := by
  have hne : ∀ j life life', j ≠ i → (if some j = some i then life else life') =
      (life' : ConnLife) := fun j _ _ hji => if_neg fun hsome => hji (Option.some.inj hsome)
  cases h with
  | nothing hconns =>
    rw [hconns i, if_neg (by rintro ⟨⟩)]
    exact .quiet (by rintro n ⟨⟩)
  | @allocates _ j hlife hconns =>
    rw [hconns i]
    refine .of_slot (j = i) rfl ?_ (hne j _ _)
    rintro rfl
    rw [hlife, if_pos rfl]
    rfl
  | @closes _ k j event hevent hlife hconns =>
    rw [hconns i, ← hevent]
    refine .of_slot (event.closedConn? = some i) rfl (fun habout => ?_) fun hnot => if_neg hnot
    cases Option.some.inj (hevent.symm.trans habout)
    rw [hlife, if_pos habout]
    rfl
  | @handsOver _ j event hevent hlife hconns =>
    rw [hconns i, ← hevent]
    refine .of_slot (event.closedConn? = some i) rfl (fun habout => ?_) fun hnot => if_neg hnot
    cases Option.some.inj (hevent.symm.trans habout)
    rw [hlife, if_pos habout]
    rfl
  | @clears _ j hidle hconns =>
    rw [hconns i]
    refine .of_slot (j = i) rfl ?_ (hne j _ _)
    rintro rfl
    rw [connLife_of_idle hidle, if_pos rfl]
    rfl

/-- Only an idle connection slot is cleared. -/
theorem HostStep.clears_idle (hstep : HostStep config host notes host') (h : Consistent config host)
    {k : LeanLibp2p.Host} {i : Nat} (hn : .connCleared k i ∈ notes) : Idle (k.conns i) := by
  have hfilter : Note.connCleared k i ∈ notes.filter Note.tellsConn :=
    List.mem_filter.mpr ⟨hn, rfl⟩
  have htells := hstep.tellsConn h
  generalize notes.filter Note.tellsConn = told at hfilter htells
  cases htells with
  | nothing => cases hfilter
  | clears hidle =>
    cases List.mem_singleton.mp hfilter
    exact hidle
  | _ => cases List.mem_singleton.mp hfilter

/-! ## References -/

/-- `host_stream_alloc` fails only when the connection is at its limit. An open that is being set up
    does not matter. -/
theorem hostStreamAlloc_error (h : Consistent config host) {w w' : World τ}
    {conn transportStream : Nat} {direction : Direction} {protocol openAttempt : Option Nat}
    {e : HostErr} (hstreams : w.host.streams = host.streams)
    (hcount : (w.host.conns conn).streamCount = (host.conns conn).streamCount)
    (hactive : (host.conns conn).active = true)
    (hrun : hostStreamAlloc config conn transportStream direction protocol openAttempt w =
      (.error e, w')) :
    e = .limit ∧ (host.conns conn).streamCount = config.maxStreamsPerConn := by
  rcases hostStreamAlloc_cases config conn transportStream direction protocol openAttempt w with
    ⟨hlimit, hfull⟩ | ⟨s, -, -, hok⟩
  · cases hlimit.symm.trans hrun
    refine ⟨rfl, ?_⟩
    rcases hfull with hfull | hnone
    · rw [hcount] at hfull
      exact Nat.le_antisymm (h.counted.streamLimit conn) hfull
    · by_contra hless
      obtain ⟨s, hs⟩ := h.counted.exists_freeStream hactive
        (Nat.lt_of_le_of_ne (h.counted.streamLimit conn) hless)
      unfold freeStream at hnone hs
      rw [hstreams, hs] at hnone
      cases hnone
  · cases hok.symm.trans hrun

/-- The references to connections in every state of a run, also inside of a call: the counts of a
    connection are the numbers of its streams and opens, streams and opens point to slots in use, and a
    stream finds a slot unless its connection is at its limit. A slot is taken, closed with its event,
    seen and cleared, in this order, and it is idle when it is cleared. -/
theorem references_counted (config : HostConfig τ) (env : τ) (calls : List (HostCall τ))
    {host : LeanLibp2p.Host} {inside : List Note}
    (hinside : Lib.Path (HostStep config) (hostRun config env calls).host inside host) :
    (∀ i, (host.conns i).streamCount = refs config.streamCapacity streamConn host.streams i ∧
        (host.conns i).openCount = refs config.maxPendingStreamOpens openConn host.opens i) ∧
      (∀ s, (host.streams s).state ≠ .free → s < config.streamCapacity ∧
        (host.conns (host.streams s).conn).active = true) ∧
      (∀ o, (host.opens o).state ≠ .free → o < config.maxPendingStreamOpens ∧
        (host.conns (host.opens o).conn).active = true) ∧
      (∀ i, Reads (connKind i) ConnLife.next .free ((hostRun config env calls).trace ++ inside)
        (connLife (host.conns i))) ∧
      (∀ k i, Note.connCleared k i ∈ (hostRun config env calls).trace ++ inside →
        Idle (k.conns i)) ∧
      ∀ (w w' : World τ) conn transportStream direction protocol openAttempt e,
        w.host.streams = host.streams →
        (w.host.conns conn).streamCount = (host.conns conn).streamCount →
        (host.conns conn).active = true →
        hostStreamAlloc config conn transportStream direction protocol openAttempt w =
          (.error e, w') →
        e = .limit ∧ (host.conns conn).streamCount = config.maxStreamsPerConn := by
  have hpath := (hostRun_path config env calls).append hinside
  have hkeeps : ∀ host notes host', Consistent config host → HostStep config host notes host' →
      Consistent config host' := fun _ _ _ hhost hstep => hstep.consistent hhost
  have hconsistent := hpath.keeps hkeeps .started
  have hcounted := hconsistent.counted
  refine ⟨fun i => ⟨hcounted.streamCount i, hcounted.openCount i⟩,
    fun s hs => ⟨hcounted.streamSlot s hs, hcounted.streamActive s hs⟩,
    fun o ho => ⟨hcounted.openSlot o ho, hcounted.openActive o ho⟩, fun i => ?_, ?_, ?_⟩
  · have hstep : ∀ host notes host', Consistent config host → HostStep config host notes host' →
        (∀ n ∈ notes, True) → Reads (connKind i) ConnLife.next (connLife (host.conns i)) notes
          (connLife (host'.conns i)) := fun _ _ _ hhost hstep _ =>
      .of_filter (connKind_silent i) ((hstep.tellsConn hhost).reads i)
    exact Lib.Path.reads (fun s n s' hs h _ => hkeeps s n s' hs h) hstep hpath .started fun _ _ => trivial
  · intro k i hn
    exact hpath.notes_meet hkeeps (C := fun n => ∀ k i, n = .connCleared k i → Idle (k.conns i))
      (fun _ _ _ hhost hstep n hn k i hki => hstep.clears_idle hhost (hki ▸ hn)) .started _ hn k i rfl
  · intro w w' conn transportStream direction protocol openAttempt e hstreams hcount hactive hrun
    exact hostStreamAlloc_error hconsistent hstreams hcount hactive hrun

/-- A connection and a stream come in. -/
def narrowCalls : List (HostCall Script) :=
  [.outside { events := [.connEstablished 1 none 0, .streamIncoming 1 7] }, .drive 0 0]

theorem references_counted_full :
    ((hostRun Script.narrow {} narrowCalls).host.conns 0).streamCount =
        refs Script.narrow.streamCapacity streamConn (hostRun Script.narrow {} narrowCalls).host.streams
          0 ∧
      HostErr.limit = .limit ∧
      ((hostRun Script.narrow {} narrowCalls).host.conns 0).streamCount =
        Script.narrow.maxStreamsPerConn := by
  have hcounted := references_counted Script.narrow {} narrowCalls (.nil _)
  have hfull : Script.narrow.maxStreamsPerConn ≤
      ((hostRun Script.narrow {} narrowCalls).host.conns 0).streamCount := by decide +kernel
  refine ⟨(hcounted.1 0).1, ?_⟩
  refine hcounted.2.2.2.2.2 (hostRun Script.narrow {} narrowCalls)
    (hostRun Script.narrow {} narrowCalls) 0 8 .inbound none none .limit rfl rfl ?_ ?_
  · decide +kernel
  · unfold hostStreamAlloc
    rw [Comp.read_id_bind, if_pos hfull]
    rfl

end LeanLibp2p.Host

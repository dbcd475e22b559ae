import LeanLibp2p.Host.Drive
import LeanLibp2p.Lib.Trace

/-!
# Steps of the host

What the host does, as a transition system over its tables: every function of the host is a sequence
of these steps. A step is the smallest change after which the tables fit together again, with the
notes that it leaves.
-/

namespace LeanLibp2p.Host

open LeanLibp2p.Lib

/-- The streams stand for the same thing in the tables. -/
structure Stream.SameRole (stream stream' : Stream) : Prop where
  conn : stream'.conn = stream.conn
  transportStream : stream'.transportStream = stream.transportStream
  openAttempt : stream'.openAttempt = stream.openAttempt
  state : stream'.state = stream.state
  direction : stream'.direction = stream.direction
  openEventQueued : stream'.outboundOpenEventQueued = stream.outboundOpenEventQueued
  failEventQueued : stream'.outboundFailEventQueued = stream.outboundFailEventQueued
  /-- The protocol is settled once the stream is open. -/
  protocol : stream.state = .opened → stream'.protocol = stream.protocol

/-- An event is queued. -/
def pushEvent (event : HostEvent) (host : LeanLibp2p.Host) : LeanLibp2p.Host :=
  { host with events := host.events ++ [event] }

/-- The slot of an established connection, with what is noted when it is new. -/
inductive ConnSlot {τ : Type} (config : HostConfig τ) (transportConn : Nat)
    (host : LeanLibp2p.Host) : Nat → List Note → LeanLibp2p.Host → Prop where
  | known {i : Nat} (h : hostConnFind config transportConn host = some i) :
    ConnSlot config transportConn host i [] host
  | new {i : Nat} (h : hostConnFind config transportConn host = none)
      (hfree : freeConn config host = some i) :
    ConnSlot config transportConn host i [.connAllocated i]
      (setConn i { transportConn := transportConn, active := true } host)

/-- An established connection answers a dial, or none. -/
inductive DialSlot {τ : Type} (config : HostConfig τ) (attempt : Nat) (host : LeanLibp2p.Host) :
    Option Nat → LeanLibp2p.Host → Prop where
  | found {d : Nat} (h : hostDialFind config attempt host = some d) :
    DialSlot config attempt host (some d) (hostDialMarkEvented d host)
  | none (h : hostDialFind config attempt host = none) : DialSlot config attempt host none host

/-- The report of a dial that failed, or whose connection closed before it was established. -/
def DialReport {τ : Type} (config : HostConfig τ) (host : LeanLibp2p.Host) (d : Nat) :
    TransportEvent → Prop
  | .dialFailed attempt .. => hostDialFind config attempt host = some d
  | .connClosed conn attempt .. =>
    hostConnFind config conn host = none ∧ hostDialFind config (attempt.getD conn) host = some d
  | _ => False

/-- Taking the event of the transport changes nothing by itself. -/
def Passes {τ : Type} (config : HostConfig τ) (host : LeanLibp2p.Host) : TransportEvent → Prop
  | .connEstablished conn .. =>
    hostConnFind config conn host = none ∧ freeConn config host = none
  | .connClosed conn attempt .. =>
    hostConnFind config conn host ≠ none ∨ hostDialFind config (attempt.getD conn) host = none
  | .dialFailed attempt .. => hostDialFind config attempt host = none
  | .streamReadable stream => hostStreamFind config stream host = none
  | _ => True

/-- One step, from the tables before it to those after it. -/
inductive HostStep {τ : Type} (config : HostConfig τ) :
    LeanLibp2p.Host → List Note → LeanLibp2p.Host → Prop where
  /-- A loop looks at the next slot. -/
  | cursors (host : LeanLibp2p.Host) (openCursor negotiationCursor protocolCursor : Nat) :
    HostStep config host []
      { host with
        openCursor := openCursor
        negotiationCursor := negotiationCursor
        protocolCursor := protocolCursor }
  /-- A stream in use is negotiated, read or marked. -/
  | streamData {host : LeanLibp2p.Host} {s : Nat} {stream : Stream}
      (hused : (host.streams s).state ≠ .free) (hrole : (host.streams s).SameRole stream)
      (hreadable : stream.pendingReadable = (host.streams s).pendingReadable) :
    HostStep config host [] (setStream s stream host)
  /-- An open falls back. -/
  | openData {host : LeanLibp2p.Host} {o protocol : Nat} {fallbackProtocol : Option Nat}
      (hused : (host.opens o).state = .negotiating) :
    HostStep config host [] (setOpen o
      { host.opens o with protocol := protocol, fallbackProtocol := fallbackProtocol } host)
  /-- An event of the transport is taken. -/
  | takes {host : LeanLibp2p.Host} {event : TransportEvent} (hpasses : Passes config host event) :
    HostStep config host [.took host event] host
  | readable {host : LeanLibp2p.Host} {transportStream s : Nat}
      (hfound : hostStreamFind config transportStream host = some s) :
    HostStep config host [.took host (.streamReadable transportStream)]
      (updateStream s (fun stream => { stream with pendingReadable := true }) host)
  | establishes {host host' host'' k : LeanLibp2p.Host} {conn i userData userData' : Nat}
      {attempt dial : Option Nat} {notes : List Note}
      (hslot : ConnSlot config conn host i notes host')
      (hdial : DialSlot config (attempt.getD conn) host' dial host'')
      (huserData : ∀ d, dial = some d → userData' = (host.dials d).userData) :
    HostStep config host
      (.took host (.connEstablished conn attempt userData) :: notes ++
        [.pushed k (.connEstablished i dial userData')])
      (pushEvent (.connEstablished i dial userData') host'')
  | dialFails {host k : LeanLibp2p.Host} {event : TransportEvent} {d : Nat} {reason : HostErr}
      {appErrorCode transportErrorCode : Nat} (hreport : DialReport config host d event) :
    HostStep config host
      [.took host event, .pushed k (.dialFailed d (host.dials d).userData reason appErrorCode
        transportErrorCode)]
      (pushEvent (.dialFailed d (host.dials d).userData reason appErrorCode transportErrorCode)
        (hostDialMarkEvented d host))
  | accepts {host : LeanLibp2p.Host} {conn transportStream i s : Nat}
      (hconn : hostConnFind config conn host = some i) (hopen : (host.conns i).closed = false)
      (hcount : (host.conns i).streamCount < config.maxStreamsPerConn)
      (hfree : freeStream config host = some s) :
    HostStep config host
      [.took host (.streamIncoming conn transportStream), .streamAllocated host s]
      (setConn i { host.conns i with streamCount := (host.conns i).streamCount + 1 }
        (setStream s (freshStream i transportStream .inbound none none host) host))
  /-- A protocol is called for an open stream, which stays open; a callback that is not set counts as
      one that does nothing. -/
  | calls {host : LeanLibp2p.Host} {s : Nat} {kind : EventKind} {stream : Stream} {notes : List Note}
      (hopen : (host.streams s).state = .opened) (hrole : (host.streams s).SameRole stream)
      (hreadable : stream.pendingReadable =
        if kind = .readable then false else (host.streams s).pendingReadable)
      (hnotes : if ((streamProtocol config (host.streams s)).bind Protocol.onEvent).isSome then
          notes = [.called s (.onEvent kind) (.ok ())]
        else notes = []) :
    HostStep config host notes (setStream s stream host)
  /-- An open stream is released behind a callback. -/
  | ends {host : LeanLibp2p.Host} {s : Nat} {notes : List Note}
      (hopen : (host.streams s).state = .opened)
      (hnotes : notes = [] ∨
        ((streamProtocol config (host.streams s)).bind Protocol.onEvent).isSome ∧
          ∃ kind res, notes = [.called s (.onEvent kind) res]) :
    HostStep config host (notes ++ [.streamReleased s]) (hostStreamDrop s host)
  /-- The application opens a stream, and the transport has none yet. -/
  | waits {host : LeanLibp2p.Host} {o conn protocol userData : Nat} {fallbackProtocol : Option Nat}
      (hfree : freeOpen config host = some o) (hconn : (host.conns conn).active = true)
      (hopen : (host.conns conn).closed = false) :
    HostStep config host [.opened o userData]
      (waitOpen o conn protocol fallbackProtocol userData host)
  /-- The transport refuses the stream. -/
  | opensNothing {host : LeanLibp2p.Host} {o : Nat} (hfree : (host.opens o).state = .free) :
    HostStep config host [] (setOpen o {} host)
  /-- The transport has a stream for an open that waits. -/
  | starts {host host' k : LeanLibp2p.Host} {o transportStream s : Nat}
      (hwaits : (host.opens o).state = .waitTransport)
      (hhost' : host' = startOpen o transportStream host)
      (hcount : (host.conns (host.opens o).conn).streamCount < config.maxStreamsPerConn)
      (hfree : freeStream config host = some s) (hevents : k.events = host.events) :
    HostStep config host [.streamAllocated k s]
      (setConn (host.opens o).conn
        { host.conns (host.opens o).conn with
          streamCount := (host.conns (host.opens o).conn).streamCount + 1 }
        (setStream s (freshStream (host.opens o).conn transportStream .outbound
          (some (host.opens o).protocol) (some o) host') host'))
  /-- The two together. -/
  | opensAtOnce {host host' host'' k : LeanLibp2p.Host}
      {o conn protocol userData transportStream s : Nat} {fallbackProtocol : Option Nat}
      (hfree : freeOpen config host = some o) (hconn : (host.conns conn).active = true)
      (hopen : (host.conns conn).closed = false)
      (hhost' : host' = waitOpen o conn protocol fallbackProtocol userData host)
      (hhost'' : host'' = startOpen o transportStream host')
      (hcount : (host.conns conn).streamCount < config.maxStreamsPerConn)
      (hstream : freeStream config host = some s) (hevents : k.events = host.events) :
    HostStep config host [.streamAllocated k s, .opened o userData]
      (setConn conn
        { host''.conns conn with streamCount := (host''.conns conn).streamCount + 1 }
        (setStream s (freshStream conn transportStream .outbound (some protocol) (some o) host'')
          host''))
  /-- An open ends before it has a stream. -/
  | openFails {host host' k : LeanLibp2p.Host} {o transportStream : Nat} {reason : HostErr}
      (hwaits : (host.opens o).state = .waitTransport)
      (hhost' : host' = setOpen o
        { host.opens o with transportStream := transportStream, state := .evented } host) :
    HostStep config host
      [.pushed k (.streamOpenFailed (host.opens o).conn (some o) (host.opens o).userData reason 0 0)]
      (pushEvent
        (.streamOpenFailed (host.opens o).conn (some o) (host.opens o).userData reason 0 0) host')
  /-- A protocol accepts an inbound stream. -/
  | completesInbound {host : LeanLibp2p.Host} {s : Nat} {stream : Stream}
      (hnegotiating : (host.streams s).state = .negotiating)
      (hdirection : (host.streams s).direction = .inbound)
      (hrole : ({ host.streams s with state := .opened } : Stream).SameRole
        { stream with protocol := (host.streams s).protocol })
      (hreadable : stream.pendingReadable = true) :
    HostStep config host [.called s .onOpen (.ok ())] (setStream s stream host)
  /-- A protocol accepts an outbound stream, whose open is answered. -/
  | completesOutbound {host k : LeanLibp2p.Host} {s o : Nat} {stream : Stream}
      (hnegotiating : (host.streams s).state = .negotiating)
      (hdirection : (host.streams s).direction = .outbound)
      (hattempt : (host.streams s).openAttempt = some o)
      (hrole : ({ host.streams s with state := .opened, outboundOpenEventQueued := true } :
        Stream).SameRole { stream with protocol := (host.streams s).protocol })
      (hreadable : stream.pendingReadable = true) :
    HostStep config host
      [.called s .onOpen (.ok ()),
        .pushed k (.streamOpened (host.streams s).conn s (some o) (host.opens o).userData)]
      (pushEvent (.streamOpened (host.streams s).conn s (some o) (host.opens o).userData)
        (setStream s stream (setOpenState o .evented host)))
  /-- A negotiation ends without a protocol, or with one that refuses the stream. -/
  | failsInbound {host : LeanLibp2p.Host} {s : Nat} {notes : List Note}
      (hnegotiating : (host.streams s).state = .negotiating)
      (hdirection : (host.streams s).direction = .inbound)
      (hnotes : notes = [] ∨ ∃ e, notes = [.called s .onOpen (.error e)]) :
    HostStep config host (notes ++ [.streamReleased s]) (hostStreamDrop s host)
  | failsOutbound {host k : LeanLibp2p.Host} {s o : Nat} {notes : List Note} {reason : HostErr}
      {appErrorCode transportErrorCode : Nat}
      (hnegotiating : (host.streams s).state = .negotiating)
      (hdirection : (host.streams s).direction = .outbound)
      (hattempt : (host.streams s).openAttempt = some o)
      (hnotes : notes = [] ∨ ∃ e, notes = [.called s .onOpen (.error e)]) :
    HostStep config host
      (notes ++ [.pushed k (.streamOpenFailed (host.streams s).conn (some o) (host.opens o).userData
        reason appErrorCode transportErrorCode), .streamReleased s])
      (hostStreamDrop s (pushEvent (.streamOpenFailed (host.streams s).conn (some o)
        (host.opens o).userData reason appErrorCode transportErrorCode)
        (setOpenState o .evented host)))
  /-- A connection is closed. -/
  | connCloses {host k : LeanLibp2p.Host} {i appErrorCode transportErrorCode : Nat}
      {reason : Option HostErr} (hactive : (host.conns i).active = true)
      (hopen : (host.conns i).closed = false)
      (hstreams : ∀ s, (host.streams s).conn = i → (host.streams s).state ≠ .negotiating)
      (hopens : ∀ o, (host.opens o).conn = i → (host.opens o).state ≠ .waitTransport) :
    HostStep config host
      [.pushed k (.connClosed i reason (host.conns i).localCloseRequested appErrorCode
        transportErrorCode)]
      (pushEvent (.connClosed i reason (host.conns i).localCloseRequested appErrorCode
        transportErrorCode)
        (setConn i { host.conns i with closed := true, closeEventPending := true } host))
  /-- A connection slot is cleared. -/
  | recycles {host : LeanLibp2p.Host} {i : Nat} (hidle : Idle (host.conns i)) :
    HostStep config host [.connCleared host i] (setConn i {} host)
  /-- The application takes an open back. -/
  | cancelsWaiting {host : LeanLibp2p.Host} {o : Nat}
      (hwaits : (host.opens o).state = .waitTransport) :
    HostStep config host [.cancelled o] (hostOpenRelease o host)
  | cancelsStream {host : LeanLibp2p.Host} {o s : Nat}
      (hopen : (host.opens o).state = .negotiating) (hused : (host.streams s).state ≠ .free)
      (hattempt : (host.streams s).openAttempt = some o) :
    HostStep config host [.streamReleased s, .cancelled o]
      (hostOpenRelease o (hostStreamDrop s
        (updateStream s (fun stream => { stream with openAttempt := none }) host)))
  /-- The application takes an event. -/
  | pops {host : LeanLibp2p.Host} {event : HostEvent} {events : List HostEvent}
      (hevents : host.events = event :: events) :
    HostStep config host [.popped event]
      (match event.closedConn? with
        | some i => setConn i
          { (releaseEvent event { host with events := events }).conns i with
            closeEventPending := false } (releaseEvent event { host with events := events })
        | none => releaseEvent event { host with events := events })
  /-- The application dials. -/
  | dials {host : LeanLibp2p.Host} {d userData attempt : Nat}
      (hfree : freeDial config host = some d) (hstarted : host.state = .started) :
    HostStep config host [.dialed d userData attempt]
      (setDial d { state := .pending, transportAttempt := attempt, userData := userData } host)
  /-- The transport refuses the dial. -/
  | dialsNothing {host : LeanLibp2p.Host} {d : Nat} (hfree : (host.dials d).state = .free) :
    HostStep config host [] (setDial d {} host)
  /-- The application closes the host, and a connection is asked to close. -/
  | shuts {host : LeanLibp2p.Host} {appErrorCode : Nat} (hstarted : host.state = .started) :
    HostStep config host []
      { host with state := .closing, closeAppErrorCode := appErrorCode }
  | asks {host : LeanLibp2p.Host} {i : Nat} (hactive : (host.conns i).active = true) :
    HostStep config host [] (setConn i { host.conns i with localCloseRequested := true } host)
  | closeReturns (host : LeanLibp2p.Host) (res : Except HostErr Unit) :
    HostStep config host [.closeReturned res] host
  /-- The shutdown is complete. -/
  | completes {host : LeanLibp2p.Host} (hclosing : host.state = .closing)
      (hqueued : host.hostClosedEventQueued = false)
      (hidle : hostHasActiveWork config host = false) :
    HostStep config host [.pushed host .hostClosed]
      { pushEvent .hostClosed host with hostClosedEventQueued := true, state := .closed }

end LeanLibp2p.Host

import LeanLibp2p.Multiaddr.Binary
import LeanLibp2p.Multiaddr.IpText
import LeanLibp2p.PeerId.Text

/-!
# Multiaddr texts

`libp2p_multiaddr_from_string` and `libp2p_multiaddr_to_string` with the values they read and write. A
peer id is read and written through arrays of a fixed size. A text is what a cursor leaves of it, and a
buffer is `none` for NULL or its length.
-/

namespace LeanLibp2p

open LeanLibp2p.Lib

/-- `LIBP2P_MULTIADDR_MAX_PEER_ID_BYTES`. -/
def multiaddrMaxPeerIdBytes : Nat := 128
/-- `LIBP2P_MULTIADDR_MAX_PEER_ID_TEXT`. -/
def multiaddrMaxPeerIdText : Nat := 192
/-- `LIBP2P_MULTIADDR_CID_VERSION_1`. -/
def multiaddrCidVersion1 : Nat := 0x01
/-- `LIBP2P_MULTIADDR_CODE_LIBP2P_KEY`. -/
def multiaddrCodeLibp2pKey : Nat := 0x72

/-! ## Peer ids -/

/-- `multiaddr_is_legacy_peer_id` (`multiaddr.c:734-753`). -/
def multiaddrIsLegacyPeerId (text : Bytes) : Bool := isLegacyText text

/-- `multiaddr_parse_legacy_peer_id` (`multiaddr.c:755-815`). -/
def parseLegacyPeerId (text : Bytes) (capacity : Nat) : Option Bytes :=
  if multiaddrMaxPeerIdText ≤ text.length then none
  else
    match (multibaseDecode (ascii 'z' :: text) capacity).1 with
    | .error _ => none
    | .ok decoded =>
      match multihashDecode decoded with
      | .error _ => none
      | .ok (_, _, read) => if read ≠ decoded.length then none else some decoded

/-- `multiaddr_parse_cid_peer_id` (`multiaddr.c:817-915`). -/
def parseCidPeerId (text : Bytes) (capacity : Nat) : Option Bytes :=
  match (multibaseDecode text multiaddrMaxPeerIdBytes).1 with
  | .error _ => none
  | .ok cid =>
    match uvarintDecode cid with
    | .error _ => none
    | .ok (version, versionRead) =>
      if version ≠ multiaddrCidVersion1 ∨ cid.length ≤ versionRead then none
      else
        match uvarintDecode (cid.drop versionRead) with
        | .error _ => none
        | .ok (codec, codecRead) =>
          let multihashOffset := versionRead + codecRead
          if codec ≠ multiaddrCodeLibp2pKey ∨ cid.length < multihashOffset then none
          else
            match multihashDecode (cid.drop multihashOffset) with
            | .error _ => none
            | .ok (_, _, read) =>
              if multihashOffset + read ≠ cid.length ∨ capacity < read then none
              else some ((cid.drop multihashOffset).take read)

/-- `multiaddr_parse_peer_id` (`multiaddr.c:917-945`). -/
def parsePeerId (text : Bytes) (capacity : Nat) : Option Bytes :=
  if multiaddrIsLegacyPeerId text then parseLegacyPeerId text capacity
  else parseCidPeerId text capacity

/-- `multiaddr_format_peer_id` (`multiaddr.c:947-989`). -/
def formatPeerId (peerId : Bytes) (capacity : Nat) : Option Bytes :=
  if multiaddrMaxPeerIdBytes < peerId.length ∨ capacity = 0 then none
  else
    match (multibaseEncodeBase58btc peerId capacity).1 with
    | .error _ => none
    | .ok encoded => if encoded.length = 0 then none else some (encoded.drop 1)

/-! ## From a text -/

/-- `multiaddr_read_text_segment` (`multiaddr.c:991-1023`): the segment and what is left. -/
def readTextSegment : Bytes → Except MultiaddrErr (Bytes × Bytes)
  | [] => .error .malformed
  | first :: text =>
    if first ≠ ascii '/' then .error .malformed
    else .ok (text.takeWhile (· ≠ ascii '/'), text.dropWhile (· ≠ ascii '/'))

/-- `multiaddr_parse_text_component` (`multiaddr.c:1025-1098`). -/
def parseTextComponent (code : Nat) (text : Bytes) : Except MultiaddrErr Bytes :=
  let value :=
    if code = multiaddrCodeIp4 then some (parseIpv4 text)
    else if code = multiaddrCodeIp6 then some (parseIpv6 text)
    else if code = multiaddrCodeUdp then
      some ((parseDecimal text 65535).map fun number =>
        [UInt8.ofNat (number >>> 8), UInt8.ofNat (number &&& 0xff)])
    else if code = multiaddrCodeP2p then some (parsePeerId text multiaddrMaxPeerIdBytes)
    else none
  match value with
  | none => .error .unsupportedProtocol
  | some none => .error .invalidValue
  | some (some value) => .ok value

/-- `multiaddr_is_ipfs_alias` (`multiaddr.c:159-171`). -/
def isIpfsAlias (name : Bytes) : Bool := name = List.map ascii ['i', 'p', 'f', 's']

/-- What a round of the loop of `libp2p_multiaddr_from_string` reads (`multiaddr.c:1652-1729`): the
    code, the value and the text that is left. -/
def readComponentText (text : Bytes) : Except MultiaddrErr (Nat × Bytes × Bytes) := do
  let (name, rest) ← readTextSegment text
  if name.length = 0 then throw .malformed
  let protocol :=
    if isIpfsAlias name then findProtocolByCode multiaddrCodeP2p else findProtocolByName name
  match protocol with
  | none => throw .unsupportedProtocol
  | some protocol =>
    if protocol.code = multiaddrCodeQuicV1 then return (protocol.code, [], rest)
    else
      let (valueText, rest) ← readTextSegment rest
      if valueText.length = 0 then throw .invalidValue
      let value ← parseTextComponent protocol.code valueText
      return (protocol.code, value, rest)

/-- The loop of `libp2p_multiaddr_from_string`, a round for each component and at least one character
    in each: `parse_result`, whether `result` is `BUF_TOO_SMALL`, what is stored, and `pos`. -/
def fromStringLoop (out : Option Nat) : (fuel : Nat) → (text : Bytes) → (small : Bool) →
    (stored : Bytes) → (pos : Nat) → Except MultiaddrErr Unit × Bool × Bytes × Nat
  | 0, _, small, stored, pos => (.error .malformed, small, stored, pos)
  | fuel + 1, text, small, stored, pos =>
    if text = [] then (.ok (), small, stored, pos)
    else
      match readComponentText text with
      | .error e => (.error e, small, stored, pos)
      | .ok (code, value, rest) =>
        let (appended, pos) := appendComponent code value (if small then none else out) pos
        match appended with
        | .ok bytes => fromStringLoop out fuel rest small (stored ++ bytes) pos
        | .error e =>
          if e = .bufTooSmall then fromStringLoop out fuel rest true stored pos
          else (.error e, small, stored, pos)

/-- `libp2p_multiaddr_from_string` (`multiaddr.c:1625-1766`). -/
def multiaddrFromString (text : Bytes) (out : Option Nat) : Except MultiaddrErr Bytes × Nat :=
  if text.head? ≠ some (ascii '/') then (.error .malformed, 0)
  else
    let (parseResult, small, stored, pos) := fromStringLoop out (text.length + 1) text false [] 0
    match parseResult with
    | .error e => (.error e, pos)
    | .ok () => if small then (.error .bufTooSmall, pos) else (.ok stored, pos)

/-! ## To a text -/

/-- The `switch` of `libp2p_multiaddr_to_string` (`multiaddr.c:1810-1879`): what follows the name of a
    component. A value that is not there is one of the wrong length. -/
def formatValue (code : Nat) (value : Bytes) : Except MultiaddrErr Bytes :=
  if code = multiaddrCodeQuicV1 then .ok []
  else if code = multiaddrCodeIp4 then
    if value.length ≠ 4 then .error .malformed else .ok (ascii '/' :: writeIpv4 value)
  else if code = multiaddrCodeIp6 then
    if value.length ≠ 16 then .error .malformed else .ok (ascii '/' :: writeIpv6 value)
  else if code = multiaddrCodeUdp then
    match value with
    | [high, low] => .ok (ascii '/' :: writeDecimal (high.toNat <<< 8 ||| low.toNat))
    | _ => .error .malformed
  else if code = multiaddrCodeP2p then
    match formatPeerId value multiaddrMaxPeerIdText with
    | none => .error .malformed
    | some text => .ok (ascii '/' :: text)
  else .error .unsupportedProtocol

/-- The loop of `libp2p_multiaddr_to_string` with the text it writes. -/
def toStringLoop : (fuel : Nat) → Bytes → (written : Bytes) → Except MultiaddrErr Unit × Bytes
  | 0, _, written => (.error .malformed, written)
  | fuel + 1, buf, written =>
    match nextComponent buf with
    | .error e => (if e = .atEnd then .ok () else .error e, written)
    | .ok (code, value, rest) =>
      match findProtocolByCode code with
      | none => (.error .unsupportedProtocol, written)
      | some protocol =>
        let written := written ++ ascii '/' :: protocol.name
        match formatValue code value with
        | .error e => (.error e, written)
        | .ok text => toStringLoop fuel rest (written ++ text)

/-- `libp2p_multiaddr_to_string` (`multiaddr.c:1768-1900`). -/
def multiaddrToString (input : Bytes) (out : Option Nat) : Except MultiaddrErr Bytes × Nat :=
  match multiaddrValidate input with
  | .error e => (.error e, 0)
  | .ok () =>
    let (result, text) := toStringLoop (input.length + 1) input []
    match result with
    | .error e => (.error e, text.length)
    | .ok () =>
      if out.all (· < text.length) then (.error .bufTooSmall, text.length)
      else (.ok text, text.length)

end LeanLibp2p

import LeanLibp2p.Lib.Comp
import LeanLibp2p.Lib.Der
import LeanLibp2p.PeerId.Key
import LeanLibp2p.Quic.Types

/-!
# Peer certificates

The verification half of `quic_identity.c`: the SignedKey payload of the libp2p extension, the
signature over the certificate's own key, and the chain of checks that ends in an authenticated peer
identity. What BoringSSL reads out of a certificate is an argument, and so is libsecp256k1. An
allocation inside the two libraries never fails.
-/

namespace LeanLibp2p.Quic

open LeanLibp2p.Lib

/-- `libp2p_quic_const_buffer_t`: a NULL pointer beside some length, or the bytes pointed to. -/
inductive ConstBuffer where
  | null (len : Nat)
  | ptr (bytes : Bytes)
  deriving DecidableEq, Repr

/-- A certificate public key, with what `i2d_PUBKEY` writes, if it does. -/
structure EvpPkey where
  spki : Option Bytes
  deriving DecidableEq, Repr

/-- An X.509 extension; data that is missing is empty. -/
structure Extension where
  oid : List Nat
  critical : Bool
  data : Bytes
  deriving DecidableEq, Repr

/-- What the X.509 library says of a parsed certificate: whether it has unique ids, its key, whether
    its subject is its issuer and whether that key verifies it, the times that `ASN1_TIME_to_posix`
    converts, `EXFLAG_INVALID` and the extensions. -/
structure X509 where
  issuerUid : Bool
  subjectUid : Bool
  publicKey : Option EvpPkey
  selfIssued : Bool
  selfSigned : Bool
  notBefore : Option Int
  notAfter : Option Int
  extensionsInvalid : Bool
  extensions : List Extension
  deriving DecidableEq, Repr

/-- `d2i_X509`: the certificate that some bytes start with, and how many of them it takes. -/
structure X509Parser where
  d2i : Bytes → Option (X509 × Nat)
  d2i_nil : d2i [] = none

/-- `LIBP2P_QUIC_TLS_PUBLIC_KEY_EXTENSION_OID`. -/
def tlsPublicKeyExtensionOid : List Nat := [1, 3, 6, 1, 4, 1, 53594, 1, 1]
/-- `LIBP2P_QUIC_TLS_HANDSHAKE_SIGNING_PREFIX`, `"libp2p-tls-handshake:"`. -/
def tlsHandshakeSigningPrefix : Bytes :=
  [108, 105, 98, 112, 50, 112, 45, 116, 108, 115, 45, 104, 97, 110, 100, 115, 104, 97, 107, 101, 58]
/-- `LIBP2P_QUIC_CERTIFICATE_DER_MAX_BYTES`. -/
def certificateDerMaxBytes : Nat := 4096
/-- `QUIC_IDENTITY_CERT_SPKI_MAX_BYTES`. -/
def certSpkiMaxBytes : Nat := 256
/-- `QUIC_IDENTITY_DER_OCTET_STRING`. -/
def derOctetString : UInt8 := 0x04
/-- `QUIC_IDENTITY_DER_SEQUENCE`. -/
def derSequence : UInt8 := 0x30

/-- A fixed array of `size` bytes with `bytes` copied to its start and zeros behind. -/
def zeroPadded (size : Nat) (bytes : Bytes) : Bytes :=
  bytes ++ List.replicate (size - bytes.length) 0

/-- `libp2p_quic_peer_identity_t`, less the host key type, of which there is one, with value zero. -/
structure PeerIdentity where
  peerId : Bytes
  peerIdLen : Nat
  hostPublicKeyMessage : Bytes
  hostPublicKeyMessageLen : Nat
  notBeforeUnixSeconds : Nat
  notAfterUnixSeconds : Nat
  deriving DecidableEq, Repr

namespace PeerIdentity

/-- The identity with a peer id, a key message and a validity. -/
def of (peerId message : Bytes) (notBefore notAfter : Nat) : PeerIdentity where
  peerId := zeroPadded peerIdMaxBytes peerId
  peerIdLen := peerId.length
  hostPublicKeyMessage := zeroPadded secp256k1PublicKeyMessageMaxBytes message
  hostPublicKeyMessageLen := message.length
  notBeforeUnixSeconds := notBefore
  notAfterUnixSeconds := notAfter

/-- `quic_identity_zero_peer_identity` (`quic_identity.c:331-337`). -/
def zero : PeerIdentity := of [] [] 0 0

end PeerIdentity

/-- `libp2p_quic_certificate_report_t`. -/
structure CertificateReport where
  selfSignatureValid : Bool := false
  libp2pExtensionPresent : Bool := false
  libp2pExtensionCritical : Bool := false
  unknownCriticalExtensionPresent : Bool := false
  subjectUniqueIdPresent : Bool := false
  issuerUniqueIdPresent : Bool := false
  deriving DecidableEq, Repr

/-- The two outputs of a verification, `none` for a NULL pointer. -/
structure VerifyOut where
  out : Option PeerIdentity
  report : Option CertificateReport
  deriving DecidableEq, Repr

namespace VerifyOut

/-- Write to the report, where there is one. -/
def note (s : VerifyOut) (f : CertificateReport → CertificateReport) : VerifyOut :=
  { s with report := s.report.map f }

/-- Write to the identity, where there is one. -/
def fill (s : VerifyOut) (identity : PeerIdentity) : VerifyOut :=
  { s with out := s.out.map fun _ => identity }

@[simp] theorem note_out (s : VerifyOut) (f : CertificateReport → CertificateReport) :
    (s.note f).out = s.out := rfl

@[simp] theorem fill_out (s : VerifyOut) (identity : PeerIdentity) :
    (s.fill identity).out = s.out.map fun _ => identity := rfl

end VerifyOut

/-- `quic_identity_peer_id_err` (`quic_identity.c:27-53`). -/
def quicIdentityPeerIdErr : PeerIdErr → QuicErr
  | .bufTooSmall => .bufTooSmall
  | _ => .invalidArg

/-! ## The SignedKey payload -/

/-- The loop of `quic_identity_der_read_length` over the length octets. At most eight come in, so
    that a `size_t` holds the number. -/
def derParsedLength (octets : Bytes) : Nat :=
  octets.foldl (fun parsed octet => parsed <<< 8 ||| octet.toNat) 0

/-- `quic_identity_der_read_length` (`quic_identity.c:190-238`): the length, and how many bytes say
    it. -/
def derReadLength : Bytes → Except QuicErr (Nat × Nat)
  | [] => .error .invalidArg
  | first :: rest =>
    if first.toNat < 0x80 then .ok (first.toNat, 1)
    else
      let lenBytes := first.toNat &&& 0x7f
      if lenBytes = 0 ∨ 8 < lenBytes ∨ rest.length < lenBytes then .error .certificateExtension
      else if rest.head? = some 0 then .error .certificateExtension
      else
        let parsed := derParsedLength (rest.take lenBytes)
        if parsed < 128 then .error .certificateExtension else .ok (parsed, 1 + lenBytes)

/-- `quic_identity_der_read_tlv` (`quic_identity.c:240-281`): the value, and how many bytes tag,
    length and value take. -/
def derReadTlv (input : Bytes) (expectedTag : UInt8) : Except QuicErr (Bytes × Nat) :=
  if input.length < 2 then .error .invalidArg
  else if input.head? ≠ some expectedTag then .error .certificateExtension
  else
    match derReadLength input.tail with
    | .error e => .error e
    | .ok (valueLen, lenConsumed) =>
      let total := 1 + lenConsumed + valueLen
      if sizeMax < total then .error .certificateExtension
      else if input.length < total then .error .certificateExtension
      else .ok ((input.drop (1 + lenConsumed)).take valueLen, total)

/-- `libp2p_quic_identity_decode_signed_key_der` (`quic_identity.c:1590-1675`): the public key message
    and the signature. -/
def decodeSignedKeyDer (signedKeyDer : Bytes) (publicKeyOutLen signatureOutLen : Nat) :
    Except QuicErr (Bytes × Bytes) := do
  let (sequence, sequenceConsumed) ← derReadTlv signedKeyDer derSequence
  if sequenceConsumed ≠ signedKeyDer.length then throw .certificateExtension
  let (publicKey, publicKeyConsumed) ← derReadTlv sequence derOctetString
  let (signature, signatureConsumed) ← derReadTlv (sequence.drop publicKeyConsumed) derOctetString
  if publicKeyConsumed + signatureConsumed ≠ sequence.length then throw .certificateExtension
  if publicKeyOutLen < publicKey.length ∨ signatureOutLen < signature.length then
    throw .bufTooSmall
  return (publicKey, signature)

/-- The payload of a key message and a signature. -/
def signedKeyDer (publicKey signature : Bytes) : Bytes :=
  Der.tlv derSequence (Der.tlv derOctetString publicKey ++ Der.tlv derOctetString signature)

/-! ## The checks -/

/-- `quic_identity_cert_time_status` (`quic_identity.c:734-768`): the two times and whether
    `current` lies between them, or `none` for the status -1. -/
def certTimeStatus (cert : X509) (current : Nat) : Option (Nat × Nat × Bool) :=
  match cert.notBefore, cert.notAfter with
  | some notBefore, some notAfter =>
    if notBefore < 0 ∨ notAfter < 0 ∨ notAfter < notBefore then none
    else
      some (notBefore.toNat, notAfter.toNat,
        decide (notBefore.toNat ≤ current) && decide (current ≤ notAfter.toNat))
  | _, _ => none

/-- The loop of `quic_identity_extract_extension` over the extensions: how many were the libp2p
    extension, and the data of the last of them. -/
def extractExtensionLoop :
    List Extension → Nat → Bytes → Comp VerifyOut QuicErr (Nat × Bytes)
  | [], foundCount, data => pure (foundCount, data)
  | extension :: rest, foundCount, data =>
    if extension.oid = tlsPublicKeyExtensionOid then do
      Comp.update fun s => s.note fun report =>
        { report with
          libp2pExtensionPresent := true
          libp2pExtensionCritical := extension.critical }
      if extension.data.length = 0 then Comp.fail .certificateExtension
      else extractExtensionLoop rest (foundCount + 1) extension.data
    else if extension.critical then do
      Comp.update fun s => s.note fun report => { report with unknownCriticalExtensionPresent := true }
      Comp.fail .certificateExtension
    else extractExtensionLoop rest foundCount data

/-- `quic_identity_extract_extension` (`quic_identity.c:770-879`). -/
def extractExtension (cert : X509) : Comp VerifyOut QuicErr Bytes :=
  if cert.extensionsInvalid then Comp.fail .certificateExtension
  else do
    let (foundCount, data) ← extractExtensionLoop cert.extensions 0 []
    if foundCount = 1 ∧ data.length ≠ 0 then pure data else Comp.fail .certificateExtension

/-- `quic_identity_write_pkey_signing_payload` (`quic_identity.c:416-450`). -/
def writePkeySigningPayload (key : EvpPkey) : Except QuicErr Bytes :=
  match key.spki with
  | none => .error .certificate
  | some spki =>
    if certSpkiMaxBytes < spki.length then .error .limit
    else .ok (tlsHandshakeSigningPrefix ++ spki)

/-- `expected_peer_id_len != 0` and the expected peer id is NULL or not this one. -/
def pinMismatch (expected : ConstBuffer) (peerId : Bytes) : Bool :=
  match expected with
  | .null len => len ≠ 0
  | .ptr bytes => bytes.length ≠ 0 && bytes ≠ peerId

/-- `quic_identity_verify_signed_key` (`quic_identity.c:881-982`). -/
def verifySignedKey (lib : Secp256k1) (certificateKey : EvpPkey) (payload : Bytes)
    (expected : ConstBuffer) (notBefore notAfter : Nat) : Comp VerifyOut QuicErr Unit := do
  let (message, signature) ← Comp.ofResult
    (decodeSignedKeyDer payload secp256k1PublicKeyMessageMaxBytes secp256k1SignatureMaxBytes)
  let rawPublicKey ← Comp.ofResult
    ((lib.publicKeyDecode message secp256k1UncompressedPublicKeyBytes).1.mapError
      quicIdentityPeerIdErr)
  let signingPayload ← Comp.ofResult (writePkeySigningPayload certificateKey)
  Comp.ofResult
    ((lib.verifyMessage rawPublicKey signingPayload signature).mapError fun _ => .certificateSignature)
  let peerId ← Comp.ofResult
    ((lib.peerIdFromPublicKey rawPublicKey peerIdMaxBytes).1.mapError quicIdentityPeerIdErr)
  if pinMismatch expected peerId then Comp.fail .peerIdMismatch
  else Comp.update fun s => s.fill (.of peerId message notBefore notAfter)

/-- The first checks of `quic_identity_verify_peer_certificate_internal`, of its arguments. -/
def checkVerifyInput (certificate expected : ConstBuffer) : Except QuicErr Bytes :=
  match certificate with
  | .null _ => .error .certificate
  | .ptr der =>
    if der.length = 0 ∨ certificateDerMaxBytes < der.length then .error .certificate
    else
      match expected with
      | .null len => if len ≠ 0 then .error .invalidArg else .ok der
      | .ptr _ => .ok der

/-- `d2i_X509` over all of the bytes. -/
def parseCertificate (x509 : X509Parser) (der : Bytes) : Except QuicErr X509 :=
  match x509.d2i der with
  | none => .error .certificate
  | some (cert, read) => if read ≠ der.length then .error .certificate else .ok cert

/-- The certificate's key, where the certificate is self-issued and that key verifies it. -/
def checkSelfSigned (cert : X509) : Except QuicErr EvpPkey :=
  match cert.publicKey with
  | none => .error .certificateSignature
  | some key =>
    if ¬ cert.selfIssued ∨ ¬ cert.selfSigned then .error .certificateSignature else .ok key

/-- The certificate's validity, where it can be read and, with `check_time`, holds now. -/
def checkCertTime (cert : X509) (current : Nat) (checkTime : Bool) : Except QuicErr (Nat × Nat) :=
  match certTimeStatus cert current with
  | none => .error .certificateTime
  | some (notBefore, notAfter, within) =>
    if checkTime ∧ ¬ within then .error .certificateTime else .ok (notBefore, notAfter)

/-- `quic_identity_verify_peer_certificate_internal` (`quic_identity.c:984-1098`). -/
def verifyPeerCertificateInternal (x509 : X509Parser) (lib : Secp256k1)
    (certificate expected : ConstBuffer) (current : Nat) (checkTime : Bool) :
    Comp VerifyOut QuicErr Unit := do
  Comp.update fun s => (s.note fun _ => {}).fill .zero
  let der ← Comp.ofResult (checkVerifyInput certificate expected)
  let cert ← Comp.ofResult (parseCertificate x509 der)
  Comp.update fun s => s.note fun report =>
    { report with issuerUniqueIdPresent := cert.issuerUid, subjectUniqueIdPresent := cert.subjectUid }
  if cert.issuerUid ∨ cert.subjectUid then Comp.fail .certificate
  else do
    let key ← Comp.ofResult (checkSelfSigned cert)
    Comp.update fun s => s.note fun report => { report with selfSignatureValid := true }
    let (notBefore, notAfter) ← Comp.ofResult (checkCertTime cert current checkTime)
    let payload ← extractExtension cert
    verifySignedKey lib key payload expected notBefore notAfter

/-- `libp2p_quic_identity_verify_peer_certificate` (`quic_identity.c:1452-1471`). -/
def verifyPeerCertificate (x509 : X509Parser) (lib : Secp256k1) (certificate expected : ConstBuffer)
    (current : Nat) (out : Option PeerIdentity) : Except QuicErr Unit × Option PeerIdentity :=
  let run := verifyPeerCertificateInternal x509 lib certificate expected current true ⟨out, none⟩
  (run.1, run.2.out)

/-- A chain as the callers pass it: a NULL pointer beside a count, or the array of that length. -/
inductive CertificateChain where
  | null (count : Nat)
  | array (certificates : List ConstBuffer)
  deriving DecidableEq, Repr

/-- `libp2p_quic_identity_verify_peer_certificate_chain` (`quic_identity.c:1473-1510`). -/
def verifyPeerCertificateChain (x509 : X509Parser) (lib : Secp256k1) (chain : CertificateChain)
    (expected : ConstBuffer) (current : Nat) : Comp VerifyOut QuicErr Unit := do
  Comp.update fun s => s.note fun _ => {}
  match chain with
  | .array [certificate] =>
    verifyPeerCertificateInternal x509 lib certificate expected current true
  | .array _ => Comp.fail .certificateChain
  | .null count => Comp.fail (if count = 1 then .invalidArg else .certificateChain)

end LeanLibp2p.Quic

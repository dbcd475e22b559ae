import LeanLibp2p.Quic.Identity

/-!
# Peer certificate verification is exact

The payload decoder accepts canonical DER only, and what the chain of checks accepts is a certificate
that certifies a host key. Verification is exact but for three kinds of input: a chain that is not one
certificate leaves the output as it was, an expected peer id of no bytes is not compared, and a
certificate whose validity starts before 1970 is refused.
-/

namespace LeanLibp2p.Quic

open LeanLibp2p.Lib

variable {x509 : X509Parser} {lib : Secp256k1}

/-! ## The payload -/

theorem derParsedLength_eq (octets : Bytes) : derParsedLength octets = Der.ofOctets octets := by
  unfold derParsedLength Der.ofOctets
  congr 1
  funext parsed octet
  rw [← Nat.shiftLeft_add_eq_or_of_lt octet.toNat_lt, Nat.shiftLeft_eq]

/-- The reader takes the length octets of canonical DER and no others. -/
theorem derReadLength_sound {input : Bytes} {valueLen lenConsumed : Nat}
    (h : derReadLength input = .ok (valueLen, lenConsumed)) :
    lenConsumed = (Der.lengthOctets valueLen).length ∧
      ∃ rest, input = Der.lengthOctets valueLen ++ rest := by
  cases input with
  | nil => cases h
  | cons first rest =>
    have hfirst := first.toNat_lt
    simp only [derReadLength, and_7f, derParsedLength_eq] at h
    by_cases hshort : first.toNat < 128
    · rw [if_pos hshort] at h
      cases h
      rw [Der.lengthOctets, if_pos hshort]
      exact ⟨rfl, rest, by simp⟩
    rw [if_neg hshort] at h
    by_cases hcount : first.toNat % 128 = 0 ∨ 8 < first.toNat % 128 ∨ rest.length < first.toNat % 128
    · rw [if_pos hcount] at h
      cases h
    rw [if_neg hcount] at h
    by_cases hzero : rest.head? = some 0
    · rw [if_pos hzero] at h
      cases h
    rw [if_neg hzero] at h
    by_cases hparsed : Der.ofOctets (rest.take (first.toNat % 128)) < 128
    · rw [if_pos hparsed] at h
      cases h
    rw [if_neg hparsed] at h
    cases h
    have hlen : (rest.take (first.toNat % 128)).length = first.toNat % 128 := by
      rw [List.length_take]
      omega
    have hhead : (rest.take (first.toNat % 128)).head? ≠ some 0 := by
      rwa [List.head?_take, if_neg (by omega)]
    rw [Der.lengthOctets, if_neg hparsed, Der.toOctets_ofOctets hhead, hlen]
    refine ⟨by rw [List.length_cons, hlen]; omega, rest.drop (first.toNat % 128), ?_⟩
    have hbyte : UInt8.ofNat (128 + first.toNat % 128) = first := by
      rw [show 128 + first.toNat % 128 = first.toNat by omega, UInt8.ofNat_toNat]
    rw [hbyte, List.cons_append, List.take_append_drop]

theorem derReadLength_complete {valueLen : Nat} (rest : Bytes) (hlen : valueLen < 2 ^ 64) :
    derReadLength (Der.lengthOctets valueLen ++ rest) =
      .ok (valueLen, (Der.lengthOctets valueLen).length) := by
  unfold Der.lengthOctets
  split
  · rename_i hshort
    have hbyte : (UInt8.ofNat valueLen).toNat = valueLen := ofNat_toNat_lt (by omega)
    simp only [List.cons_append, List.nil_append, derReadLength, hbyte, List.length_singleton]
    rw [if_pos hshort]
  · rename_i hlong
    have hcount : (Der.toOctets valueLen).length ≤ 8 :=
      Der.toOctets_length_le (by rwa [show (256 : Nat) ^ 8 = 2 ^ 64 by norm_num])
    have hpos : 0 < (Der.toOctets valueLen).length :=
      List.length_pos_of_ne_nil (Der.toOctets_ne_nil (by omega))
    have hbyte : (UInt8.ofNat (128 + (Der.toOctets valueLen).length)).toNat =
        128 + (Der.toOctets valueLen).length := ofNat_toNat_lt (by omega)
    have hmod : (128 + (Der.toOctets valueLen).length) % 128 = (Der.toOctets valueLen).length := by
      omega
    have hhead : (Der.toOctets valueLen ++ rest).head? ≠ some 0 := by
      rw [List.head?_append_of_ne_nil _ (List.ne_nil_of_length_pos hpos)]
      exact Der.head?_toOctets valueLen
    simp only [List.cons_append, derReadLength, hbyte, and_7f, hmod, List.length_append,
      List.take_left, derParsedLength_eq, Der.ofOctets_toOctets, List.length_cons]
    rw [if_neg (by omega), if_neg (by omega), if_neg hhead, if_neg hlong, Nat.add_comm 1]

theorem derReadTlv_sound {input value : Bytes} {tag : UInt8} {consumed : Nat}
    (h : derReadTlv input tag = .ok (value, consumed)) :
    consumed = (Der.tlv tag value).length ∧ ∃ rest, input = Der.tlv tag value ++ rest := by
  unfold derReadTlv at h
  split at h
  · cases h
  split at h
  · cases h
  rename_i hshort htag
  cases input with
  | nil => simp at hshort
  | cons first input =>
    have hfirst : first = tag := by simpa using htag
    simp only [List.tail_cons] at h
    cases hread : derReadLength input with
    | error e => simp [hread] at h
    | ok read =>
      obtain ⟨valueLen, lenConsumed⟩ := read
      simp only [hread] at h
      split at h
      · cases h
      split at h
      · cases h
      rename_i hfits
      cases h
      obtain ⟨rfl, rest, rfl⟩ := derReadLength_sound hread
      have hvalue : ((first :: (Der.lengthOctets valueLen ++ rest)).drop
          (1 + (Der.lengthOctets valueLen).length)) = rest := by
        rw [Nat.add_comm, List.drop_succ_cons, List.drop_left]
      rw [hvalue]
      simp only [List.length_cons, List.length_append] at hfits
      have hlen : (rest.take valueLen).length = valueLen := by
        rw [List.length_take]
        omega
      refine ⟨?_, rest.drop valueLen, ?_⟩
      · simp only [Der.tlv, hlen, List.length_cons, List.length_append]
        omega
      · simp only [Der.tlv, hlen, List.cons_append, List.append_assoc, List.take_append_drop, hfirst]

/-- Every string whose length is a `size_t` is read. -/
theorem derReadTlv_tlv {tag : UInt8} {value : Bytes} (rest : Bytes)
    (hlen : (Der.tlv tag value).length ≤ sizeMax) :
    derReadTlv (Der.tlv tag value ++ rest) tag = .ok (value, (Der.tlv tag value).length) := by
  have hmax : sizeMax = 18446744073709551615 := rfl
  have htlv : (Der.tlv tag value).length =
      1 + (Der.lengthOctets value.length).length + value.length := by
    simp only [Der.tlv, List.length_cons, List.length_append]
    omega
  have hread := @derReadLength_complete value.length (value ++ rest) (by omega)
  have hpos := Der.lengthOctets_length_pos value.length
  unfold derReadTlv
  simp only [Der.tlv, List.cons_append, List.append_assoc, List.length_cons, List.length_append,
    List.head?_cons, ne_eq, not_true_eq_false, if_false, List.tail_cons, hread]
  rw [if_neg (by omega), if_neg (by omega), if_neg (by omega)]
  rw [Nat.add_comm 1, List.drop_succ_cons, List.drop_left, List.take_left]
  congr 2
  omega

/-- The whole input is one string of the tag, or reading all of it fails. -/
theorem derReadTlv_whole {input value : Bytes} {tag : UInt8} (h : derReadTlv input tag =
    .ok (value, input.length)) : input = Der.tlv tag value := by
  obtain ⟨hconsumed, rest, hinput⟩ := derReadTlv_sound h
  have hrest : rest = [] := by
    have := congrArg List.length hinput
    rw [List.length_append] at this
    exact List.eq_nil_of_length_eq_zero (by omega)
  rw [hinput, hrest, List.append_nil]

/-- A payload of a `size_t` of bytes is read, whatever the buffers hold. -/
theorem decodeSignedKeyDer_payload {message signature : Bytes}
    (hlen : (signedKeyDer message signature).length ≤ sizeMax)
    (publicKeyOutLen signatureOutLen : Nat) :
    decodeSignedKeyDer (signedKeyDer message signature) publicKeyOutLen signatureOutLen =
      if publicKeyOutLen < message.length ∨ signatureOutLen < signature.length then
        .error .bufTooSmall
      else .ok (message, signature) := by
  have hinner : (Der.tlv derOctetString message ++ Der.tlv derOctetString signature).length ≤
      (signedKeyDer message signature).length := by
    simp only [signedKeyDer, Der.tlv, List.length_cons, List.length_append]
    omega
  rw [List.length_append] at hinner
  have hsequence := @derReadTlv_tlv derSequence
    (Der.tlv derOctetString message ++ Der.tlv derOctetString signature) [] hlen
  have hkey := @derReadTlv_tlv derOctetString message (Der.tlv derOctetString signature) (by omega)
  have hlast := @derReadTlv_tlv derOctetString signature [] (by omega)
  rw [List.append_nil] at hsequence hlast
  simp only [decodeSignedKeyDer, bind, Except.bind, pure, Except.pure, throw, throwThe,
    MonadExceptOf.throw, signedKeyDer, hsequence, ne_eq, not_true_eq_false, if_false, hkey,
    List.drop_left, hlast, List.length_append]

theorem derReadLength_ne_bufTooSmall (input : Bytes) :
    derReadLength input ≠ .error .bufTooSmall := by
  unfold derReadLength
  split
  · simp
  · dsimp only
    split_ifs <;> simp

theorem derReadTlv_ne_bufTooSmall (input : Bytes) (tag : UInt8) :
    derReadTlv input tag ≠ .error .bufTooSmall := by
  have hlength := derReadLength_ne_bufTooSmall input.tail
  unfold derReadTlv
  split_ifs
  · simp
  · simp
  · cases hread : derReadLength input.tail with
    | error e => simpa [hread] using hlength
    | ok read =>
      dsimp only
      split_ifs <;> simp

/-- An input that is accepted, or refused for the buffers alone, is a payload. -/
theorem decodeSignedKeyDer_sound {payload : Bytes} {publicKeyOutLen signatureOutLen : Nat}
    (h : ∀ e, decodeSignedKeyDer payload publicKeyOutLen signatureOutLen = .error e →
      e = .bufTooSmall) :
    ∃ message signature, payload = signedKeyDer message signature ∧
      decodeSignedKeyDer payload publicKeyOutLen signatureOutLen =
        if publicKeyOutLen < message.length ∨ signatureOutLen < signature.length then
          .error .bufTooSmall
        else .ok (message, signature) := by
  simp only [decodeSignedKeyDer, bind, Except.bind, pure, Except.pure, throw, throwThe,
    MonadExceptOf.throw] at h ⊢
  cases hsequence : derReadTlv payload derSequence with
  | error e =>
    rw [h e (by rw [hsequence])] at hsequence
    exact absurd hsequence (derReadTlv_ne_bufTooSmall payload derSequence)
  | ok read =>
    obtain ⟨sequence, sequenceConsumed⟩ := read
    simp only [hsequence] at h ⊢
    by_cases hwhole : sequenceConsumed = payload.length
    case neg => simp [hwhole] at h
    subst hwhole
    simp only [ne_eq, not_true_eq_false, if_false] at h ⊢
    cases hkey : derReadTlv sequence derOctetString with
    | error e =>
      rw [h e (by rw [hkey])] at hkey
      exact absurd hkey (derReadTlv_ne_bufTooSmall sequence derOctetString)
    | ok read =>
      obtain ⟨publicKey, publicKeyConsumed⟩ := read
      simp only [hkey] at h ⊢
      cases hsign : derReadTlv (sequence.drop publicKeyConsumed) derOctetString with
      | error e =>
        rw [h e (by rw [hsign])] at hsign
        exact absurd hsign (derReadTlv_ne_bufTooSmall _ derOctetString)
      | ok read =>
        obtain ⟨signed, signatureConsumed⟩ := read
        simp only [hsign] at h ⊢
        by_cases hends : publicKeyConsumed + signatureConsumed = sequence.length
        case neg => simp [hends] at h
        simp only [hends, not_true_eq_false, if_false] at h ⊢
        obtain ⟨rfl, rest, rfl⟩ := derReadTlv_sound hkey
        rw [List.drop_left] at hsign
        rw [List.length_append] at hends
        have hrest := derReadTlv_whole (hsign.trans (by rw [Nat.add_left_cancel hends]))
        exact ⟨publicKey, signed, by rw [derReadTlv_whole hsequence, hrest, signedKeyDer], rfl⟩

/-- The decoder accepts the payloads whose two values fit. -/
theorem decodeSignedKeyDer_ok_iff {payload message signature : Bytes}
    {publicKeyOutLen signatureOutLen : Nat} (hpublicKey : publicKeyOutLen < 2 ^ 16)
    (hsignature : signatureOutLen < 2 ^ 16) :
    decodeSignedKeyDer payload publicKeyOutLen signatureOutLen = .ok (message, signature) ↔
      payload = signedKeyDer message signature ∧ message.length ≤ publicKeyOutLen ∧
        signature.length ≤ signatureOutLen := by
  constructor
  · intro h
    obtain ⟨message', signature', rfl, hdecode⟩ := decodeSignedKeyDer_sound
      (fun e he => by rw [h] at he; cases he)
    rw [h] at hdecode
    split at hdecode
    · cases hdecode
    · cases hdecode
      exact ⟨rfl, by omega, by omega⟩
  · rintro ⟨rfl, hmessage, hsign⟩
    have hkeyTlv := @Der.tlv_length_le derOctetString message (by omega)
    have hsignTlv := @Der.tlv_length_le derOctetString signature (by omega)
    have hsequence := @Der.tlv_length_le derSequence
      (Der.tlv derOctetString message ++ Der.tlv derOctetString signature)
      (by rw [List.length_append]; omega)
    rw [List.length_append] at hsequence
    have hmax : sizeMax = 18446744073709551615 := rfl
    rw [decodeSignedKeyDer_payload (by rw [signedKeyDer]; omega), if_neg (by omega)]

/-! ## What a certificate certifies -/

/-- A certificate that is good by itself at a time: parsed whole, without unique ids, self-issued,
    self-signed and within its validity. -/
structure SelfCertified (x509 : X509Parser) (der : Bytes) (cert : X509) (key : EvpPkey) (now : Nat)
    (notBefore notAfter : Int) : Prop where
  size : der.length ≤ certificateDerMaxBytes
  parsed : x509.d2i der = some (cert, der.length)
  noIssuerUid : cert.issuerUid = false
  noSubjectUid : cert.subjectUid = false
  publicKey : cert.publicKey = some key
  selfIssued : cert.selfIssued = true
  selfSigned : cert.selfSigned = true
  notBefore_eq : cert.notBefore = some notBefore
  notAfter_eq : cert.notAfter = some notAfter
  started : notBefore ≤ now
  unexpired : (now : Int) ≤ notAfter

/-- The data of the libp2p extensions. -/
def libp2pData (extensions : List Extension) : List Bytes :=
  (extensions.filter fun extension => extension.oid = tlsPublicKeyExtensionOid).map (·.data)

/-- Well-formed extensions with one libp2p extension and no other that is critical. -/
structure CarriesPayload (cert : X509) (payload : Bytes) : Prop where
  wellFormed : cert.extensionsInvalid = false
  one : libp2pData cert.extensions = [payload]
  nonempty : payload ≠ []
  othersNotCritical : ∀ extension ∈ cert.extensions,
    extension.oid ≠ tlsPublicKeyExtensionOid → extension.critical = false

/-- The payload holds the message of a host key and that key's signature of the certificate's key. -/
def HostSigned (lib : Secp256k1) (certificateKey : EvpPkey) (payload hostKey : Bytes) : Prop :=
  ∃ spki signature, certificateKey.spki = some spki ∧ spki.length ≤ certSpkiMaxBytes ∧
    lib.ValidKey hostKey ∧ payload = signedKeyDer (keyMessage hostKey) signature ∧
    lib.verifies hostKey (lib.sha256 (tlsHandshakeSigningPrefix ++ spki)) signature = true

/-- The bytes are a certificate that certifies a host key at a time. -/
def Certifies (x509 : X509Parser) (lib : Secp256k1) (der : Bytes) (now : Nat) (hostKey : Bytes)
    (notBefore notAfter : Int) : Prop :=
  ∃ cert key payload, SelfCertified x509 der cert key now notBefore notAfter ∧
    CarriesPayload cert payload ∧ HostSigned lib key payload hostKey

/-! ## The checks, one by one -/

/-- A computation whose result is the same from every state, and which leaves the identity alone. -/
def Returns {α : Type} (c : Comp VerifyOut QuicErr α) (r : Except QuicErr α) : Prop :=
  ∀ s, ∃ s', c s = (r, s') ∧ s'.out = s.out

namespace Returns

variable {α β : Type} {x : Comp VerifyOut QuicErr α} {f : α → Comp VerifyOut QuicErr β}

theorem ofResult (r : Except QuicErr α) : Returns (Comp.ofResult r) r := fun s => ⟨s, rfl, rfl⟩

theorem fail (e : QuicErr) : Returns (Comp.fail e : Comp VerifyOut QuicErr α) (.error e) :=
  fun s => ⟨s, rfl, rfl⟩

theorem pure (a : α) : Returns (Pure.pure a : Comp VerifyOut QuicErr α) (.ok a) :=
  fun s => ⟨s, rfl, rfl⟩

theorem bind {a : α}
    {r : Except QuicErr β} (hx : Returns x (.ok a)) (hf : Returns (f a) r) : Returns (x >>= f) r := by
  intro s
  obtain ⟨s', hrun, hout⟩ := hx s
  obtain ⟨s'', hrun', hout'⟩ := hf s'
  exact ⟨s'', by rw [Comp.bind_of_ok hrun, hrun'], hout'.trans hout⟩

theorem bind_error {e : QuicErr} (hx : Returns x (.error e)) : Returns (x >>= f) (.error e) := by
  intro s
  obtain ⟨s', hrun, hout⟩ := hx s
  exact ⟨s', Comp.bind_of_error hrun, hout⟩

theorem noted (f : CertificateReport → CertificateReport) :
    Returns (Comp.update fun s : VerifyOut => s.note f) (.ok ()) := fun s => ⟨s.note f, rfl, rfl⟩

theorem note {f : CertificateReport → CertificateReport} {c : Unit → Comp VerifyOut QuicErr β}
    {r : Except QuicErr β} (hc : Returns (c ()) r) :
    Returns (Comp.update (fun s : VerifyOut => s.note f) >>= c) r :=
  bind (noted f) hc

/-- What succeeds behind such a computation succeeds with the value it has. -/
theorem of_bind {r : Except QuicErr α} {b : β} {s s'' : VerifyOut} (hx : Returns x r)
    (h : (x >>= f) s = (.ok b, s'')) :
    ∃ a s', r = .ok a ∧ f a s' = (.ok b, s'') ∧ s'.out = s.out := by
  obtain ⟨s', hrun, hout⟩ := hx s
  obtain ⟨a, s₁, hfirst, hrest⟩ := Comp.ok_of_bind h
  cases hrun.symm.trans hfirst
  exact ⟨a, s', rfl, hrest, hout⟩

end Returns

/-- A computation that leaves the identity alone when it fails. -/
def ErrorKeeps {α : Type} (c : Comp VerifyOut QuicErr α) : Prop :=
  ∀ s e s', c s = (.error e, s') → s'.out = s.out

namespace ErrorKeeps

variable {α β : Type}

theorem fail (e : QuicErr) : ErrorKeeps (Comp.fail e : Comp VerifyOut QuicErr α) := by
  intro s e' s' h
  cases h
  rfl

theorem update (f : VerifyOut → VerifyOut) : ErrorKeeps (Comp.update f) := by
  intro s e s' h
  cases h

theorem ite {p : Prop} [Decidable p] {c d : Comp VerifyOut QuicErr α} (hc : ErrorKeeps c)
    (hd : ErrorKeeps d) : ErrorKeeps (if p then c else d) := by
  split
  · exact hc
  · exact hd

theorem bind {r : Except QuicErr α} (hx : Returns x r) (hf : ∀ a, ErrorKeeps (f a)) :
    ErrorKeeps (x >>= f) := by
  intro s e s'' h
  obtain ⟨s', hrun, hout⟩ := hx s
  cases r with
  | error e' =>
    cases (Comp.bind_of_error hrun).symm.trans h
    exact hout
  | ok a => exact (hf a s' e s'' ((Comp.bind_of_ok hrun).symm.trans h)).trans hout

end ErrorKeeps

/-- What the loop finds among extensions of which it refuses none. -/
theorem extractExtensionLoop_returns (extensions : List Extension) (foundCount : Nat) (data : Bytes) :
    ∃ r, Returns (extractExtensionLoop extensions foundCount data) r ∧
      ∀ found, r = .ok found ↔
        (∀ extension ∈ extensions,
          (extension.oid = tlsPublicKeyExtensionOid → extension.data ≠ []) ∧
          (extension.oid ≠ tlsPublicKeyExtensionOid → extension.critical = false)) ∧
        found = (foundCount + (libp2pData extensions).length,
          (libp2pData extensions).getLastD data) := by
  induction extensions generalizing foundCount data with
  | nil =>
    refine ⟨.ok (foundCount, data), Returns.pure _, fun found => ?_⟩
    rw [Except.ok.injEq, eq_comm]
    simp [libp2pData]
  | cons extension rest ih =>
    unfold extractExtensionLoop
    by_cases hoid : extension.oid = tlsPublicKeyExtensionOid
    · rw [if_pos hoid]
      by_cases hdata : extension.data.length = 0
      · refine ⟨.error .certificateExtension, Returns.note ?_, fun found => ?_⟩
        · rw [if_pos hdata]
          exact Returns.fail _
        · have hempty := List.eq_nil_of_length_eq_zero hdata
          simp [hoid, hempty]
      · obtain ⟨r, hreturns, hok⟩ := ih (foundCount + 1) extension.data
        refine ⟨r, Returns.note ?_, fun found => ?_⟩
        · rwa [if_neg hdata]
        · have hlast : (libp2pData (extension :: rest)) = extension.data :: libp2pData rest := by
            simp [libp2pData, hoid]
          rw [hok found, hlast, List.forall_mem_cons]
          have hne : extension.data ≠ [] := fun h => hdata (by rw [h]; rfl)
          simp only [hoid, hne, ne_eq, not_false_eq_true, not_true_eq_false, implies_true,
            false_implies, and_self, true_and, List.length_cons, List.getLastD_cons]
          rw [Nat.add_right_comm, Nat.add_assoc]
    · rw [if_neg hoid]
      have hlast : libp2pData (extension :: rest) = libp2pData rest := by simp [libp2pData, hoid]
      by_cases hcritical : extension.critical = true
      · refine ⟨.error .certificateExtension, ?_, fun found => ?_⟩
        · rw [if_pos hcritical]
          exact Returns.note (Returns.fail _)
        · simp [hoid, hcritical]
      · obtain ⟨r, hreturns, hok⟩ := ih foundCount data
        refine ⟨r, ?_, fun found => ?_⟩
        · rwa [if_neg hcritical]
        · rw [hok found, hlast, List.forall_mem_cons]
          simp [hoid, hcritical]

theorem extractExtension_returns (cert : X509) :
    ∃ r, Returns (extractExtension cert) r ∧ ∀ payload, r = .ok payload ↔
      CarriesPayload cert payload := by
  unfold extractExtension
  by_cases hinvalid : cert.extensionsInvalid = true
  · rw [if_pos hinvalid]
    refine ⟨_, Returns.fail _, fun payload => ⟨fun h => (by cases h), fun h => ?_⟩⟩
    exact absurd hinvalid (by simp [h.wellFormed])
  rw [if_neg hinvalid]
  obtain ⟨r, hreturns, hok⟩ := extractExtensionLoop_returns cert.extensions 0 []
  cases r with
  | error e =>
    refine ⟨_, Returns.bind_error hreturns, fun payload => ⟨fun h => (by cases h), fun h => ?_⟩⟩
    have hfound := (hok (0 + (libp2pData cert.extensions).length,
      (libp2pData cert.extensions).getLastD [])).mpr ⟨fun extension hmem => ⟨fun hoid => ?_,
        h.othersNotCritical extension hmem⟩, rfl⟩
    · cases hfound
    · have hdata : extension.data ∈ libp2pData cert.extensions :=
        List.mem_map_of_mem (List.mem_filter.mpr ⟨hmem, by simpa using hoid⟩)
      rw [h.one, List.mem_singleton] at hdata
      rw [hdata]
      exact h.nonempty
  | ok found =>
    obtain ⟨hall, rfl⟩ := (hok found).mp rfl
    by_cases hone : 0 + (libp2pData cert.extensions).length = 1 ∧
        ((libp2pData cert.extensions).getLastD []).length ≠ 0
    · obtain ⟨payload, hpayload⟩ := List.length_eq_one_iff.mp ((Nat.zero_add _).symm.trans hone.1)
      refine ⟨.ok payload, Returns.bind hreturns ?_, fun payload' => ⟨fun h => ?_, fun h => ?_⟩⟩
      · dsimp only
        rw [if_pos hone, hpayload]
        exact Returns.pure _
      · cases h
        rw [hpayload] at hone
        exact ⟨by simpa using hinvalid, hpayload, fun h => hone.2 (by rw [h]; rfl),
          fun extension hmem => (hall extension hmem).2⟩
      · have := h.one.symm.trans hpayload
        rw [List.singleton_inj.mp this]
    · refine ⟨.error .certificateExtension, Returns.bind hreturns ?_, fun payload =>
        ⟨fun h => (by cases h), fun h => ?_⟩⟩
      · dsimp only
        rw [if_neg hone]
        exact Returns.fail _
      · refine absurd ?_ hone
        rw [h.one]
        exact ⟨rfl, fun hzero => h.nonempty (List.eq_nil_of_length_eq_zero hzero)⟩

theorem writePkeySigningPayload_ok_iff {key : EvpPkey} {payload : Bytes} :
    writePkeySigningPayload key = .ok payload ↔
      ∃ spki, key.spki = some spki ∧ spki.length ≤ certSpkiMaxBytes ∧
        payload = tlsHandshakeSigningPrefix ++ spki := by
  unfold writePkeySigningPayload
  cases key.spki with
  | none => simp
  | some spki =>
    by_cases hlong : certSpkiMaxBytes < spki.length
    · simp [hlong]
    · simp [hlong, eq_comm, not_lt.mp hlong]

theorem mapError_eq_ok {ε ε' α : Type} {r : Except ε α} {f : ε → ε'} {a : α} :
    r.mapError f = .ok a ↔ r = .ok a := by
  cases r <;> simp [Except.mapError]

/-- What succeeds behind a result succeeds with its value. -/
theorem ofResult_bind_ok {σ ε α β : Type} {r : Except ε α} {f : α → Comp σ ε β} {b : β} {s s' : σ}
    (h : (Comp.ofResult r >>= f) s = (.ok b, s')) : ∃ a, r = .ok a ∧ f a s = (.ok b, s') := by
  obtain ⟨a, s₁, hresult, hrest⟩ := Comp.ok_of_bind h
  obtain ⟨hok, hstate⟩ := Prod.mk.inj hresult
  exact ⟨a, hok, by rw [hstate, hrest]⟩

/-- The host key's part of the verification. -/
theorem verifySignedKey_ok_iff {key : EvpPkey} {payload : Bytes}
    {expected : ConstBuffer} {notBefore notAfter : Nat} {s s' : VerifyOut} :
    verifySignedKey lib key payload expected notBefore notAfter s = (.ok (), s') ↔
      ∃ hostKey, HostSigned lib key payload hostKey ∧
        pinMismatch expected (lib.peerIdOf hostKey) = false ∧
        s' = s.fill (.of (lib.peerIdOf hostKey) (keyMessage hostKey) notBefore notAfter) := by
  have hmax : peerIdMaxBytes ≤ peerIdMaxBytes := Nat.le_refl _
  have hfits : secp256k1UncompressedPublicKeyBytes = 65 := rfl
  have hmessageMax : secp256k1PublicKeyMessageMaxBytes = 69 := rfl
  constructor
  · intro h
    obtain ⟨⟨message, signature⟩, hdecode, h⟩ := ofResult_bind_ok h
    obtain ⟨hostKey, hkey, h⟩ := ofResult_bind_ok h
    obtain ⟨signed, hsigned, h⟩ := ofResult_bind_ok h
    obtain ⟨_, hverify, h⟩ := ofResult_bind_ok h
    obtain ⟨peerId, hid, h⟩ := ofResult_bind_ok h
    rw [decodeSignedKeyDer_ok_iff (by decide) (by decide)] at hdecode
    rw [mapError_eq_ok, Secp256k1.publicKeyDecode_ok_iff] at hkey
    rw [writePkeySigningPayload_ok_iff] at hsigned
    rw [mapError_eq_ok, Secp256k1.verifyMessage_ok_iff] at hverify
    rw [mapError_eq_ok, Secp256k1.peerIdFromPublicKey_ok hkey.1 hmax, Except.ok.injEq] at hid
    obtain ⟨hvalid, rfl, -⟩ := hkey
    obtain ⟨spki, hspki, hlen, rfl⟩ := hsigned
    subst hid
    refine ⟨hostKey, ⟨spki, signature, hspki, hlen, hvalid, hdecode.1, hverify.2⟩, ?_⟩
    by_cases hpin : pinMismatch expected (lib.peerIdOf hostKey) = true
    · rw [if_pos hpin] at h
      cases h
    · rw [if_neg hpin] at h
      exact ⟨by simpa using hpin, (Prod.mk.inj h).2.symm⟩
  · rintro ⟨hostKey, ⟨spki, signature, hspki, hlen, hvalid, rfl, hverify⟩, hpin, rfl⟩
    have hkeyLen := hvalid.length_le
    have hdecode := (@decodeSignedKeyDer_ok_iff (signedKeyDer (keyMessage hostKey) signature)
      (keyMessage hostKey) signature secp256k1PublicKeyMessageMaxBytes secp256k1SignatureMaxBytes
      (by decide) (by decide)).mpr
      ⟨rfl, by rw [keyMessage_length]; omega, (lib.verifies_length hverify).2⟩
    have hkey := (@Secp256k1.publicKeyDecode_ok_iff lib (keyMessage hostKey) hostKey
      secp256k1UncompressedPublicKeyBytes).mpr ⟨hvalid, rfl, by omega⟩
    have hsigned := (@writePkeySigningPayload_ok_iff key _).mpr ⟨spki, hspki, hlen, rfl⟩
    have hmessage := Secp256k1.verifyMessage_ok_iff.mpr ⟨hvalid, hverify⟩
    have hid := Secp256k1.peerIdFromPublicKey_ok hvalid hmax
    simp only [verifySignedKey, hdecode, hkey, hsigned, hmessage, hid, Except.mapError,
      Comp.bind_apply, Comp.ofResult_apply, hpin, Bool.false_eq_true, if_false, Comp.update_apply]

theorem verifySignedKey_errorKeeps (lib : Secp256k1) (key : EvpPkey) (payload : Bytes)
    (expected : ConstBuffer) (notBefore notAfter : Nat) :
    ErrorKeeps (verifySignedKey lib key payload expected notBefore notAfter) :=
  .bind (Returns.ofResult _) fun _ => .bind (Returns.ofResult _) fun _ =>
    .bind (Returns.ofResult _) fun _ => .bind (Returns.ofResult _) fun _ =>
      .bind (Returns.ofResult _) fun _ => .ite (.fail _) (.update _)

/-! ## The whole verification -/

theorem checkVerifyInput_ok_iff {certificate expected : ConstBuffer} {der : Bytes} :
    checkVerifyInput certificate expected = .ok der ↔
      certificate = .ptr der ∧ der ≠ [] ∧ der.length ≤ certificateDerMaxBytes ∧
        ∀ len, expected = .null len → len = 0 := by
  unfold checkVerifyInput
  cases certificate with
  | null len => simp
  | ptr bytes =>
    by_cases hlen : bytes.length = 0 ∨ certificateDerMaxBytes < bytes.length
    · simp only [if_pos hlen, ConstBuffer.ptr.injEq]
      refine ⟨fun h => (by cases h), ?_⟩
      rintro ⟨rfl, hne, hle, -⟩
      have := List.length_pos_of_ne_nil hne
      omega
    · obtain ⟨hne, hle⟩ := not_or.mp hlen
      have hbytes : bytes ≠ [] := fun h => hne (by rw [h]; rfl)
      simp only [if_neg hlen]
      cases expected with
      | null len =>
        by_cases hzero : len = 0
        · subst hzero
          simp only [ne_eq, not_true_eq_false, if_false, Except.ok.injEq, ConstBuffer.ptr.injEq,
            ConstBuffer.null.injEq]
          exact ⟨fun h => h ▸ ⟨rfl, hbytes, by omega, fun _ h => h.symm⟩, fun h => h.1⟩
        · simp only [ne_eq, hzero, not_false_eq_true, if_true]
          exact ⟨fun h => (by cases h), fun h => absurd (h.2.2.2 len rfl) hzero⟩
      | ptr id =>
        simp only [Except.ok.injEq, ConstBuffer.ptr.injEq]
        exact ⟨fun h => h ▸ ⟨rfl, hbytes, by omega, fun _ h => (by cases h)⟩, fun h => h.1⟩

theorem parseCertificate_ok_iff {der : Bytes} {cert : X509} :
    parseCertificate x509 der = .ok cert ↔ x509.d2i der = some (cert, der.length) := by
  unfold parseCertificate
  rcases x509.d2i der with _ | ⟨parsed, read⟩
  · simp
  · by_cases hread : read = der.length <;> simp [hread]

theorem checkSelfSigned_ok_iff {cert : X509} {key : EvpPkey} :
    checkSelfSigned cert = .ok key ↔
      cert.publicKey = some key ∧ cert.selfIssued = true ∧ cert.selfSigned = true := by
  unfold checkSelfSigned
  cases cert.publicKey with
  | none => simp
  | some found =>
    cases hissued : cert.selfIssued <;> cases hsigned : cert.selfSigned <;> simp

theorem checkCertTime_ok_iff {cert : X509} {now before after : Nat} :
    checkCertTime cert now true = .ok (before, after) ↔
      cert.notBefore = some (before : Int) ∧ cert.notAfter = some (after : Int) ∧ before ≤ now ∧
        now ≤ after := by
  unfold checkCertTime certTimeStatus
  rcases cert.notBefore with _ | notBefore
  · simp
  rcases cert.notAfter with _ | notAfter
  · simp
  by_cases hbad : notBefore < 0 ∨ notAfter < 0 ∨ notAfter < notBefore
  · simp only [if_pos hbad, Option.some.injEq]
    exact ⟨fun h => (by cases h), fun h => absurd hbad (by omega)⟩
  · simp only [if_neg hbad, Option.some.injEq, Bool.and_eq_true, decide_eq_true_eq, true_and]
    by_cases hwithin : notBefore.toNat ≤ now ∧ now ≤ notAfter.toNat
    · simp only [hwithin, and_self, not_true_eq_false, if_false, Except.ok.injEq, Prod.mk.injEq]
      omega
    · simp only [hwithin, not_false_eq_true, if_true]
      exact ⟨fun h => (by cases h), fun h => absurd (by omega) hwithin⟩

section
variable {x509 : X509Parser} {lib : Secp256k1} {certificate expected : ConstBuffer} {now : Nat}
  {s s' : VerifyOut}

/-- What is accepted is a certificate that certifies a host key, whose id is not refused. -/
theorem verifyPeerCertificateInternal_of_ok
    (h : verifyPeerCertificateInternal x509 lib certificate expected now true s = (.ok (), s')) :
    ∃ der hostKey, ∃ before after : Nat, certificate = .ptr der ∧
      Certifies x509 lib der now hostKey before after ∧
      pinMismatch expected (lib.peerIdOf hostKey) = false ∧
      s'.out = s.out.map fun _ => .of (lib.peerIdOf hostKey) (keyMessage hostKey) before after := by
  obtain ⟨_, s₁, hzero, h⟩ := Comp.ok_of_bind h
  obtain ⟨-, hs₁⟩ := Prod.mk.inj hzero
  obtain ⟨der, hder, h⟩ := ofResult_bind_ok h
  obtain ⟨cert, hcert, h⟩ := ofResult_bind_ok h
  obtain ⟨_, s₂, -, h, hs₂⟩ := Returns.of_bind (Returns.noted _) h
  split at h
  · cases h
  rename_i huids
  obtain ⟨key, hkey, h⟩ := ofResult_bind_ok h
  obtain ⟨_, s₃, -, h, hs₃⟩ := Returns.of_bind (Returns.noted _) h
  obtain ⟨⟨before, after⟩, htime, h⟩ := ofResult_bind_ok h
  obtain ⟨r, hreturns, hok⟩ := extractExtension_returns cert
  obtain ⟨payload, s₄, rfl, h, hs₄⟩ := Returns.of_bind hreturns h
  obtain ⟨hostKey, hsigned, hpin, rfl⟩ := verifySignedKey_ok_iff.mp h
  obtain ⟨rfl, -, hsize, -⟩ := checkVerifyInput_ok_iff.mp hder
  obtain ⟨hpublic, hissued, hself⟩ := checkSelfSigned_ok_iff.mp hkey
  obtain ⟨hbefore, hafter, hstarted, hunexpired⟩ := checkCertTime_ok_iff.mp htime
  have huid : cert.issuerUid = false ∧ cert.subjectUid = false := by simpa using huids
  refine ⟨der, hostKey, before, after, rfl, ⟨cert, key, payload, ?_, (hok payload).mp rfl, hsigned⟩,
    hpin, ?_⟩
  · exact ⟨hsize, parseCertificate_ok_iff.mp hcert, huid.1, huid.2, hpublic, hissued, hself, hbefore,
      hafter, by omega, by omega⟩
  · rw [VerifyOut.fill_out, hs₄, hs₃, hs₂, ← hs₁, VerifyOut.fill_out, VerifyOut.note_out,
      Option.map_map]
    rfl

/-- A certificate that certifies a host key is accepted where its validity starts in 1970 or later
    and the id is not refused. -/
theorem verifyPeerCertificateInternal_ok {der hostKey : Bytes} {before after : Nat}
    (hnull : ∀ len, expected = .null len → len = 0)
    (hcertifies : Certifies x509 lib der now hostKey before after)
    (hpin : pinMismatch expected (lib.peerIdOf hostKey) = false) (s : VerifyOut) :
    ∃ s', verifyPeerCertificateInternal x509 lib (.ptr der) expected now true s = (.ok (), s') := by
  obtain ⟨cert, key, payload, hself, hcarries, hsigned⟩ := hcertifies
  have hne : der ≠ [] := by
    rintro rfl
    have := hself.parsed
    rw [x509.d2i_nil] at this
    cases this
  have hder := checkVerifyInput_ok_iff.mpr ⟨rfl, hne, hself.size, hnull⟩
  have hcert := parseCertificate_ok_iff.mpr hself.parsed
  have hkey := checkSelfSigned_ok_iff.mpr ⟨hself.publicKey, hself.selfIssued, hself.selfSigned⟩
  have hstarted := hself.started
  have hunexpired := hself.unexpired
  have htime := (@checkCertTime_ok_iff cert now before after).mpr
    ⟨hself.notBefore_eq, hself.notAfter_eq, by omega, by omega⟩
  obtain ⟨r, hreturns, hok⟩ := extractExtension_returns cert
  have hpayload := (hok payload).mpr hcarries
  subst hpayload
  have huids : ¬ (cert.issuerUid = true ∨ cert.subjectUid = true) := by
    simp [hself.noIssuerUid, hself.noSubjectUid]
  have hverify (s : VerifyOut) := (@verifySignedKey_ok_iff lib key payload expected before after s
    _).mpr ⟨hostKey, hsigned, hpin, rfl⟩
  simp only [verifyPeerCertificateInternal, hder, hcert, hkey, htime, Comp.bind_apply,
    Comp.ofResult_apply, Comp.update_apply, if_neg huids]
  obtain ⟨s', hextract, -⟩ := hreturns
    (((s.note fun _ => {}).fill .zero |>.note fun report =>
      { report with issuerUniqueIdPresent := cert.issuerUid,
                    subjectUniqueIdPresent := cert.subjectUid }).note
      fun report => { report with selfSignatureValid := true })
  rw [hextract]
  exact ⟨_, hverify s'⟩

/-- A verification that fails leaves zeros. -/
theorem verifyPeerCertificateInternal_error {e : QuicErr}
    (h : verifyPeerCertificateInternal x509 lib certificate expected now true s = (.error e, s')) :
    s'.out = s.out.map fun _ => .zero := by
  have hrest : ErrorKeeps (do
      let der ← Comp.ofResult (checkVerifyInput certificate expected)
      let cert ← Comp.ofResult (parseCertificate x509 der)
      Comp.update fun s => s.note fun report =>
        { report with
          issuerUniqueIdPresent := cert.issuerUid
          subjectUniqueIdPresent := cert.subjectUid }
      if cert.issuerUid ∨ cert.subjectUid then Comp.fail .certificate
      else do
        let key ← Comp.ofResult (checkSelfSigned cert)
        Comp.update fun s => s.note fun report => { report with selfSignatureValid := true }
        let time ← Comp.ofResult (checkCertTime cert now true)
        let payload ← extractExtension cert
        verifySignedKey lib key payload expected time.1 time.2) := by
    refine .bind (Returns.ofResult _) fun der => .bind (Returns.ofResult _) fun cert =>
      .bind (Returns.noted _) fun _ => .ite (.fail _) ?_
    refine .bind (Returns.ofResult _) fun key => .bind (Returns.noted _) fun _ =>
      .bind (Returns.ofResult _) fun time => ?_
    obtain ⟨r, hreturns, -⟩ := extractExtension_returns cert
    exact .bind hreturns fun payload => verifySignedKey_errorKeeps lib key payload expected _ _
  have hkeeps := hrest _ e s' h
  rw [hkeeps, VerifyOut.fill_out, VerifyOut.note_out]

end

/-! ## Exactness -/

/-- An expected peer id as the callers pass it: NULL beside no length, or its bytes. -/
def ConstBuffer.ofOption : Option Bytes → ConstBuffer
  | none => .null 0
  | some bytes => .ptr bytes

/-- The bytes that a buffer points to. -/
def ConstBuffer.bytes? : ConstBuffer → Option Bytes
  | .null _ => none
  | .ptr bytes => some bytes

/-- What a verification owes its caller. It accepts a certificate that certifies a host key, and the
    expected one where one is expected; the identity is then that key's, and zeros otherwise. -/
structure VerifiesExactly (x509 : X509Parser) (lib : Secp256k1) (certificate expected : Option Bytes)
    (now : Nat) (out : Option PeerIdentity) (answer : Except QuicErr Unit × Option PeerIdentity) :
    Prop where
  ok_iff : answer.1 = .ok () ↔ ∃ der hostKey notBefore notAfter, certificate = some der ∧
    Certifies x509 lib der now hostKey notBefore notAfter ∧
    ∀ id, expected = some id → id = lib.peerIdOf hostKey
  identity : answer.1 = .ok () → ∃ der hostKey notBefore notAfter, certificate = some der ∧
    Certifies x509 lib der now hostKey notBefore notAfter ∧
    answer.2 = out.map fun _ =>
      .of (lib.peerIdOf hostKey) (keyMessage hostKey) notBefore.toNat notAfter.toNat
  zeroed : answer.1 ≠ .ok () → answer.2 = out.map fun _ => .zero

/-- The inputs on which a certificate is told apart from one to refuse: one that certifies a host key
    comes with no expected peer id or with one of some bytes, and if its validity starts before 1970
    the id is not expected. -/
def Distinguished (x509 : X509Parser) (lib : Secp256k1) (certificate expected : Option Bytes)
    (now : Nat) : Prop :=
  ∀ der hostKey notBefore notAfter, certificate = some der →
    Certifies x509 lib der now hostKey notBefore notAfter →
    if notBefore < 0 then ∃ id, expected = some id ∧ id ≠ lib.peerIdOf hostKey
    else expected ≠ some []

theorem pinMismatch_eq_false_iff {expected : Option Bytes} {peerId : Bytes} :
    pinMismatch (.ofOption expected) peerId = false ↔
      ∀ id, expected = some id → id = [] ∨ id = peerId := by
  cases expected with
  | none => simp [pinMismatch, ConstBuffer.ofOption]
  | some id =>
    simp only [pinMismatch, ConstBuffer.ofOption, Option.some.injEq, forall_eq']
    cases id <;> simp

theorem ofOption_null {expected : Option Bytes} (len : Nat)
    (h : ConstBuffer.ofOption expected = .null len) : len = 0 := by
  cases expected with
  | none => exact (ConstBuffer.null.inj h).symm
  | some id => cases h

/-- The times of a certificate are those it is parsed with. -/
theorem Certifies.notBefore_eq {der hostKey hostKey' : Bytes}
    {now : Nat} {notBefore notBefore' notAfter notAfter' : Int}
    (h : Certifies x509 lib der now hostKey notBefore notAfter)
    (h' : Certifies x509 lib der now hostKey' notBefore' notAfter') : notBefore = notBefore' := by
  obtain ⟨cert, key, payload, hself, -⟩ := h
  obtain ⟨cert', key', payload', hself', -⟩ := h'
  have hcert := hself.parsed.symm.trans hself'.parsed
  simp only [Option.some.injEq, Prod.mk.injEq, and_true] at hcert
  have hbefore := hself.notBefore_eq.symm.trans (hcert ▸ hself'.notBefore_eq)
  exact Option.some.inj hbefore

theorem Certifies.unexpired {der hostKey : Bytes} {now : Nat}
    {notBefore notAfter : Int} (h : Certifies x509 lib der now hostKey notBefore notAfter) :
    0 ≤ notAfter := by
  obtain ⟨cert, key, payload, hself, -⟩ := h
  have := hself.unexpired
  omega

/-- The run of one certificate's verification. -/
theorem verifyPeerCertificateInternal_exact_iff {certificate : ConstBuffer} {expected : Option Bytes} {now : Nat} {s s' : VerifyOut}
    {result : Except QuicErr Unit}
    (hrun : verifyPeerCertificateInternal x509 lib certificate (.ofOption expected) now true s =
      (result, s')) :
    VerifiesExactly x509 lib certificate.bytes? expected now s.out (result, s'.out) ↔
      Distinguished x509 lib certificate.bytes? expected now := by
  constructor
  · intro h der hostKey notBefore notAfter hder hcertifies
    split
    · rename_i hearly
      by_contra hpin
      have hok : result = .ok () := h.ok_iff.mpr
        ⟨der, hostKey, notBefore, notAfter, hder, hcertifies, fun id hid => by
          by_contra hne
          exact hpin ⟨id, hid, hne⟩⟩
      subst hok
      obtain ⟨der', hostKey', before, after, rfl, hcertifies', -, -⟩ :=
        verifyPeerCertificateInternal_of_ok hrun
      cases Option.some.inj hder
      have := hcertifies.notBefore_eq hcertifies'
      omega
    · rename_i hlate
      rintro rfl
      have hcert : certificate = .ptr der := by
        cases certificate with
        | null len => cases hder
        | ptr bytes => rw [Option.some.inj hder]
      subst hcert
      have hcertifies' : Certifies x509 lib der now hostKey (notBefore.toNat : Nat)
          (notAfter.toNat : Nat) := by
        rwa [Int.toNat_of_nonneg (not_lt.mp hlate), Int.toNat_of_nonneg hcertifies.unexpired]
      have hpin : pinMismatch (.ofOption (some [])) (lib.peerIdOf hostKey) = false :=
        pinMismatch_eq_false_iff.mpr fun id hid => .inl (Option.some.inj hid).symm
      obtain ⟨s'', hrun'⟩ := verifyPeerCertificateInternal_ok ofOption_null hcertifies' hpin s
      have hok : result = .ok () := (Prod.mk.inj (hrun.symm.trans hrun')).1
      obtain ⟨_, hostKey', _, _, _, _, hpin⟩ := h.ok_iff.mp hok
      exact Secp256k1.peerIdOf_ne_nil hostKey' (hpin [] rfl).symm
  · intro h
    cases result with
    | error e =>
      refine ⟨⟨fun hok => (by cases hok), fun hclaim => ?_⟩, fun hok => (by cases hok), fun _ =>
        verifyPeerCertificateInternal_error hrun⟩
      obtain ⟨der, hostKey, notBefore, notAfter, hder, hcertifies, hpin⟩ := hclaim
      have hcert : certificate = .ptr der := by
        cases certificate with
        | null len => cases hder
        | ptr bytes => rw [Option.some.inj hder]
      subst hcert
      have hdistinct := h der hostKey notBefore notAfter hder hcertifies
      split at hdistinct
      · obtain ⟨id, hid, hne⟩ := hdistinct
        exact absurd (hpin id hid) hne
      · rename_i hlate
        have hcertifies' : Certifies x509 lib der now hostKey (notBefore.toNat : Nat)
            (notAfter.toNat : Nat) := by
          rwa [Int.toNat_of_nonneg (not_lt.mp hlate), Int.toNat_of_nonneg hcertifies.unexpired]
        obtain ⟨s'', hrun'⟩ := verifyPeerCertificateInternal_ok ofOption_null hcertifies'
          (pinMismatch_eq_false_iff.mpr fun id hid => .inr (hpin id hid)) s
        cases hrun.symm.trans hrun'
    | ok u =>
      obtain ⟨der, hostKey, before, after, rfl, hcertifies, hpin, hout⟩ :=
        verifyPeerCertificateInternal_of_ok hrun
      have hdistinct := h der hostKey before after rfl hcertifies
      rw [if_neg (by omega)] at hdistinct
      refine ⟨⟨fun _ => ⟨der, hostKey, before, after, rfl, hcertifies, fun id hid => ?_⟩, fun _ =>
        rfl⟩, fun _ => ⟨der, hostKey, before, after, rfl, hcertifies, ?_⟩, fun hne =>
        absurd rfl hne⟩
      · refine (pinMismatch_eq_false_iff.mp hpin id hid).resolve_left ?_
        rintro rfl
        exact hdistinct hid
      · rw [hout]
        simp only [Int.toNat_natCast]

/-- The one certificate of a chain. -/
def CertificateChain.only : CertificateChain → Option Bytes
  | .array [certificate] => certificate.bytes?
  | _ => none

/-- Whether a chain is an array of one certificate. -/
def CertificateChain.isOne : CertificateChain → Bool
  | .array [_] => true
  | _ => false

/-- A chain that is not one certificate is refused, and the output stays as it was. -/
theorem verifyPeerCertificateChain_of_not_one {chain : CertificateChain} {expected : ConstBuffer} {now : Nat} (hone : chain.isOne = false)
    (s : VerifyOut) :
    ∃ e, verifyPeerCertificateChain x509 lib chain expected now s =
      (.error e, s.note fun _ => {}) ∧ chain.only = none := by
  unfold verifyPeerCertificateChain
  cases chain with
  | null count =>
    exact ⟨_, rfl, rfl⟩
  | array certificates =>
    rcases certificates with _ | ⟨first, _ | ⟨second, rest⟩⟩
    · exact ⟨_, rfl, rfl⟩
    · cases hone
    · exact ⟨_, rfl, rfl⟩

/-- Both forms verify exactly on the certificates that are told apart, and the chain form where the
    chain is one certificate or the output is zero already. -/
theorem verifyPeerCertificateChain_exact_iff (x509 : X509Parser) (lib : Secp256k1)
    (chain : CertificateChain) (certificate : ConstBuffer) (expected : Option Bytes) (now : Nat)
    (out : Option PeerIdentity) (report : Option CertificateReport) :
    (VerifiesExactly x509 lib certificate.bytes? expected now out
        (verifyPeerCertificate x509 lib certificate (.ofOption expected) now out) ↔
      Distinguished x509 lib certificate.bytes? expected now) ∧
    (VerifiesExactly x509 lib chain.only expected now out
        ((verifyPeerCertificateChain x509 lib chain (.ofOption expected) now ⟨out, report⟩).1,
          (verifyPeerCertificateChain x509 lib chain (.ofOption expected) now ⟨out, report⟩).2.out) ↔
      Distinguished x509 lib chain.only expected now ∧
        (chain.isOne = true ∨ out = out.map fun _ => .zero)) := by
  constructor
  · exact @verifyPeerCertificateInternal_exact_iff x509 lib certificate expected now ⟨out, none⟩ _ _
      (Prod.eta _).symm
  · cases hone : chain.isOne with
    | true =>
      have hchain : ∃ only, chain = .array [only] := by
        rcases chain with count | certificates
        · cases hone
        · rcases certificates with _ | ⟨first, _ | ⟨second, rest⟩⟩
          · cases hone
          · exact ⟨first, rfl⟩
          · cases hone
      obtain ⟨only, rfl⟩ := hchain
      simp only [true_or, and_true]
      exact @verifyPeerCertificateInternal_exact_iff x509 lib only expected now
        ((⟨out, report⟩ : VerifyOut).note fun _ => {}) _ _ (Prod.eta _).symm
    | false =>
      obtain ⟨e, hrun, honly⟩ := @verifyPeerCertificateChain_of_not_one x509 lib chain
        (.ofOption expected) now hone ⟨out, report⟩
      rw [hrun, honly]
      simp only [Bool.false_eq_true, false_or, VerifyOut.note_out]
      constructor
      · exact fun h => ⟨fun der _ _ _ hder => (by cases hder), h.zeroed (by simp)⟩
      · intro h
        refine ⟨⟨fun hok => (by cases hok), fun hclaim => ?_⟩, fun hok => (by cases hok), fun _ =>
          h.2⟩
        obtain ⟨der, _, _, _, hder, -⟩ := hclaim
        cases hder

/-- A key library that takes every key of a key's length and one signature. -/
def sampleSecp256k1 : Secp256k1 where
  parses _ := true
  sha256 _ := List.replicate 32 0
  verifies _ _ signature := signature == [9]
  sha256_length _ := rfl
  verifies_length h := by
    rw [beq_iff_eq.mp h]
    decide

/-- A certificate of one byte with a payload of that signature. -/
def sampleParser : X509Parser where
  d2i bytes :=
    if bytes = [1] then
      some ({ issuerUid := false, subjectUid := false, publicKey := some ⟨some [5]⟩,
              selfIssued := true, selfSigned := true, notBefore := some 10, notAfter := some 90,
              extensionsInvalid := false,
              extensions := [⟨tlsPublicKeyExtensionOid, true,
                [0x30, 42, 4, 37, 8, 2, 0x12, 33, 2] ++ List.replicate 32 1 ++ [4, 1, 9]⟩] }, 1)
    else none
  d2i_nil := rfl

/-- An empty chain leaves an identity standing, and an expected peer id of no bytes is met by a
    certificate of another. -/
theorem not_verifiesExactly :
    ¬ VerifiesExactly sampleParser sampleSecp256k1 (CertificateChain.array []).only none 50
        (some (.of [7] [] 0 0))
        ((verifyPeerCertificateChain sampleParser sampleSecp256k1 (.array []) (.ofOption none) 50
            ⟨some (.of [7] [] 0 0), none⟩).1,
          (verifyPeerCertificateChain sampleParser sampleSecp256k1 (.array []) (.ofOption none) 50
            ⟨some (.of [7] [] 0 0), none⟩).2.out) ∧
      ¬ VerifiesExactly sampleParser sampleSecp256k1 (ConstBuffer.ptr [1]).bytes? (some []) 50 none
        (verifyPeerCertificate sampleParser sampleSecp256k1 (.ptr [1]) (.ofOption (some [])) 50
          none) := by
  constructor
  · intro h
    have hzero := h.zeroed (by decide)
    revert hzero
    decide
  · intro h
    obtain ⟨_, hostKey, _, _, _, _, hpin⟩ := h.ok_iff.mp (by decide +kernel)
    exact Secp256k1.peerIdOf_ne_nil hostKey (hpin [] rfl).symm

end LeanLibp2p.Quic

import LeanLibp2p.Gossipsub.Rx.Decode

/-!
# One call of `gossipsub_stream_read`

Between the rounds of the loop the buffer of the stream holds the front of a frame that is not
complete, and so has room below the limit. A round appends what it read to the buffer and hands
over what became complete, unless it gets no room: then `read_len` still is what the round before
read, and is added once more.
-/

namespace LeanLibp2p.Gossipsub

open LeanLibp2p.Lib

variable {config : Config}

/-- The front of a frame that is not complete is shorter than the largest frame. -/
theorem rpcFrames_incomplete_length {input : Bytes}
    (h : (rpcFrames config).next input = .incomplete) : input.length < streamRxMaxCap config := by
  unfold FrameFormat.next at h
  simp only [rpcFrames, rpcHead] at h
  unfold streamRxMaxCap
  cases hdecode : uvarintDecode input with
  | error e =>
    rw [hdecode] at h
    cases e with
    | truncated =>
      have := uvarintDecode_truncated_length hdecode
      unfold uvarintMaxBytes at this
      omega
    | bufTooSmall => cases h
    | nonMinimal => cases h
    | overflow => cases h
  | ok read =>
    rcases read with ⟨bodyLen, headerLen⟩
    have hread := uvarintDecode_read_le hdecode
    unfold uvarintMaxBytes at hread
    rw [hdecode] at h
    dsimp only at h
    by_cases hmax : config.limits.maxRpcBytes < bodyLen
    · rw [if_pos hmax] at h
      cases h
    · rw [if_neg hmax] at h
      dsimp only at h
      split at h
      · omega
      · cases h

/-- What is known of the host: `H` holds of what it has for the stream while the loop goes on, `E`
    when the loop has ended, and its reads fail only with errors in `U`. -/
structure ReadContract {τ : Type} (source : ReadSource τ) (H E : τ → Prop)
    (U : GossipsubErr → Prop) : Prop where
  fail : ∀ room host e host', H host → 0 < room → source.read room host = (.fail e, host') → U e
  wouldBlock : ∀ room host host', H host → 0 < room →
    source.read room host = (.wouldBlock, host') → E host'
  stops : ∀ room host bytes fin host', H host → 0 < room →
    source.read room host = (.data bytes fin, host') → fin = true ∨ bytes = [] → E host'
  goesOn : ∀ room host bytes host', H host → 0 < room →
    source.read room host = (.data bytes false, host') → bytes ≠ [] → H host'

/-- Nothing need be known of the host. -/
theorem ReadContract.trivial {τ : Type} (source : ReadSource τ) :
    ReadContract source (fun _ => True) (fun _ => True) source.Fails :=
  ⟨fun room host _ _ _ _ h => ⟨room, host, congrArg Prod.fst h⟩, fun _ _ _ _ _ _ => True.intro,
    fun _ _ _ _ _ _ _ _ _ => True.intro, fun _ _ _ _ _ _ _ _ => True.intro⟩

namespace Receiver

variable {s s' s₀ : Receiver} {i : Nat} {U : GossipsubErr → Prop}

/-- Between two rounds: no frame in the buffer is complete. -/
structure Settled (config : Config) (i : Nat) (s₀ s : Receiver) : Prop extends
    Progress config i s₀ s where
  incomplete : (rpcFrames config).next (s.rx.content config i) = .incomplete

theorem Settled.len_lt (h : Settled config i s₀ s) :
    (s.rx.stream i).len < streamRxMaxCap config := by
  have := rpcFrames_incomplete_length h.incomplete
  rwa [Rx.content_length] at this

theorem sizeSub_of_le {a b : Nat} (h : b ≤ a) : sizeSub a b = a - b := if_pos h

theorem requiredRoom_spec {rxLen : Nat} (h : rxLen < streamRxMaxCap config) :
    rxLen < requiredRoom config rxLen ∧ requiredRoom config rxLen ≤ streamRxMaxCap config := by
  unfold requiredRoom
  split <;> omega

/-- A round gets room, or the shared buffer has none. -/
theorem ensureRoom_spec (hbuffer : streamRxBufferCap config < sizeMax)
    (hi : i < config.capacity.maxStreams) (h : Settled config i s₀ s) :
    ∃ stopped s', ensureRoom config i s = (.ok stopped, s') ∧ Settled config i s₀ s' ∧
      (stopped = false → (s'.rx.stream i).len < (s'.rx.stream i).cap) ∧
      (stopped = true → blocked config i s = true) := by
  have hlen := h.len_lt
  have hle := h.sound.wellFormed.len_le i hi
  unfold ensureRoom blocked
  rw [Comp.read_id_bind]
  dsimp only [id]
  rw [if_neg (by omega), sizeSub_of_le hle]
  by_cases hroom : (s.rx.stream i).cap - (s.rx.stream i).len = 0
  · rw [if_pos hroom]
    rcases requiredRoom_spec hlen with ⟨hmore, hmax⟩
    have hreserve := Rx.reserve_spec hbuffer h.sound.wellFormed hi hmax
    rcases hres : rxReserve config i (requiredRoom config (s.rx.stream i).len) s.rx with ⟨res, rx⟩
    rw [hres] at hreserve
    have hkeeps : Rx.Keeps config s.rx rx := hreserve.keeps
    have hprogress : Progress config i s₀
        (s.moveRx (.reserve i (requiredRoom config (s.rx.stream i).len)) rx) :=
      h.toProgress.keeps hreserve.wellFormed hkeeps hi
    have hlen' : (rx.stream i).len = (s.rx.stream i).len := by
      have := congrArg List.length (hkeeps i hi)
      simpa using this
    have hsettled : Settled config i s₀
        (s.moveRx (.reserve i (requiredRoom config (s.rx.stream i).len)) rx) := by
      refine ⟨hprogress, ?_⟩
      show (rpcFrames config).next (rx.content config i) = .incomplete
      rw [hkeeps i hi]
      exact h.incomplete
    have hpool := pool_of_eq
      (show (RxOp.reserve i (requiredRoom config (s.rx.stream i).len)).comp config s.rx = _ from hres)
    have hresult : Comp.result
        (pool config (.reserve i (requiredRoom config (s.rx.stream i).len))) s =
          (.ok res, s.moveRx (.reserve i (requiredRoom config (s.rx.stream i).len)) rx) := by
      unfold Comp.result
      rw [hpool]
    rcases hreserve.result with ⟨hok, hcap⟩ | hblocked
    · dsimp only at hok hcap
      subst hok
      refine ⟨false, _, ?_, hsettled, ?_, by simp⟩
      · rw [Comp.bind_of_ok hresult]
        rfl
      · intro _
        show (rx.stream i).len < (rx.stream i).cap
        omega
    · dsimp only at hblocked
      subst hblocked
      refine ⟨true, _, ?_, hsettled, by simp, ?_⟩
      · rw [Comp.bind_of_ok hresult]
        rfl
      · intro _
        rw [hroom]
        simp [hlen]
  · rw [if_neg hroom]
    exact ⟨false, s, rfl, h, fun _ => by omega, by simp⟩

/-- The receiver after the host wrote `bytes` behind what the buffer holds, and `rx_len` was moved
    on. -/
def appended (config : Config) (i : Nat) (bytes : Bytes) (s : Receiver) : Receiver :=
  let written := s.rx.write config i (s.rx.stream i).len bytes
  ((s.moveRx (.write i bytes) written).setLog i fun log =>
    { log with received := log.received ++ bytes }).moveRx (.advance i bytes.length)
      (written.setStream i { written.stream i with len := (written.stream i).len + bytes.length })

/-- Bytes that were read stand behind those that the buffer held. -/
theorem Progress.appended (hi : i < config.capacity.maxStreams) (h : Progress config i s₀ s)
    {bytes : Bytes} (hfits : (s.rx.stream i).len + bytes.length ≤ (s.rx.stream i).cap) :
    Progress config i s₀ (appended config i bytes s) ∧
      (appended config i bytes s).rx.content config i = s.rx.content config i ++ bytes := by
  have hwf := h.sound.wellFormed
  have hstream := congrFun (@Rx.write_stream config i (s.rx.stream i).len bytes s.rx).1 i
  have hwritten := hwf.write i (s.rx.stream i).len bytes
  have hothers := Rx.write_others hwf hi hfits
  have hbefore := @Rx.write_bytes_before config (s.rx.stream i).len 0 (s.rx.stream i).len i bytes
    s.rx (by omega)
  have hbytes := @Rx.write_bytes config i (s.rx.stream i).len bytes s.rx
  have hcontent : (s.rx.write config i (s.rx.stream i).len bytes).content config i =
      s.rx.content config i := by
    unfold Rx.content
    rw [hstream]
    exact hbefore
  unfold Receiver.appended
  dsimp only
  generalize hw : s.rx.write config i (s.rx.stream i).len bytes = written at *
  rcases Rx.advance_spec (i := i) (n := bytes.length) hwritten (by rw [hstream]; exact hfits) with
    ⟨hadvanced, hgrown⟩
  have hcontent' := hgrown.trans
    (show _ = s.rx.content config i ++ bytes by rw [hstream, hbytes, hcontent])
  have hsound : (s.moveRx (.write i bytes) written).Sound config :=
    h.sound.pool hwritten hothers
  have hlog : ((s.moveRx (.write i bytes) written).setLog i fun log =>
      { log with received := log.received ++ bytes }).log i =
        { s.log i with received := (s.log i).received ++ bytes } := setLog_self ..
  refine ⟨⟨?_, ?_, ?_, ?_, ?_, ?_⟩, hcontent'⟩
  · exact (hsound.setLog i _).pool hadvanced (Rx.setLen_others written i _)
  · refine h.aside.trans ⟨?_, fun j hji => Function.update_of_ne hji ..⟩
    intro j hj hji
    exact (Rx.setLen_others written i _ j hj hji).trans (hothers j hj hji)
  · exact (congrArg StreamLog.error hlog).trans h.error
  · exact (congrArg StreamLog.refused hlog).trans h.refused
  · rw [moveRx_log, moveRx_rx, hlog, hcontent']
    exact h.frames.append_input bytes
  · obtain ⟨bodies, hhanded, hrun⟩ := h.routed
    exact ⟨bodies, (congrArg StreamLog.handed hlog).trans hhanded, hrun⟩

/-- Nothing was read. -/
theorem addRead_nothing (config : Config) (i : Nat) (s : Receiver) :
    addRead config i 0 s = (.ok (), s.moveRx (.advance i 0) s.rx) := by
  have hsame : s.rx.setStream i { s.rx.stream i with len := (s.rx.stream i).len + 0 } = s.rx := by
    unfold Rx.setStream
    simp
  have hpool : pool config (.advance i 0) s = (.ok (), s.moveRx (.advance i 0) s.rx) :=
    pool_of_eq (congrArg (Prod.mk (Except.ok ())) hsame)
  unfold addRead
  rw [Comp.bind_of_ok hpool]
  rfl

theorem addRead_zero (hi : i < config.capacity.maxStreams) (h : Settled config i s₀ s) :
    ∃ s', addRead config i 0 s = (.ok (), s') ∧ Settled config i s₀ s' := by
  refine ⟨s.moveRx (.advance i 0) s.rx, addRead_nothing config i s, ?_, ?_⟩
  · exact h.toProgress.keeps h.sound.wellFormed (fun _ _ => rfl) hi
  · exact h.incomplete

/-- The part of a round behind a read that gave bytes. -/
theorem readRound_data {τ : Type} (i : Nat) (bytes : Bytes) (fin : Bool) (host : τ) (s : Receiver) :
    (do
      pool config (.write i bytes)
      Comp.update (setLog i fun log => { log with received := log.received ++ bytes })
      addRead config i bytes.length
      return (host, bytes.length, !fin && bytes.length ≠ 0) : ReceiverM (τ × Nat × Bool)) s =
    (Comp.onlyIf (decide (bytes.length ≠ 0)) (decodeAvailable config i) >>= fun _ =>
      pure (host, bytes.length, !fin && bytes.length ≠ 0)) (appended config i bytes s) := rfl

/-- What a round was given to go on with, or why it failed. -/
theorem readRound_spec {τ : Type} {source : ReadSource τ} {H E : τ → Prop}
    (hcontract : ReadContract source H E U) (hbuffer : streamRxBufferCap config < sizeMax)
    (hi : i < config.capacity.maxStreams) (h : Settled config i s₀ s) {readLen : Nat} {host : τ}
    (hH : H host) (hblocked : blocked config i s = true → readLen = 0 ∧ E host) :
    (∀ x s', readRound config source i readLen host s = (.ok x, s') → Settled config i s₀ s' ∧
      (x.2.2 = true → H x.1 ∧ source.size x.1 < source.size host) ∧ (x.2.2 = false → E x.1)) ∧
    ∀ e s', readRound config source i readLen host s = (.error e, s') →
      Failed config i U s₀ s' e := by
  obtain ⟨stopped, s₁, hensure, h₁, hroom, hstopped⟩ := ensureRoom_spec hbuffer hi h
  unfold readRound
  rw [Comp.bind_of_ok hensure]
  cases stopped with
  | true =>
    obtain ⟨rfl, hE⟩ := hblocked (hstopped rfl)
    obtain ⟨s₂, hadd, h₂⟩ := addRead_zero hi h₁
    rw [if_pos rfl, Comp.bind_of_ok hadd]
    refine ⟨?_, by rintro e s' ⟨⟩⟩
    rintro x s' ⟨⟩
    exact ⟨h₂, by simp, fun _ => hE⟩
  | false =>
    have hlen := hroom rfl
    rw [if_neg (by simp), Comp.read_id_bind, sizeSub_of_le (Nat.le_of_lt hlen)]
    have hpos : 0 < min ((s₁.rx.stream i).cap - (s₁.rx.stream i).len) 65536 := by omega
    generalize hr : min ((s₁.rx.stream i).cap - (s₁.rx.stream i).len) 65536 = room at hpos ⊢
    rcases hread : source.read room host with ⟨res, host'⟩
    cases res with
    | fail e =>
      refine ⟨by rintro x s' ⟨⟩, ?_⟩
      rintro e' s' ⟨⟩
      apply h₁.failed
      exact .unreadable h₁.refused h₁.frames h₁.incomplete (hcontract.fail room host e host' hH hpos hread)
    | wouldBlock =>
      obtain ⟨s₂, hadd, h₂⟩ := addRead_zero hi h₁
      dsimp only
      rw [Comp.bind_of_ok hadd]
      refine ⟨?_, by rintro e s' ⟨⟩⟩
      rintro x s' ⟨⟩
      exact ⟨h₂, by simp, fun _ => hcontract.wouldBlock room host host' hH hpos hread⟩
    | data bytes fin =>
      have hfits := source.length_le room host bytes fin host' hread
      rcases h₁.toProgress.appended hi (by omega : _ + bytes.length ≤ _) with
        ⟨happended, hcontent⟩
      have hend : fin = true ∨ bytes = [] → E host' :=
        hcontract.stops room host bytes fin host' hH hpos hread
      dsimp only
      rw [readRound_data]
      by_cases hbytes : bytes = []
      · subst hbytes
        refine ⟨?_, by rintro e s' ⟨⟩⟩
        rintro x s' ⟨⟩
        refine ⟨⟨happended, ?_⟩, by simp, fun _ => hend (.inr rfl)⟩
        rw [hcontent, List.append_nil]
        exact h₁.incomplete
      · rcases decodeAvailable_spec (U := U) hbuffer hi happended with ⟨hok, herror⟩
        have hnonempty : decide (bytes.length ≠ 0) = true := by simpa using hbytes
        rw [hnonempty]
        have honly : Comp.onlyIf true (decodeAvailable config i) (appended config i bytes s₁) =
            decodeAvailable config i (appended config i bytes s₁) := rfl
        rcases hdecode : decodeAvailable config i (appended config i bytes s₁) with ⟨e | u, s₂⟩
        · rw [Comp.bind_of_error (honly.trans hdecode)]
          refine ⟨by rintro x s' ⟨⟩, ?_⟩
          rintro e' s' ⟨⟩
          exact herror _ _ hdecode
        · rw [Comp.bind_of_ok (honly.trans hdecode)]
          refine ⟨?_, by rintro e s' ⟨⟩⟩
          rintro x s' ⟨⟩
          rcases hok _ hdecode with ⟨h₂, hnext⟩
          refine ⟨⟨h₂, hnext⟩, ?_, ?_⟩
          · intro hkeep
            have hfin : fin = false := by simpa using hkeep
            subst hfin
            exact ⟨hcontract.goesOn room host bytes host' hH hpos hread hbytes,
              source.size_lt room host bytes false host' hread hbytes⟩
          · intro hstop
            have hfin : fin = true := by simpa using hstop
            exact hend (.inl hfin)

/-- Each round of the loop starts with a `read_len` and a state that `P` allows. -/
def Rounds {τ : Type} (config : Config) (source : ReadSource τ) (i : Nat)
    (P : Nat → Receiver → Prop) : Nat → Nat → τ → Receiver → Prop
  | 0, _, _, _ => True
  | fuel + 1, readLen, host, s => P readLen s ∧
      Comp.Yields (readRound config source i readLen host) s fun x s' =>
        x.2.2 = true → Rounds config source i P fuel x.2.1 x.1 s'

instance Rounds.decidable {τ : Type} (source : ReadSource τ) (P : Nat → Receiver → Prop)
    [∀ readLen s, Decidable (P readLen s)] : (fuel readLen : Nat) → (host : τ) → (s : Receiver) →
      Decidable (Rounds config source i P fuel readLen host s)
  | 0, _, _, _ => .isTrue trivial
  | fuel + 1, readLen, host, s =>
    have := fun (x : τ × Nat × Bool) => Rounds.decidable source P fuel x.2.1 x.1
    inferInstanceAs (Decidable (P readLen s ∧
      Comp.Yields (readRound config source i readLen host) s fun x s' =>
        x.2.2 = true → Rounds config source i P fuel x.2.1 x.1 s'))

/-- The loop hands over the frames of what it reads, if a round that gets no room follows none that
    read bytes. -/
theorem streamReadLoop_spec {τ : Type} {source : ReadSource τ} {H E : τ → Prop}
    {P : Nat → Receiver → Prop} (hcontract : ReadContract source H E U)
    (hbuffer : streamRxBufferCap config < sizeMax) (hi : i < config.capacity.maxStreams)
    (hP : ∀ readLen s host, P readLen s → H host → blocked config i s = true →
      readLen = 0 ∧ E host) (fuel : Nat) {readLen : Nat} {host : τ} (h : Settled config i s₀ s)
    (hH : H host) (hfuel : source.size host < fuel)
    (hrounds : Rounds config source i P fuel readLen host s) :
    (∀ host' s', streamReadLoop config source i fuel readLen host s = (.ok host', s') →
      Settled config i s₀ s' ∧ E host') ∧
    ∀ e s', streamReadLoop config source i fuel readLen host s = (.error e, s') →
      Failed config i U s₀ s' e := by
  induction fuel generalizing s readLen host with
  | zero => omega
  | succ fuel ih =>
    rcases readRound_spec hcontract hbuffer hi h hH (hP readLen s host hrounds.1 hH) with
      ⟨hok, herror⟩
    unfold streamReadLoop
    rcases hround : readRound config source i readLen host s with ⟨e | x, s₁⟩
    · rw [Comp.bind_of_error hround]
      refine ⟨by rintro x s' ⟨⟩, ?_⟩
      rintro e' s' ⟨⟩
      exact herror _ _ hround
    · rw [Comp.bind_of_ok hround]
      rcases hok x s₁ hround with ⟨h₁, hkeep, hstop⟩
      have hnext := hrounds.2 x s₁ hround
      rcases x with ⟨host₁, readLen₁, keepReading⟩
      cases keepReading with
      | true =>
        rcases hkeep rfl with ⟨hH₁, hsize⟩
        dsimp only at hsize
        exact ih h₁ hH₁ (by omega) (hnext rfl)
      | false =>
        refine ⟨?_, by rintro e s' ⟨⟩⟩
        rintro host' s' ⟨⟩
        exact ⟨h₁, hstop rfl⟩

end Receiver

end LeanLibp2p.Gossipsub

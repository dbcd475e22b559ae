import LeanLibp2p.Gossipsub.Router.MeshTable
import Mathlib.Data.List.Dedup
import Mathlib.Data.List.Perm.Subperm

/-!
# The backoff table

Calls of `gossipsub_backoff_add` and `gossipsub_backoff_clear_expired` one after the other, with the
backoffs that were added. An entry stands for the longest backoff of its pair. An entry that is
still running is only given up by an add whose own backoff is over when it is made.
-/

namespace LeanLibp2p.Gossipsub

open LeanLibp2p.Lib

/-- A call on the backoff table. -/
inductive BackoffCall where
  | add (p t intervalUs nowUs : Nat)
  | clearExpired (nowUs : Nat)
  deriving DecidableEq, Repr

/-- The time of a call. -/
def BackoffCall.nowUs : BackoffCall → Nat
  | .add _ _ _ nowUs => nowUs
  | .clearExpired nowUs => nowUs

/-- A backoff that was added: its pair of a peer and a topic, and when it is over. -/
structure AddedBackoff where
  pair : Nat × Nat
  expiresUs : Nat
  deriving DecidableEq, Repr

/-- The router, the backoffs that were added to its table, and the time of the last call. -/
structure BackoffRun where
  router : Router
  added : List AddedBackoff := []
  clockUs : Nat := 0

namespace BackoffRun

variable (config : Config)

/-- When a backoff added at time `nowUs` is over: `min(2^64 - 1, now + interval + slack)`. -/
def overAt (intervalUs nowUs : Nat) : Nat :=
  min uint64Max (nowUs + intervalUs + config.mesh.backoffSlackUs)

/-- One call. An add with an index out of range is refused. -/
def step (run : BackoffRun) : BackoffCall → BackoffRun
  | .add p t intervalUs nowUs =>
    { router := (backoffAdd config p t intervalUs nowUs run.router).2
      added :=
        if p < config.capacity.maxPeers ∧ t < config.capacity.maxTopics then
          run.added ++ [⟨(p, t), overAt config intervalUs nowUs⟩]
        else run.added
      clockUs := nowUs }
  | .clearExpired nowUs =>
    { run with router := backoffClearExpired config nowUs run.router, clockUs := nowUs }

/-- The router with an empty backoff table. -/
def start (r : Router) : BackoffRun := ⟨{ r with backoff := fun _ => .free }, [], 0⟩

/-- The pairs with a backoff that is not over at the last call. -/
def unexpired (run : BackoffRun) : List (Nat × Nat) :=
  ((run.added.filter fun backoff => run.clockUs < backoff.expiresUs).map AddedBackoff.pair).dedup

/-- Times are 64-bit numbers and do not decrease, and the table has an entry for each pair that has an
    unexpired backoff after the call. -/
def Timely (run : BackoffRun) (call : BackoffCall) : Prop :=
  run.clockUs ≤ call.nowUs ∧ call.nowUs ≤ uint64Max ∧
    (run.step config call).unexpired.length ≤ config.capacity.maxBackoffEntries

instance (run : BackoffRun) (call : BackoffCall) : Decidable (run.Timely config call) :=
  inferInstanceAs (Decidable (_ ∧ _))

/-- The two used entries are of one pair. -/
def Router.SamePair (r : Router) (i j : Nat) : Prop :=
  (r.backoff i).used = true ∧ (r.backoff j).used = true ∧
    (r.backoff i).peerIndex = (r.backoff j).peerIndex ∧
      (r.backoff i).topicIndex = (r.backoff j).topicIndex

/-- Each pair has one entry at most, and a backoff is active exactly as long as the longest one that was
    added for the pair. -/
structure Faithful (run : BackoffRun) : Prop where
  unique : ∀ i < config.capacity.maxBackoffEntries, ∀ j < config.capacity.maxBackoffEntries,
    Router.SamePair run.router i j → i = j
  active : ∀ p t nowUs, run.clockUs ≤ nowUs →
    (backoffActive config run.router p t nowUs = true ↔
      ∃ backoff ∈ run.added, backoff.pair = (p, t) ∧ nowUs < backoff.expiresUs)

/-- Every entry of the table is of another pair and is still running. -/
def Crowded (r : Router) (p t nowUs : Nat) : Prop :=
  0 < config.capacity.maxBackoffEntries ∧ ∀ i < config.capacity.maxBackoffEntries,
    (r.backoff i).used = true ∧ (r.backoff i).concerns p t = false ∧ nowUs < (r.backoff i).expiresUs

instance (r : Router) (p t nowUs : Nat) : Decidable (Crowded config r p t nowUs) :=
  inferInstanceAs (Decidable (_ ∧ _))

/-- No add of a backoff that is over when it is made comes to a table whose entries are all of other
    pairs and running. -/
def Spares (run : BackoffRun) : BackoffCall → Prop
  | .add p t intervalUs nowUs =>
    p < config.capacity.maxPeers → t < config.capacity.maxTopics →
      overAt config intervalUs nowUs ≤ nowUs → ¬ Crowded config run.router p t nowUs
  | .clearExpired _ => True

instance (run : BackoffRun) (call : BackoffCall) : Decidable (run.Spares config call) :=
  match call with
  | .add _ _ _ _ => inferInstanceAs (Decidable (_ → _ → _ → ¬ _))
  | .clearExpired _ => inferInstanceAs (Decidable True)

/-! ## The functions -/

variable {config} {r : Router} {p t intervalUs nowUs : Nat}

theorem u64AddSaturating_eq {a b : Nat} (h : a ≤ uint64Max) :
    u64AddSaturating a b = min uint64Max (a + b) := by
  unfold u64AddSaturating
  split <;> omega

theorem backoffExpiresUs_eq (h : nowUs ≤ uint64Max) :
    backoffExpiresUs config intervalUs nowUs = overAt config intervalUs nowUs := by
  unfold backoffExpiresUs overAt
  rw [u64AddSaturating_eq h]
  unfold u64AddSaturating
  split <;> omega

/-- The entry that is replaced expires first. -/
theorem backoffEarliest_cases (config : Config) (r : Router) :
    (backoffEarliest config r = none ∧
        ∀ i < config.capacity.maxBackoffEntries, (r.backoff i).used = false) ∨
      ∃ i, backoffEarliest config r = some i ∧ i < config.capacity.maxBackoffEntries ∧
        (r.backoff i).used = true ∧ ∀ j < config.capacity.maxBackoffEntries,
          (r.backoff j).used = true → (r.backoff i).expiresUs ≤ (r.backoff j).expiresUs := by
  unfold backoffEarliest
  induction config.capacity.maxBackoffEntries with
  | zero => simp
  | succ n ih =>
    rw [List.range_succ, List.foldl_append, List.foldl_cons, List.foldl_nil]
    by_cases hused : (r.backoff n).used = true
    · right
      rw [if_pos hused]
      rcases ih with ⟨hnone, hfree⟩ | ⟨i, hsome, hi, hiused, hfirst⟩
      · rw [hnone]
        refine ⟨n, rfl, Nat.lt_succ_self n, hused, fun j hj hjused => ?_⟩
        by_cases hjn : j = n
        · rw [hjn]
        · rw [hfree j (by omega)] at hjused
          cases hjused
      · rw [hsome]
        dsimp only
        by_cases hless : (r.backoff n).expiresUs < (r.backoff i).expiresUs
        · rw [if_pos hless]
          refine ⟨n, rfl, Nat.lt_succ_self n, hused, fun j hj hjused => ?_⟩
          by_cases hjn : j = n
          · rw [hjn]
          · exact (Nat.le_of_lt hless).trans (hfirst j (by omega) hjused)
        · rw [if_neg hless]
          refine ⟨i, rfl, by omega, hiused, fun j hj hjused => ?_⟩
          by_cases hjn : j = n
          · rw [hjn]
            exact Nat.le_of_not_lt hless
          · exact hfirst j (by omega) hjused
    · rw [if_neg hused]
      rcases ih with ⟨hnone, hfree⟩ | ⟨i, hsome, hi, hiused, hfirst⟩
      · refine .inl ⟨hnone, fun j hj => ?_⟩
        by_cases hjn : j = n
        · rw [hjn]
          exact Bool.eq_false_iff.mpr hused
        · exact hfree j (by omega)
      · refine .inr ⟨i, hsome, by omega, hiused, fun j hj hjused => ?_⟩
        by_cases hjn : j = n
        · exact absurd (hjn ▸ hjused) hused
        · exact hfirst j (by omega) hjused

/-- Where an add goes: to the entry of its pair, to a free one, or to the one that expires first. -/
theorem backoffAdd_cases (hp : p < config.capacity.maxPeers) (ht : t < config.capacity.maxTopics)
    (hnow : nowUs ≤ uint64Max) :
    (∃ i < config.capacity.maxBackoffEntries, (r.backoff i).concerns p t = true ∧
        overAt config intervalUs nowUs ≤ (r.backoff i).expiresUs ∧
        (backoffAdd config p t intervalUs nowUs r).2 = r) ∨
      (∃ i < config.capacity.maxBackoffEntries,
        ((r.backoff i).used = false ∨
          (r.backoff i).concerns p t = true ∧
            (r.backoff i).expiresUs < overAt config intervalUs nowUs ∨
          (∀ j < config.capacity.maxBackoffEntries, (r.backoff j).used = true ∧
            (r.backoff j).concerns p t = false ∧
              (r.backoff i).expiresUs ≤ (r.backoff j).expiresUs)) ∧
        (∀ j < config.capacity.maxBackoffEntries, (r.backoff j).concerns p t = true → j = i ∨
          (r.backoff i).concerns p t = true) ∧
        (backoffAdd config p t intervalUs nowUs r).2 =
          r.setBackoff i ⟨true, p, t, overAt config intervalUs nowUs⟩) ∨
      (config.capacity.maxBackoffEntries = 0 ∧
        (backoffAdd config p t intervalUs nowUs r).2 = r) := by
  have hrange : ¬ (config.capacity.maxPeers ≤ p ∨ config.capacity.maxTopics ≤ t) := by omega
  unfold backoffAdd
  rw [if_neg hrange, backoffExpiresUs_eq hnow]
  dsimp only
  cases hfind : findSlot config.capacity.maxBackoffEntries fun i => (r.backoff i).concerns p t with
  | some i =>
    obtain ⟨hi, hconcerns⟩ := findSlot_some hfind
    dsimp only
    by_cases hshort : (r.backoff i).expiresUs < overAt config intervalUs nowUs
    · rw [if_pos hshort]
      exact .inr (.inl ⟨i, hi, .inr (.inl ⟨hconcerns, hshort⟩), fun _ _ _ => .inr hconcerns, rfl⟩)
    · rw [if_neg hshort]
      exact .inl ⟨i, hi, hconcerns, Nat.le_of_not_lt hshort, rfl⟩
  | none =>
    have hnone := findSlot_none.mp hfind
    have hother : ∀ i, ∀ j < config.capacity.maxBackoffEntries,
        (r.backoff j).concerns p t = true → j = i ∨ (r.backoff i).concerns p t = true := by
      intro i j hj hconcerns
      rw [hnone j hj] at hconcerns
      cases hconcerns
    dsimp only
    cases hfree : findSlot config.capacity.maxBackoffEntries fun i => !(r.backoff i).used with
    | some i =>
      obtain ⟨hi, hunused⟩ := findSlot_some hfree
      exact .inr (.inl ⟨i, hi, .inl (by simpa using hunused), hother i, rfl⟩)
    | none =>
      have hfull : ∀ j < config.capacity.maxBackoffEntries, (r.backoff j).used = true := by
        simpa using findSlot_none.mp hfree
      dsimp only
      rcases backoffEarliest_cases config r with ⟨hearliest, hempty⟩ | ⟨i, hearliest, hi, -, hfirst⟩
      · rw [hearliest]
        refine .inr (.inr ⟨?_, rfl⟩)
        by_contra hpos
        have hzero := hempty 0 (by omega)
        rw [hfull 0 (by omega)] at hzero
        cases hzero
      · rw [hearliest]
        refine .inr (.inl ⟨i, hi, .inr (.inr fun j hj => ⟨hfull j hj, ?_⟩), hother i, rfl⟩)
        exact ⟨hnone j hj, hfirst j hj (hfull j hj)⟩

/-! ## The invariant -/

/-- What the table holds of the backoffs that were added. -/
structure Inv (config : Config) (run : BackoffRun) : Prop where
  unique : ∀ i < config.capacity.maxBackoffEntries, ∀ j < config.capacity.maxBackoffEntries,
    Router.SamePair run.router i j → i = j
  /-- An entry is a backoff that was added. -/
  sound : ∀ i < config.capacity.maxBackoffEntries, (run.router.backoff i).used = true →
    ⟨((run.router.backoff i).peerIndex, (run.router.backoff i).topicIndex),
      (run.router.backoff i).expiresUs⟩ ∈ run.added
  inRange : ∀ backoff ∈ run.added,
    backoff.pair.1 < config.capacity.maxPeers ∧ backoff.pair.2 < config.capacity.maxTopics
  /-- A backoff that is running has an entry that lasts as long. -/
  complete : ∀ backoff ∈ run.added, run.clockUs < backoff.expiresUs →
    ∃ i < config.capacity.maxBackoffEntries,
      (run.router.backoff i).concerns backoff.pair.1 backoff.pair.2 = true ∧
        backoff.expiresUs ≤ (run.router.backoff i).expiresUs

variable {run : BackoffRun} {call : BackoffCall}

theorem Inv.faithful (h : Inv config run) : Faithful config run := by
  refine ⟨h.unique, fun p t nowUs hclock => ?_⟩
  rw [backoffActive_iff]
  constructor
  · rintro ⟨-, -, i, hi, hconcerns, hexpires⟩
    obtain ⟨hused, rfl, rfl⟩ := Backoff.concerns_iff.mp hconcerns
    exact ⟨_, h.sound i hi hused, rfl, hexpires⟩
  · rintro ⟨backoff, hmem, hpair, hexpires⟩
    obtain ⟨i, hi, hconcerns, hle⟩ := h.complete backoff hmem (by omega)
    obtain ⟨hp, ht⟩ := h.inRange backoff hmem
    rw [hpair] at hp ht hconcerns
    exact ⟨hp, ht, i, hi, hconcerns, by omega⟩

theorem inv_start (config : Config) (r : Router) : Inv config (start r) where
  unique := by
    intro i _ j _ h
    have hfree : Backoff.free.used = true := h.1
    cases hfree
  sound := by
    intro i _ h
    have hfree : Backoff.free.used = true := h
    cases hfree
  inRange := by simp [start]
  complete := by simp [start]

/-- A table of running entries of other pairs leaves no room for one more running backoff. -/
theorem Crowded.unexpired_lt (h : Inv config run) (hcrowded : Crowded config run.router p t nowUs)
    (hp : p < config.capacity.maxPeers) (ht : t < config.capacity.maxTopics)
    (hover : nowUs < overAt config intervalUs nowUs) :
    config.capacity.maxBackoffEntries <
      (run.step config (.add p t intervalUs nowUs)).unexpired.length := by
  have hpairs : ((p, t) :: (List.range config.capacity.maxBackoffEntries).map fun i =>
      ((run.router.backoff i).peerIndex, (run.router.backoff i).topicIndex)).Nodup := by
    rw [List.nodup_cons]
    constructor
    · intro hmem
      obtain ⟨i, hi, hpair⟩ := List.mem_map.mp hmem
      obtain ⟨hused, hconcerns, -⟩ := hcrowded.2 i (List.mem_range.mp hi)
      obtain ⟨rfl, rfl⟩ := Prod.mk.inj hpair
      rw [Backoff.concerns_iff.mpr ⟨hused, rfl, rfl⟩] at hconcerns
      cases hconcerns
    · refine List.Nodup.map_on ?_ List.nodup_range
      intro i hi j hj hpair
      obtain ⟨hpeer, htopic⟩ := Prod.mk.inj hpair
      have hi := List.mem_range.mp hi
      have hj := List.mem_range.mp hj
      exact h.unique i hi j hj ⟨(hcrowded.2 i hi).1, (hcrowded.2 j hj).1, hpeer, htopic⟩
  have hsubset : ((p, t) :: (List.range config.capacity.maxBackoffEntries).map fun i =>
      ((run.router.backoff i).peerIndex, (run.router.backoff i).topicIndex)) ⊆
        (run.step config (.add p t intervalUs nowUs)).unexpired := by
    intro pair hmem
    unfold unexpired
    simp only [step, if_pos (And.intro hp ht), List.mem_dedup, List.mem_map, List.mem_filter,
      List.mem_append, List.mem_singleton, decide_eq_true_eq]
    rcases List.mem_cons.mp hmem with rfl | hmem
    · exact ⟨_, ⟨.inr rfl, hover⟩, rfl⟩
    · obtain ⟨i, hi, rfl⟩ := List.mem_map.mp hmem
      obtain ⟨hused, -, hrunning⟩ := hcrowded.2 i (List.mem_range.mp hi)
      exact ⟨_, ⟨.inl (h.sound i (List.mem_range.mp hi) hused), hrunning⟩, rfl⟩
  have hlen := (hpairs.subperm hsubset).length_le
  rw [List.length_cons, List.length_map, List.length_range] at hlen
  omega

/-- Time passes and an added backoff is remembered, while the table stays as it is. -/
theorem Inv.addKept (h : Inv config run) (hclock : run.clockUs ≤ nowUs)
    (hp : p < config.capacity.maxPeers) (ht : t < config.capacity.maxTopics) {e : Nat}
    (hkept : nowUs < e → ∃ i < config.capacity.maxBackoffEntries,
      (run.router.backoff i).concerns p t = true ∧ e ≤ (run.router.backoff i).expiresUs) :
    Inv config ⟨run.router, run.added ++ [⟨(p, t), e⟩], nowUs⟩ where
  unique := h.unique
  sound i hi hused := List.mem_append_left _ (h.sound i hi hused)
  inRange := by
    intro backoff hmem
    rcases List.mem_append.mp hmem with hmem | hmem
    · exact h.inRange backoff hmem
    · rw [List.mem_singleton.mp hmem]
      exact ⟨hp, ht⟩
  complete := by
    intro backoff hmem hrunning
    rcases List.mem_append.mp hmem with hmem | hmem
    · exact h.complete backoff hmem (Nat.lt_of_le_of_lt hclock hrunning)
    · rw [List.mem_singleton.mp hmem] at hrunning ⊢
      exact hkept hrunning

/-- An added backoff takes an entry that no other running backoff needs. -/
theorem Inv.addSet (h : Inv config run) (hclock : run.clockUs ≤ nowUs)
    (hp : p < config.capacity.maxPeers) (ht : t < config.capacity.maxTopics) {i e : Nat}
    (hi : i < config.capacity.maxBackoffEntries)
    (hother : ∀ j < config.capacity.maxBackoffEntries,
      (run.router.backoff j).concerns p t = true →
        j = i ∨ (run.router.backoff i).concerns p t = true)
    (hspare : nowUs < (run.router.backoff i).expiresUs → (run.router.backoff i).used = true →
      (run.router.backoff i).concerns p t = true ∧ (run.router.backoff i).expiresUs ≤ e) :
    Inv config ⟨run.router.setBackoff i ⟨true, p, t, e⟩, run.added ++ [⟨(p, t), e⟩], nowUs⟩ := by
  have hself : (run.router.setBackoff i ⟨true, p, t, e⟩).backoff i = ⟨true, p, t, e⟩ := by
    simp [Router.setBackoff]
  have hrest : ∀ j, j ≠ i →
      (run.router.setBackoff i ⟨true, p, t, e⟩).backoff j = run.router.backoff j := by
    intro j hj
    simp [Router.setBackoff, hj]
  -- the pair has no entry but the one that is set
  have hsole : ∀ j < config.capacity.maxBackoffEntries,
      (run.router.backoff j).concerns p t = true → j = i := by
    intro j hj hconcerns
    rcases hother j hj hconcerns with hji | hi'
    · exact hji
    · obtain ⟨hused, hpeer, htopic⟩ := Backoff.concerns_iff.mp hconcerns
      obtain ⟨hused', hpeer', htopic'⟩ := Backoff.concerns_iff.mp hi'
      exact h.unique j hj i hi
        ⟨hused, hused', hpeer.trans hpeer'.symm, htopic.trans htopic'.symm⟩
  refine ⟨?_, ?_, ?_, ?_⟩
  · intro j hj k hk hsame
    by_cases hji : j = i
    · by_cases hki : k = i
      · rw [hji, hki]
      · unfold Router.SamePair at hsame
        rw [hji, hself, hrest k hki] at hsame
        obtain ⟨-, hused, hpeer, htopic⟩ := hsame
        exact absurd (hsole k hk (Backoff.concerns_iff.mpr ⟨hused, hpeer.symm, htopic.symm⟩)) hki
    · by_cases hki : k = i
      · unfold Router.SamePair at hsame
        rw [hki, hself, hrest j hji] at hsame
        obtain ⟨hused, -, hpeer, htopic⟩ := hsame
        exact absurd (hsole j hj (Backoff.concerns_iff.mpr ⟨hused, hpeer, htopic⟩)) hji
      · unfold Router.SamePair at hsame
        rw [hrest j hji, hrest k hki] at hsame
        exact h.unique j hj k hk hsame
  · intro j hj hused
    dsimp only at hused ⊢
    by_cases hji : j = i
    · rw [hji, hself]
      exact List.mem_append_right _ List.mem_cons_self
    · rw [hrest j hji] at hused ⊢
      exact List.mem_append_left _ (h.sound j hj hused)
  · intro backoff hmem
    rcases List.mem_append.mp hmem with hmem | hmem
    · exact h.inRange backoff hmem
    · rw [List.mem_singleton.mp hmem]
      exact ⟨hp, ht⟩
  · intro backoff hmem hrunning
    dsimp only at hrunning ⊢
    rcases List.mem_append.mp hmem with hmem | hmem
    · obtain ⟨j, hj, hconcerns, hle⟩ := h.complete backoff hmem (Nat.lt_of_le_of_lt hclock hrunning)
      by_cases hji : j = i
      · obtain ⟨hused, hpeer, htopic⟩ := Backoff.concerns_iff.mp hconcerns
        rw [hji] at hused hpeer htopic hle
        obtain ⟨hconcerns', hlonger⟩ := hspare (by omega) hused
        obtain ⟨-, hpeer', htopic'⟩ := Backoff.concerns_iff.mp hconcerns'
        refine ⟨i, hi, ?_, ?_⟩
        · rw [hself, ← hpeer, ← htopic, hpeer', htopic']
          exact Backoff.concerns_iff.mpr ⟨rfl, rfl, rfl⟩
        · rw [hself]
          dsimp only
          omega
      · exact ⟨j, hj, by rwa [hrest j hji], by rwa [hrest j hji]⟩
    · rw [List.mem_singleton.mp hmem]
      exact ⟨i, hi, by rw [hself]; exact Backoff.concerns_iff.mpr ⟨rfl, rfl, rfl⟩,
        by rw [hself]⟩

/-! ## One call -/

theorem step_add_valid (hp : p < config.capacity.maxPeers) (ht : t < config.capacity.maxTopics) :
    run.step config (.add p t intervalUs nowUs) =
      ⟨(backoffAdd config p t intervalUs nowUs run.router).2,
        run.added ++ [⟨(p, t), overAt config intervalUs nowUs⟩], nowUs⟩ := by
  simp only [step, if_pos (And.intro hp ht)]

/-- Clearing what is over loses nothing that is running. -/
theorem Inv.clearExpired (h : Inv config run) (hclock : run.clockUs ≤ nowUs) :
    Inv config (run.step config (.clearExpired nowUs)) := by
  have hcases : ∀ i, ((backoffClearExpired config nowUs run.router).backoff i).used = false ∨
      (backoffClearExpired config nowUs run.router).backoff i = run.router.backoff i := by
    intro i
    unfold backoffClearExpired
    dsimp only
    split
    · exact .inl rfl
    · exact .inr rfl
  have hused : ∀ i, ((backoffClearExpired config nowUs run.router).backoff i).used = true →
      (backoffClearExpired config nowUs run.router).backoff i = run.router.backoff i := by
    intro i hi
    rcases hcases i with hfree | hkept
    · rw [hi] at hfree
      cases hfree
    · exact hkept
  refine ⟨?_, ?_, h.inRange, ?_⟩
  · intro i hi j hj hsame
    unfold Router.SamePair step at hsame
    dsimp only at hsame
    rw [hused i hsame.1, hused j hsame.2.1] at hsame
    exact h.unique i hi j hj hsame
  · intro i hi hiused
    unfold step at hiused ⊢
    dsimp only at hiused ⊢
    have hkept := hused i hiused
    rw [hkept] at hiused ⊢
    exact h.sound i hi hiused
  · intro backoff hmem hrunning
    have hrunning : nowUs < backoff.expiresUs := hrunning
    obtain ⟨i, hi, hconcerns, hle⟩ := h.complete backoff hmem (by omega)
    have hkept : (backoffClearExpired config nowUs run.router).backoff i = run.router.backoff i := by
      unfold backoffClearExpired
      dsimp only
      rw [if_neg]
      rintro ⟨-, -, hexpired⟩
      omega
    unfold step
    dsimp only
    exact ⟨i, hi, by rwa [hkept], by rwa [hkept]⟩

/-- An add that spares the running entries is accounted for. -/
theorem Inv.add (h : Inv config run) (htimely : run.Timely config (.add p t intervalUs nowUs))
    (hspares : run.Spares config (.add p t intervalUs nowUs)) :
    Inv config (run.step config (.add p t intervalUs nowUs)) := by
  obtain ⟨hclock, hnow, hroom⟩ := htimely
  have hclock : run.clockUs ≤ nowUs := hclock
  have hnow : nowUs ≤ uint64Max := hnow
  by_cases hrange : p < config.capacity.maxPeers ∧ t < config.capacity.maxTopics
  · obtain ⟨hp, ht⟩ := hrange
    -- with a table full of running entries the new backoff would be one too many
    have hfree : ¬ Crowded config run.router p t nowUs := by
      intro hcrowded
      by_cases hover : overAt config intervalUs nowUs ≤ nowUs
      · exact hspares hp ht hover hcrowded
      · have := hcrowded.unexpired_lt h hp ht (Nat.lt_of_not_le hover)
        omega
    have hstep : ∀ r', (backoffAdd config p t intervalUs nowUs run.router).2 = r' →
        run.step config (.add p t intervalUs nowUs) =
          ⟨r', run.added ++ [⟨(p, t), overAt config intervalUs nowUs⟩], nowUs⟩ := by
      rintro r' rfl
      exact step_add_valid hp ht
    rcases @backoffAdd_cases config run.router p t intervalUs nowUs hp ht hnow with
      ⟨i, hi, hconcerns, hle, hsame⟩ | ⟨i, hi, hentry, hother, hset⟩ | ⟨hzero, hsame⟩
    · rw [hstep _ hsame]
      exact h.addKept hclock hp ht fun _ => ⟨i, hi, hconcerns, hle⟩
    · rw [hstep _ hset]
      refine h.addSet hclock hp ht hi hother fun hrunning hused => ?_
      rcases hentry with hunused | ⟨hconcerns, hshort⟩ | hfull
      · rw [hused] at hunused
        cases hunused
      · exact ⟨hconcerns, Nat.le_of_lt hshort⟩
      · refine absurd ⟨by omega, fun j hj => ?_⟩ hfree
        obtain ⟨hjused, hjother, hle⟩ := hfull j hj
        exact ⟨hjused, hjother, by omega⟩
    · rw [hstep _ hsame]
      refine h.addKept hclock hp ht fun hrunning => ?_
      have hcount : (run.step config (.add p t intervalUs nowUs)).unexpired ≠ [] := by
        apply List.ne_nil_of_mem (a := (p, t))
        unfold unexpired
        rw [hstep _ hsame, List.mem_dedup]
        refine List.mem_map.mpr ⟨⟨(p, t), overAt config intervalUs nowUs⟩, ?_, rfl⟩
        rw [List.mem_filter]
        exact ⟨List.mem_append_right _ List.mem_cons_self, by simpa using hrunning⟩
      have hpos := List.length_pos_iff.mpr hcount
      omega
  · have hsame : (backoffAdd config p t intervalUs nowUs run.router).2 = run.router := by
      unfold backoffAdd
      rw [if_pos (by omega)]
    have hstep : run.step config (.add p t intervalUs nowUs) =
        ⟨run.router, run.added, nowUs⟩ := by
      simp only [step, if_neg hrange, hsame]
    rw [hstep]
    exact ⟨h.unique, h.sound, h.inRange, fun backoff hmem hrunning =>
      h.complete backoff hmem (Nat.lt_of_le_of_lt hclock hrunning)⟩

theorem Inv.step (h : Inv config run) (htimely : run.Timely config call)
    (hspares : run.Spares config call) : Inv config (run.step config call) := by
  cases call with
  | add p t intervalUs nowUs => exact h.add htimely hspares
  | clearExpired nowUs => exact h.clearExpired htimely.1

/-- An add that is accounted for spares the running entries. -/
theorem Inv.spares (h : Inv config run) (htimely : run.Timely config call)
    (hfaithful : Faithful config (run.step config call)) : run.Spares config call := by
  cases call with
  | clearExpired nowUs => trivial
  | add p t intervalUs nowUs =>
    intro hp ht _ ⟨hpos, hcrowded⟩
    have hnow : nowUs ≤ uint64Max := htimely.2.1
    rcases @backoffAdd_cases config run.router p t intervalUs nowUs hp ht hnow with
      ⟨i, hi, hconcerns, -, -⟩ | ⟨i, hi, -, -, hset⟩ | ⟨hzero, -⟩
    · rw [(hcrowded i hi).2.1] at hconcerns
      cases hconcerns
    · obtain ⟨hused, hother, hrunning⟩ := hcrowded i hi
      have hrouter : (run.step config (.add p t intervalUs nowUs)).router =
          run.router.setBackoff i ⟨true, p, t, overAt config intervalUs nowUs⟩ := hset
      have hadded : (run.step config (.add p t intervalUs nowUs)).added =
          run.added ++ [⟨(p, t), overAt config intervalUs nowUs⟩] :=
        congrArg BackoffRun.added (step_add_valid hp ht)
      -- the backoff of the entry that was taken is running, but no entry is left for it
      have hactive := (hfaithful.active (run.router.backoff i).peerIndex
        (run.router.backoff i).topicIndex nowUs (Nat.le_refl nowUs)).mpr
          ⟨_, hadded ▸ List.mem_append_left _ (h.sound i hi hused), rfl, hrunning⟩
      obtain ⟨-, -, j, hj, hconcerns, -⟩ := backoffActive_iff.mp hactive
      rw [hrouter] at hconcerns
      by_cases hji : j = i
      · rw [hji] at hconcerns
        simp only [Router.setBackoff, Function.update_self] at hconcerns
        obtain ⟨-, rfl, rfl⟩ := Backoff.concerns_iff.mp hconcerns
        rw [Backoff.concerns_iff.mpr ⟨hused, rfl, rfl⟩] at hother
        cases hother
      · simp only [Router.setBackoff, Function.update_of_ne hji] at hconcerns
        obtain ⟨hjused, hpeer, htopic⟩ := Backoff.concerns_iff.mp hconcerns
        exact hji (h.unique j hj i hi ⟨hjused, hused, hpeer, htopic⟩)
    · omega

/-! ## Runs -/

theorem runMeets_faithful_iff {calls : List BackoffCall} : ∀ {run : BackoffRun}, Inv config run →
    RunMeets (step config) (Timely config) run calls →
    (RunMeets (step config) (fun run call => Faithful config (run.step config call)) run calls ↔
      RunMeets (step config) (Spares config) run calls) := by
  induction calls with
  | nil => exact fun _ _ => Iff.rfl
  | cons call calls ih =>
    intro run h htimely
    constructor
    · rintro ⟨hfaithful, hrest⟩
      have hspares := h.spares htimely.1 hfaithful
      exact ⟨hspares, (ih (h.step htimely.1 hspares) htimely.2).mp hrest⟩
    · rintro ⟨hspares, hrest⟩
      have hnext := h.step htimely.1 hspares
      exact ⟨hnext.faithful, (ih hnext htimely.2).mpr hrest⟩

/-- In any timely calls the table is faithful to the backoffs that were added exactly if no add of a backoff
    that is over comes to a table full of running ones. -/
theorem backoffTable_faithful_iff (config : Config) (r : Router) (calls : List BackoffCall)
    (htimely : RunMeets (step config) (Timely config) (start r) calls) :
    RunMeets (step config) (fun run call => Faithful config (run.step config call)) (start r) calls ↔
      RunMeets (step config) (Spares config) (start r) calls :=
  runMeets_faithful_iff (inv_start config r) htimely

/-- A table with one entry, where a backoff lasts no longer than its interval. -/
def tightConfig : Config :=
  { RouterConfig.small.toConfig with
    mesh := { RouterConfig.small.mesh with backoffSlackUs := 0 }
    capacity := { RouterConfig.small.capacity with maxBackoffEntries := 1 } }

/-- A backoff is renewed, and its entry is taken over once it is over. -/
theorem backoffTable_faithful_tightConfig :
    RunMeets (step tightConfig) (fun run call => Faithful tightConfig (run.step tightConfig call))
        (start .init) [.add 0 0 10 5, .add 0 0 2 6, .add 1 0 10 15, .clearExpired 20] ↔
      RunMeets (step tightConfig) (Spares tightConfig) (start .init)
        [.add 0 0 10 5, .add 0 0 2 6, .add 1 0 10 15, .clearExpired 20] :=
  backoffTable_faithful_iff tightConfig .init
    [.add 0 0 10 5, .add 0 0 2 6, .add 1 0 10 15, .clearExpired 20] (by decide +kernel)

/-- A backoff of no length takes the entry of one that is running. -/
theorem backoffTable_not_faithful : ¬ ∀ (config : Config) (r : Router) (calls : List BackoffCall),
    RunMeets (step config) (Timely config) (start r) calls →
    RunMeets (step config) (fun run call => Faithful config (run.step config call)) (start r)
      calls := by
  intro hall
  have hfaithful := hall tightConfig .init [.add 0 0 10 5, .add 1 0 0 5] (by decide +kernel)
  have hactive := (hfaithful.2.1.active 0 0 5 (by decide)).mpr
    ⟨⟨(0, 0), 15⟩, by decide +kernel, rfl, by decide⟩
  revert hactive
  decide +kernel

end BackoffRun

end LeanLibp2p.Gossipsub

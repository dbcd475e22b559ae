import LeanLibp2p.Lib.Trace

/-!
# Automata over notes

An automaton reads those notes of a system that it understands, and may refuse to read on. A system
whose steps it can follow from state to state never leaves notes that it refuses. One automaton of this
kind watches a queue, another one a slot that is used again and again.
-/

namespace LeanLibp2p.Lib

variable {σ α κ μ : Type}
variable {step : σ → List α → σ → Prop}

/-- From `m` the automaton reads the notes and ends in `m'`; it understands what `kind` says of them. -/
def Reads (kind : α → Option κ) (next : μ → κ → Option μ) (m : μ) (notes : List α) (m' : μ) : Prop :=
  (notes.filterMap kind).foldlM next m = some m'

instance (kind : α → Option κ) (next : μ → κ → Option μ) (m : μ) (notes : List α) (m' : μ)
    [DecidableEq μ] : Decidable (Reads kind next m notes m') :=
  inferInstanceAs (Decidable (_ = _))

namespace Reads

variable {kind : α → Option κ} {next : μ → κ → Option μ} {m m' m'' : μ} {notes notes' : List α}

/-- Notes that mean nothing to the automaton. -/
theorem quiet (hnotes : ∀ n ∈ notes, kind n = none) : Reads kind next m notes m := by
  unfold Reads
  rw [List.filterMap_eq_nil_iff.mpr hnotes]
  rfl

theorem append (h : Reads kind next m notes m') (h' : Reads kind next m' notes' m'') :
    Reads kind next m (notes ++ notes') m'' := by
  unfold Reads at h h' ⊢
  rw [List.filterMap_append, List.foldlM_append, h]
  exact h'

theorem single {n : α} {k : κ} (hkind : kind n = some k) (hnext : next m k = some m') :
    Reads kind next m [n] m' := by
  unfold Reads
  rw [List.filterMap_cons_some hkind, List.filterMap_nil, List.foldlM_cons, hnext]
  rfl

/-- A note that is about one slot of a table, for any slot. -/
theorem of_slot {n : α} {k : κ} (about : Prop) [Decidable about]
    (hkind : kind n = if about then some k else none) (habout : about → next m k = some m')
    (hnot : ¬ about → m' = m) : Reads kind next m [n] m' := by
  by_cases h : about
  · rw [if_pos h] at hkind
    exact .single hkind (habout h)
  · rw [if_neg h] at hkind
    rw [hnot h]
    exact .quiet fun n' hn' => by rw [List.mem_singleton.mp hn']; exact hkind

/-- Only the notes that are told need to be read. -/
theorem of_filter {p : α → Bool} (hp : ∀ n, p n = false → kind n = none)
    (h : Reads kind next m (notes.filter p) m') : Reads kind next m notes m' := by
  have hfilter : (fun n => if p n then kind n else none) = kind := by
    funext n
    by_cases hn : p n = true
    · rw [if_pos hn]
    · rw [if_neg hn, hp n ((Bool.not_eq_true _).mp hn)]
  unfold Reads at h ⊢
  rwa [List.filterMap_filter, hfilter] at h

end Reads

/-- What the automaton reads of every step, it reads of a path. The notes may be assumed to meet a
    condition. -/
theorem Path.reads {kind : α → Option κ} {next : μ → κ → Option μ}
    {I : σ → Prop} {C : α → Prop} {view : σ → μ} {s s' : σ} {notes : List α}
    (hkeeps : ∀ s notes s', I s → step s notes s' → (∀ n ∈ notes, C n) → I s')
    (hstep : ∀ s notes s', I s → step s notes s' → (∀ n ∈ notes, C n) →
      Reads kind next (view s) notes (view s'))
    (h : Path step s notes s') (hs : I s) (hnotes : ∀ n ∈ notes, C n) :
    Reads kind next (view s) notes (view s') := by
  induction h with
  | nil => exact .quiet (by rintro n ⟨⟩)
  | cons hfirst _ ih =>
    have hhead := fun n hn => hnotes n (List.mem_append_left _ hn)
    have hnext := hkeeps _ _ _ hs hfirst hhead
    exact (hstep _ _ _ hs hfirst hhead).append (ih hnext fun n hn =>
      hnotes n (List.mem_append_right _ hn))

/-- What every step keeps under a condition on its notes, a path keeps under it. -/
theorem Path.keeps_noted {I : σ → Prop} {C : α → Prop} {s s' : σ}
    {notes : List α} (hstep : ∀ s notes s', I s → step s notes s' → (∀ n ∈ notes, C n) → I s')
    (h : Path step s notes s') (hs : I s) (hnotes : ∀ n ∈ notes, C n) : I s' := by
  induction h with
  | nil => exact hs
  | cons hfirst _ ih =>
    refine ih (hstep _ _ _ hs hfirst fun n hn => hnotes n (List.mem_append_left _ hn)) ?_
    exact fun n hn => hnotes n (List.mem_append_right _ hn)

/-- What holds of the notes of every step, holds of those of a path. -/
theorem Path.notes_meet {I : σ → Prop} {C : α → Prop} {s s' : σ}
    {notes : List α} (hkeeps : ∀ s notes s', I s → step s notes s' → I s')
    (hstep : ∀ s notes s', I s → step s notes s' → ∀ n ∈ notes, C n)
    (h : Path step s notes s') (hs : I s) : ∀ n ∈ notes, C n := by
  induction h with
  | nil => rintro n ⟨⟩
  | cons hfirst _ ih =>
    intro n hn
    rcases List.mem_append.mp hn with hn | hn
    · exact hstep _ _ _ hs hfirst n hn
    · exact ih (hkeeps _ _ _ hs hfirst) n hn

/-! ## Queues -/

/-- What is seen of a queue. -/
inductive QueueNote (ε : Type) where
  | queued (e : ε)
  | taken (e : ε)

variable {ε δ : Type} [DecidableEq ε] [DecidableEq δ]

/-- First in, first out: only the first element can be taken. -/
def queueNext : List ε → QueueNote ε → Option (List ε)
  | queue, .queued e => some (queue ++ [e])
  | first :: queue, .taken e => if first = e then some queue else none
  | [], .taken _ => none

/-! ## Slots -/

/-- The life of a slot: it is idle, it runs for something, or it was reported how that ended. -/
inductive Life (δ : Type) where
  | idle
  | runs (data : δ)
  | reported
  deriving DecidableEq, Repr

/-- What is seen of a slot. -/
inductive LifeNote (δ : Type) where
  | begins (data : δ)
  | reports (data : δ)
  | cancelled
  | taken
  deriving DecidableEq, Repr

/-- What runs is reported once, for the same data, or cancelled, and the slot is idle again when it
    was cancelled or the report was taken. -/
def Life.next : Life δ → LifeNote δ → Option (Life δ)
  | .idle, .begins data => some (.runs data)
  | .runs data, .reports data' => if data' = data then some .reported else none
  | .runs _, .cancelled => some .idle
  | .reported, .taken => some .idle
  | _, _ => none

end LeanLibp2p.Lib
